import Ummanu.Vitality.Confirmation

/-!
# A live process is not indefinite evidence of life

A silent head is held healthy while its children work, and a progress source that goes dark
freezes the ladder for a while. Neither may go on for ever. Children are accepted only inside a
ceiling measured from the head's own quiet reference, which their activity cannot move, so the
stamp of the last accepted child stays below the reference plus the ceiling (`ChildBound`, kept by
every tick of a run in which nothing but a child advances: `Reduces.childBound`). Once the quiet
reference, the ceiling and the two thresholds have passed, every arm that can decide confirms the
stall, unless the progress source went dark within its own ceiling.

The result is `liveProcess_confirmed`, over every run of such ticks.
-/

set_option autoImplicit false

namespace Ummanu.Vitality

open Library VitalitySnapshot

variable {thresholds : VitalityThresholds} {run : RunId}
variable {episode : VitalityEpisode}

/-- A tick of a run whose head is silent: its process runs, only the heartbeat speaks about the
process, nothing but a child advances, every reading was taken at the tick, and the idle-turn rule
does not apply. -/
structure Tick.SilentHead (tick : Tick) (run : RunId) (thresholds : VitalityThresholds) :
    Prop where
  ofRun : tick.OfRun run
  thresholds_eq : tick.thresholds = thresholds
  noIdleTurn : tick.adapter ∉ idleTurnAdapters ∨ tick.answerOwedSince = 0
  running : showsRunning (ownedReadings run tick.snapshots) = true
  sourced : ∀ snapshot ∈ tick.snapshots, snapshot.WellSourced
  silent : ∀ snapshot ∈ tick.snapshots, snapshot.progress = .advancing → snapshot.source = .executionChild
  observed : ∀ snapshot ∈ tick.snapshots, snapshot.observedAt = tick.now

section SilentHead

variable {tick : Tick} (hsilent : tick.SilentHead run thresholds)
include hsilent

/-- No strong channel says anything about the process but that it runs. -/
theorem Tick.SilentHead.process {snapshot : VitalitySnapshot} (hmem : snapshot ∈ strongReadings (tick.owned run)) :
    snapshot.process ≠ .dead ∧ snapshot.process ≠ .suspended := by
  obtain ⟨heartbeat, hbeat, hbeatSource, hbeatRunning⟩ := exists_heartbeat_of_showsRunning hsilent.running
  have hentry := (List.mem_filter.mp hmem).1
  by_cases hsrc : snapshot.source = .pidHeartbeat
  · have hsame : snapshot = heartbeat := by
      have hown := Readings.get_of_mem hentry
      have hother := Readings.get_of_mem (List.mem_filter.mp hbeat).1
      rw [hsrc] at hown
      rw [hbeatSource] at hother
      exact Option.some.inj (hown.symm.trans hother)
    rw [hsame, hbeatRunning]
    simp
  · rw [hsilent.sourced snapshot (mem_of_mem_ownedReadings hentry).1 hsrc]
    simp

theorem Tick.SilentHead.showsDead_eq_false : showsDead (tick.owned run) = false :=
  showsDead_eq_false_iff.mpr fun _ hmem ↦ (hsilent.process hmem).1

theorem Tick.SilentHead.showsSuspended_eq_false : showsSuspended (tick.owned run) = false :=
  showsSuspended_eq_false_iff.mpr fun _ hmem ↦ (hsilent.process hmem).2

theorem Tick.SilentHead.latestAdvancing_eq_none : latestAdvancing (tick.owned run) = none := by
  rw [latestAdvancing_eq_none_iff]
  intro snap hmem hstr hadv
  have hchild := hsilent.silent snap (mem_of_mem_ownedReadings hmem).1 hadv
  simp [strong, hchild] at hstr

theorem Tick.SilentHead.idleTurnJournal_eq_none : idleTurnJournal tick (tick.owned run) = none := by
  refine if_neg fun hrule ↦ ?_
  rcases hsilent.noIdleTurn with hadap | _
  · exact hadap hrule.1
  · omega

theorem Tick.SilentHead.snapshots_ne_nil : tick.snapshots ≠ [] := by
  obtain ⟨_, hbeat, -, -⟩ := exists_heartbeat_of_showsRunning hsilent.running
  exact snapshots_ne_nil_of_strongReadings (List.ne_nil_of_mem hbeat)

end SilentHead

/-! ### The bound on child activity -/

/-- What a run of a silent head keeps: no stamp of the head has moved since the episode started,
the clocks run, and child activity is charged from the start and accepted below the ceiling. -/
structure ChildBound (ceiling : ℕ) (episode : VitalityEpisode) : Prop where
  lastProgressAt : episode.lastProgressAt = 0
  quietSince : episode.quietSince = 0
  stallFrozenSince : episode.stallFrozenSince = 0
  childActivitySince : episode.childActivitySince = 0 ∨ episode.childActivitySince = episode.startedAt
  childProgressAt : episode.childProgressAt < episode.startedAt + ceiling

theorem ChildBound.headQuietReference_eq {ceiling : ℕ} (hbound : ChildBound ceiling episode) :
    headQuietReference episode = episode.startedAt := by
  rw [headQuietReference, hbound.lastProgressAt, hbound.quietSince, Nat.max_self, stampOr_zero]

/-- The children cannot move the quiet reference beyond the ceiling. -/
theorem ChildBound.quietReference_le {ceiling : ℕ} (hbound : ChildBound ceiling episode) :
    quietReference episode ≤ episode.startedAt + ceiling := by
  have hchild := hbound.childProgressAt
  rw [quietReference, hbound.lastProgressAt, hbound.quietSince, stampOr]
  split_ifs <;> omega

/-- The children are charged from the start of the episode. -/
theorem ChildBound.claim_since {ceiling : ℕ} (hbound : ChildBound ceiling episode) {owned : Readings}
    {claim : ChildClaim} (hclaim : childClaim owned episode = some claim) :
    claim.since = episode.startedAt := by
  obtain ⟨_, -, rfl⟩ := Option.map_eq_some_iff.mp hclaim
  rw [hbound.headQuietReference_eq, stampOr]
  split_ifs with hunset
  · rfl
  · exact hbound.childActivitySince.resolve_left hunset

theorem ChildBound.of_sameClocks {ceiling : ℕ} {before after : VitalityEpisode}
    (hbound : ChildBound ceiling before) (hsame : SameClocks before after) :
    ChildBound ceiling after where
  lastProgressAt := hsame.lastProgressAt.trans hbound.lastProgressAt
  quietSince := hsame.quietSince.trans hbound.quietSince
  stallFrozenSince := hsame.stallFrozenSince.trans hbound.stallFrozenSince
  childActivitySince := by
    rw [hsame.childActivitySince, hsame.startedAt]
    exact hbound.childActivitySince
  childProgressAt := by
    rw [hsame.childProgressAt, hsame.startedAt]
    exact hbound.childProgressAt

/-- The claim a child reading makes was read at the tick. -/
theorem Tick.SilentHead.claim_observedAt {tick : Tick} (hsilent : tick.SilentHead run thresholds)
    {claim : ChildClaim} (hclaim : childClaim (tick.owned run) episode = some claim) :
    claim.reading.observedAt = tick.now := by
  obtain ⟨kid, hchild, rfl⟩ := Option.map_eq_some_iff.mp hclaim
  have hread := (Option.filter_eq_some_iff.mp hchild).1
  have hget := (Option.filter_eq_some_iff.mp hread).1
  exact hsilent.observed kid (mem_of_mem_ownedReadings (Readings.mem_of_get hget).1).1

/-- A child that is accepted was read inside the ceiling. -/
theorem childHold_eq_some {owned : Readings} {claim : ChildClaim}
    (hhold : childHold thresholds (childClaim owned episode) = some claim) :
    childClaim owned episode = some claim ∧
      claim.reading.observedAt - claim.since < thresholds.childActivityCeiling := by
  obtain ⟨hclaim, hheld⟩ := Option.filter_eq_some_iff.mp hhold
  exact ⟨hclaim, of_decide_eq_true hheld⟩

/-- Three arms can decide about a silent head: a child inside the ceiling, observed quiet, and a
live process with no progress source. -/
theorem Tick.SilentHead.selectArm_cases {tick : Tick} (hsilent : tick.SilentHead run thresholds)
    (draft : VitalityEpisode) :
    (∃ claim, selectArm tick (tick.owned run) draft = .childHold claim ∧
      childHold thresholds (childClaim (tick.owned run) draft) = some claim) ∨
    (∃ latest, selectArm tick (tick.owned run) draft = .providerQuiet latest) ∨
    ∃ sources, selectArm tick (tick.owned run) draft =
      .noProgressSource sources := by
  have hspec := selectArm_spec tick (tick.owned run) draft
  generalize selectArm tick (tick.owned run) draft = arm at hspec ⊢
  cases hspec with
  | dead sources hdead => simp [hsilent.showsDead_eq_false] at hdead
  | suspended _ _ hsusp => simp [hsilent.showsSuspended_eq_false] at hsusp
  | advancing latest _ _ hadv => simp [hsilent.latestAdvancing_eq_none] at hadv
  | idleTurn _ _ _ _ hjour => simp [hsilent.idleTurnJournal_eq_none] at hjour
  | childHold claim _ _ _ _ hclaim =>
    rw [hsilent.thresholds_eq] at hclaim
    exact .inl ⟨claim, rfl, hclaim⟩
  | providerQuiet latest => exact .inr (.inl ⟨latest, rfl⟩)
  | noProgressSource sources => exact .inr (.inr ⟨sources, rfl⟩)
  | allDark _ _ _ _ _ _ hdark =>
    obtain ⟨_, hbeat, -, -⟩ := exists_heartbeat_of_showsRunning hsilent.running
    exact absurd hdark (List.ne_nil_of_mem hbeat)

section Reduction

variable {stored : Option VitalityEpisode} {tick : Tick} {draft episode : VitalityEpisode}
  (hred : Reduces stored tick run draft episode)
  (hdisk : ∀ previous, stored = some previous → ChildBound thresholds.childActivityCeiling previous)
include hred hdisk

theorem Reduces.childBound_draft : ChildBound thresholds.childActivityCeiling draft := by
  have hopen : ChildBound thresholds.childActivityCeiling
      (openEpisode stored run tick.now) := by
    have hfresh : ChildBound thresholds.childActivityCeiling
        { runId := run, startedAt := tick.now, updatedAt := tick.now } :=
      ⟨rfl, rfl, rfl, .inl rfl, Nat.add_pos_right _ thresholds.childActivityCeiling_pos⟩
    unfold openEpisode
    split
    · split_ifs
      · exact hdisk _ rfl
      · exact hfresh
    · exact hfresh
  have hclocks := hred.recorded.toSameClocks
  rw [unfreezeIfResumed_of_running hopen.stallFrozenSince] at hclocks
  exact hopen.of_sameClocks hclocks

/-- One tick of a silent head keeps the bound on child activity. -/
theorem Reduces.childBound (hsilent : tick.SilentHead run thresholds) :
    ChildBound thresholds.childActivityCeiling episode := by
  have hdraft := hred.childBound_draft hdisk
  have hbegun := hred.untouched.startedAt
  have hquiet := hred.untouched.quietSince.trans hdraft.quietSince
  have hice : episode.stallFrozenSince = 0 := by
    obtain ⟨basis, rfl⟩ := hred.closed
    refine (raiseOwedAnswer_stallFrozenSince tick _).trans ?_
    rw [concludeArm_stallFrozenSince]
    rcases hsilent.selectArm_cases draft with ⟨claim, harm, -⟩ | ⟨last, harm⟩ | ⟨_, harm⟩ <;>
      rw [harm]
  rcases hsilent.selectArm_cases draft with ⟨claim, harm, hhold⟩ | hrest
  · obtain ⟨hclaim, _⟩ := childHold_eq_some hhold
    have hsince := hdraft.claim_since hclaim
    have hchild := hdraft.childProgressAt
    have hrai : raiseOwedAnswer tick (childHoldArm tick draft claim) =
      childHoldArm tick draft claim := raiseOwedAnswer_of_ne tick (by simp [childHoldArm])
    obtain ⟨basis, rfl⟩ := hred.closed
    simp only [concludeReadings, harm, concludeArm, hrai] at hbegun hquiet hice ⊢
    refine ⟨hdraft.lastProgressAt, hquiet, hice, .inr ?_, ?_⟩
    · exact hsince
    · refine max_lt hchild ?_
      omega
  · have hsame : SameProgress draft episode := by
      refine hred.sameProgress_of_arm (fun last heq ↦ ?_) fun claim heq ↦ ?_ <;>
        rcases hrest with ⟨_, harm⟩ | ⟨_, harm⟩ <;> simp [harm] at heq
    refine ⟨hsame.lastProgressAt.trans hdraft.lastProgressAt, hquiet, hice, ?_, ?_⟩
    · rw [hsame.childActivitySince, hbegun]
      exact hdraft.childActivitySince
    · rw [hsame.childProgressAt, hbegun]
      exact hdraft.childProgressAt

/-- Once the ceiling and the thresholds have passed since the start, a tick of a silent head
confirms the stall, unless the progress source is dark within its own ceiling. -/
theorem Reduces.confirmed_of_silentHead (hsilent : tick.SilentHead run thresholds)
    (hnow : draft.startedAt + thresholds.childActivityCeiling + thresholds.confirmQuiet ≤ tick.now)
    (hdark : ∀ since, draft.unavailableSince progressSource = some since →
      thresholds.darkCeiling ≤ tick.now - since) : episode.verdict = .confirmedStall := by
  have hdraft := hred.childBound_draft hdisk
  have hquiet : tick.thresholds.confirmQuiet ≤ tick.now - quietReference draft := by
    have hrefer := hdraft.quietReference_le
    rw [hsilent.thresholds_eq]
    omega
  have hup : ladderVerdict (levelAfter tick.thresholds.suspectAfter
      tick.thresholds.confirmQuiet (tick.now - quietReference draft)) = .confirmedStall := by
    rw [ladderVerdict_eq_confirmed_iff, two_le_levelAfter_iff]
    exact hquiet
  obtain ⟨_, rfl⟩ := hred.closed
  refine (raiseOwedAnswer_confirmed_iff tick _).mpr ?_
  rcases hsilent.selectArm_cases draft with ⟨_, harm, hhold⟩ | ⟨_, harm⟩ | ⟨sources, harm⟩
  · -- a child inside the ceiling would have been read before the ceiling passed
    obtain ⟨hclaim, hheld⟩ := childHold_eq_some hhold
    rw [hdraft.claim_since hclaim, hsilent.claim_observedAt hclaim] at hheld
    omega
  · rw [harm, concludeArm, providerQuietArm_verdict, hup]
  · have hwin : withinDarkCeiling tick draft = false := by
      rw [withinDarkCeiling, darkSpan]
      cases hsince : draft.unavailableSince progressSource with
      | none => rfl
      | some since =>
        have hpast := hdark since hsince
        rw [← hsilent.thresholds_eq] at hpast
        simpa using hpast
    rw [harm, concludeArm, noProgressSourceArm_verdict, hwin, hup]
    split_ifs <;> simp_all

end Reduction

/-! ### Whole runs -/

/-- A run of a silent head keeps the bound, and is about its run. -/
theorem childBound_foldl_storeReduction {ticks : List Tick} (hticks : ∀ tick ∈ ticks, tick.SilentHead run thresholds)
    (hrun : ticks.foldl storeReduction none = some episode) :
    ChildBound thresholds.childActivityCeiling episode := by
  have hsteps : EachStep storeReduction (fun _ tick ↦ tick.SilentHead run thresholds) none ticks :=
    .of_forall fun tick hmem _ ↦ hticks tick hmem
  refine EachStep.invariant (fun stored ↦ ∀ episode, stored = some episode →
    ChildBound thresholds.childActivityCeiling episode) hsteps (by simp) ?_ episode hrun
  intro stored tick hdisk hsilent _ hnext
  obtain ⟨_, _, hreduce, hred⟩ :=
    exists_reduces_of_ofRun stored hsilent.ofRun hsilent.snapshots_ne_nil
  rw [storeReduction, reduceStored_eq_some_iff.mpr hreduce, Option.some_or] at hnext
  rw [← Option.some.inj hnext]
  exact hred.childBound hdisk hsilent

/-- A live process is never indefinite evidence of life: in every run of a silent head, a tick
that comes the child ceiling and both thresholds after the head's own quiet reference finds a
confirmed stall, whatever the children reported and however the progress source came and went.

Assumes: the progress source, if it is recorded dark, has been dark for its ceiling. -/
theorem liveProcess_confirmed {ticks : List Tick} {tick : Tick} {run : RunId}
    {thresholds : VitalityThresholds} {episode : VitalityEpisode}
    (hticks : ∀ earlier ∈ ticks, earlier.SilentHead run thresholds)
    (htick : tick.SilentHead run thresholds)
    (hrun : (ticks ++ [tick]).foldl storeReduction none = some episode)
    (hnow : headQuietReference episode + thresholds.childActivityCeiling +
      thresholds.suspectAfter + thresholds.confirmAfter ≤ tick.now)
    (hdark : ∀ since, episode.unavailableSince progressSource = some since →
      thresholds.darkCeiling ≤ tick.now - since) :
    episode.verdict = .confirmedStall := by
  rw [List.foldl_append, List.foldl_cons, List.foldl_nil] at hrun
  have hdisk : ∀ previous, ticks.foldl storeReduction none = some previous →
      ChildBound thresholds.childActivityCeiling previous :=
    fun previous hprev ↦ childBound_foldl_storeReduction hticks hprev
  generalize ticks.foldl storeReduction none = stored at hrun hdisk
  obtain ⟨_, _, hreduce, hred⟩ :=
    exists_reduces_of_ofRun stored htick.ofRun htick.snapshots_ne_nil
  rw [storeReduction, reduceStored_eq_some_iff.mpr hreduce, Option.some_or] at hrun
  obtain rfl := Option.some.inj hrun
  refine hred.confirmed_of_silentHead hdisk htick ?_ ?_
  · rw [(hred.childBound hdisk htick).headQuietReference_eq, hred.untouched.startedAt] at hnow
    rw [VitalityThresholds.confirmQuiet]
    omega
  · rw [← hred.untouched.unavailableSince]
    exact hdark

/-- A head whose children keep working while it says nothing. Times are in seconds. -/
def workingChildTick (now : ℕ) : Tick :=
  { snapshots :=
      [.ofHeartbeat sampleRun (seconds now) .running,
        .ofChild sampleRun (seconds now) .advancing (.clip _ "jiffies:1")]
    now := seconds now }

theorem workingChildTick_silentHead (now : ℕ) :
    (workingChildTick now).SilentHead sampleRun defaultVitalityThresholds where
  ofRun := by simp [Tick.OfRun, workingChildTick, ofHeartbeat,
    ofChild]
  thresholds_eq := rfl
  noIdleTurn := .inr rfl
  running := rfl
  sourced := by simp [workingChildTick, VitalitySnapshot.WellSourced,
    ofHeartbeat, ofChild]
  silent := by simp [workingChildTick, ofHeartbeat, ofChild]
  observed := by simp [workingChildTick, ofHeartbeat, ofChild]

/-- What is on record an hour after such a head fell silent. -/
def childHeldStall : VitalityEpisode :=
  (([workingChildTick 1000, workingChildTick 3000] ++ [workingChildTick 4600]).foldl
    storeReduction none).get (by decide +kernel)

theorem liveProcess_confirmed_witness :
    headQuietReference childHeldStall = seconds 1000 ∧ childHeldStall.verdict = .confirmedStall := by
  have hrefer : headQuietReference childHeldStall = seconds 1000 := by decide +kernel
  have hrun : ([workingChildTick 1000, workingChildTick 3000] ++ [workingChildTick 4600]).foldl
    storeReduction none = some childHeldStall := (Option.some_get _).symm
  refine ⟨hrefer, liveProcess_confirmed (fun _ hmem ↦ ?_)
    (workingChildTick_silentHead 4600) hrun ?_ (by decide +kernel)⟩
  · simp only [List.mem_cons, List.not_mem_nil, or_false] at hmem
    rcases hmem with rfl | rfl <;> exact workingChildTick_silentHead _
  · decide

end Ummanu.Vitality
