import Ummanu.Vitality.Arms
import Ummanu.Vitality.Policy

/-!
# When a confirmed stall stays confirmed

A confirmed stall is meant to end only by real progress, a suspension, death or a change of
identity. Two arms measure afresh what had been confirmed: the idle-turn rule, which charges from
the idle turn and may find that the dispatcher restarted the head after the stall began, and
observed quiet, which measures from the quiet reference. `confirmation_kept_iff` says exactly when
the next reduction of a confirmed episode is confirmed again: `KeepsConfirmation`, a condition on
the episode and the tick. `idleTurnConfirmation_lowered` is a history in which it fails: a stall
confirmed on an idle turn is lowered to a suspicion when the turn opens again without progress.

The reducer relies on the clocks of a confirmed episode not being parked, which is an invariant of
every history (`confirmed_not_frozen`).
-/

set_option autoImplicit false

namespace Ummanu.Vitality

open Library

variable {episode : VitalityEpisode} {tick : Tick}

/-! ### A confirmed episode is not parked -/

/-- The clocks of a confirmed episode are running. -/
def ConfirmedRuns (episode : VitalityEpisode) : Prop :=
  episode.verdict = .confirmedStall → episode.stallFrozenSince = 0

theorem unfreezeIfResumed_verdict (episode : VitalityEpisode) (owned : Readings) (now : ℕ) :
    (unfreezeIfResumed episode owned now).verdict = episode.verdict := by
  unfold unfreezeIfResumed
  split_ifs <;> rfl

theorem unfreezeIfResumed_of_running (hrunning : episode.stallFrozenSince = 0) (owned : Readings) (now : ℕ) :
    unfreezeIfResumed episode owned now = episode :=
  if_pos hrunning

/-- An arm that concludes a confirmation leaves the clocks running, if a confirmation it merely
preserves did. -/
theorem confirmedRuns_concludeArm (tick : Tick) (owned : Readings) (hruns : ConfirmedRuns episode)
    {arm : Arm} (harm : ArmSpec tick owned episode arm)
    (hconf : (concludeArm tick owned episode arm).verdict = .confirmedStall) :
    (concludeArm tick owned episode arm).episode.stallFrozenSince = 0 := by
  rw [concludeArm_stallFrozenSince]
  cases harm with
  | dead _ => exact absurd hconf (by simp [concludeArm, deadArm])
  | suspended _ =>
    refine absurd hconf ?_
    simp only [concludeArm, suspendedArm]
    split_ifs <;> simp
  | advancing | idleTurn | childHold | providerQuiet | noProgressSource => rfl
  | allDark =>
    rw [concludeArm, allDarkArm_verdict] at hconf
    by_cases hheld : episode.verdict = .confirmedStall
    · exact hruns hheld
    · simp [hheld] at hconf

theorem confirmedRuns_of_reduces {previous : Option VitalityEpisode} {run : RunId} {draft : VitalityEpisode}
    (hprev : ∀ stored, previous = some stored → ConfirmedRuns stored)
    (hred : Reduces previous tick run draft episode) : ConfirmedRuns episode := by
  have hopen : ConfirmedRuns (openEpisode previous run tick.now) := by
    unfold openEpisode
    split
    · split_ifs
      · exact hprev _ rfl
      · exact fun hverd ↦ absurd hverd (by simp)
    · exact fun hverd ↦ absurd hverd (by simp)
  have hdraft : ConfirmedRuns draft := by
    intro hverd
    rw [hred.recorded.verdict, unfreezeIfResumed_verdict] at hverd
    rw [hred.recorded.stallFrozenSince, unfreezeIfResumed_of_running (hopen hverd)]
    exact hopen hverd
  obtain ⟨_, rfl⟩ := hred.closed
  intro hverd
  have harm : (concludeArm tick (tick.owned run) draft
      (selectArm tick (tick.owned run) draft)).verdict = .confirmedStall :=
    (raiseOwedAnswer_confirmed_iff tick _).mp hverd
  exact (raiseOwedAnswer_stallFrozenSince tick _).trans
    (confirmedRuns_concludeArm tick _ hdraft (selectArm_spec _ _ _) harm)

/-- In every history of a record, the clocks of a confirmed episode are running. -/
theorem confirmed_not_frozen (hreach : Reachable episode) : ConfirmedRuns episode := by
  obtain ⟨_, hevs⟩ := hreach
  refine foldl_applyEvent_invariant ConfirmedRuns (fun _ ↦ True) (fun _ _ _ ↦ True) ?_ ?_ ?_ (fun ev _ ↦ ?_) hevs
  · intro _ _ red _ hprev hreduce
    rcases reduceVitality_cases hreduce with ⟨-, hsame⟩ | ⟨_, _, hred⟩
    · exact hprev red hsame
    · exact confirmedRuns_of_reduces hprev hred
  · exact fun red _ hruns ↦ hruns
  · exact fun _ _ _ _ _ _ hverd ↦ absurd hverd (by simp [restartQuiet])
  · cases ev <;> trivial

/-! ### The next reduction of a confirmed episode -/

/-- What keeps a confirmation through a tick without progress: when the idle-turn rule judges, the
idle turn has lasted to its own confirmation or the dispatcher has not restarted the head since
the stall began; when it does not judge and a channel speaks about progress, the quiet reaches the
confirmation threshold. -/
def KeepsConfirmation (episode : VitalityEpisode) (tick : Tick) : Prop :=
  let owned := ownedReadings episode.runId tick.snapshots
  match idleTurnJournal tick owned with
  | some journal =>
    tick.thresholds.idleTurnConfirmAfter ≤ tick.now - idleTurnReference tick episode journal ∨
      max tick.answerOwedSince episode.quietSince ≤ stallOnset episode
  | none =>
    progressEvidence owned = [] ∨ tick.thresholds.confirmQuiet ≤ tick.now - quietReference episode

/-- No channel that may speak about progress shows advancement, children included, and no channel
shows the process suspended or gone. -/
def Tick.Unmoved (tick : Tick) : Prop :=
  ∀ snapshot ∈ tick.snapshots, snapshot.answered →
    (¬ snapshot.advisory → snapshot.progress ≠ .advancing) ∧ snapshot.process ≠ .suspended ∧ snapshot.process ≠ .dead

instance (tick : Tick) : Decidable tick.Unmoved :=
  inferInstanceAs (Decidable (∀ snapshot ∈ tick.snapshots, snapshot.answered →
    (¬ snapshot.advisory → snapshot.progress ≠ .advancing) ∧
      snapshot.process ≠ .suspended ∧ snapshot.process ≠ .dead))

/-- No channel that may speak of progress answers that it advanced. -/
def Tick.Unadvanced (tick : Tick) : Prop :=
  ∀ snapshot ∈ tick.snapshots, snapshot.answered → ¬ snapshot.advisory → snapshot.progress ≠ .advancing

theorem Tick.Unadvanced.latestAdvancing_eq_none (hstill : tick.Unadvanced) (run : RunId) :
    latestAdvancing (tick.owned run) = none := by
  rw [latestAdvancing_eq_none_iff]
  intro snap hmem hstr
  simp only [VitalitySnapshot.strong, Bool.and_eq_true, Bool.not_eq_true'] at hstr
  exact hstill snap (mem_of_mem_ownedReadings hmem).1 hstr.1.1 (by simp [hstr.1.2])

theorem Tick.Unadvanced.childClaim_eq_none (hstill : tick.Unadvanced) (run : RunId)
    (episode : VitalityEpisode) : childClaim (tick.owned run) episode = none := by
  rw [childClaim, Option.map_eq_none_iff, Option.filter_eq_none_iff]
  intro kid hchild hadv
  rw [childReading, Option.filter_eq_some_iff] at hchild
  have hent := Readings.mem_of_get hchild.1
  refine hstill kid (mem_of_mem_ownedReadings hent.1).1 hchild.2 ?_ (by simpa using hadv)
  simp [VitalitySnapshot.advisory, hent.2]

section Unmoved

variable (hunmoved : tick.Unmoved) (run : RunId)
include hunmoved

theorem Tick.Unmoved.showsDead_eq_false : showsDead (tick.owned run) = false := by
  rw [showsDead_eq_false_iff]
  intro snap hmem
  obtain ⟨hsnap, hans⟩ := mem_of_mem_strongReadings hmem
  exact (hunmoved snap hsnap hans).2.2

theorem Tick.Unmoved.showsSuspended_eq_false : showsSuspended (tick.owned run) = false := by
  rw [showsSuspended_eq_false_iff]
  intro snap hmem
  obtain ⟨hsnap, hans⟩ := mem_of_mem_strongReadings hmem
  exact (hunmoved snap hsnap hans).2.1

omit run in
theorem Tick.Unmoved.unadvanced : tick.Unadvanced :=
  fun snap hmem hans ↦ (hunmoved snap hmem hans).1

end Unmoved

/-- The idle-turn rule keeps a confirmation it finds, or earns one of its own. -/
theorem idleTurnStall_confirmed_iff (hheld : episode.verdict = .confirmedStall) (owned : Readings)
    (journal : VitalitySnapshot) :
    (idleTurnStall tick episode owned journal).verdict = .confirmedStall ↔
      tick.thresholds.idleTurnConfirmAfter ≤ tick.now - idleTurnReference tick episode journal ∨
        max tick.answerOwedSince episode.quietSince ≤ stallOnset episode := by
  have hearned := two_le_levelAfter_iff tick.thresholds.idleTurnSuspectAfter
    tick.thresholds.idleTurnConfirmAfter (tick.now - idleTurnReference tick episode journal)
  have hlevel : ladderLevel episode.verdict = 2 := by rw [hheld]; rfl
  rw [idleTurnStall_verdict, ladderVerdict_eq_confirmed_iff, ← hearned]
  unfold idleTurnLevel
  generalize levelAfter _ _ _ = earned
  have hstand : stallStands tick episode earned = true ↔
      earned < 2 ∧ max tick.answerOwedSince episode.quietSince ≤ stallOnset episode := by
    simp [stallStands, hlevel]
  by_cases hheldOn : stallStands tick episode earned = true
  · rw [if_pos hheldOn, hlevel]
    exact iff_of_true le_rfl (.inr (hstand.mp hheldOn).2)
  · rw [if_neg hheldOn]
    refine ⟨.inl, fun hkept ↦ hkept.elim id fun honset ↦ ?_⟩
    by_contra hlow
    exact hheldOn (hstand.mpr ⟨by omega, honset⟩)

/-- A confirmed episode of a run, reduced with readings of that run that show no movement. -/
theorem reduces_confirmed_iff {stored draft : VitalityEpisode} (hheld : stored.verdict = .confirmedStall)
    (hruns : stored.stallFrozenSince = 0) (hunmoved : tick.Unmoved)
    (hred : Reduces (some stored) tick stored.runId draft episode) :
    episode.verdict = .confirmedStall ↔ KeepsConfirmation stored tick := by
  have hsame : SameClocks stored draft := by
    have hclocks := hred.recorded.toSameClocks
    rwa [openEpisode, if_pos rfl, unfreezeIfResumed_of_running hruns] at hclocks
  have hverd : draft.verdict = .confirmedStall := hsame.verdict.trans hheld
  obtain ⟨_, rfl⟩ := hred.closed
  change (raiseOwedAnswer tick _).verdict = _ ↔ _
  rw [raiseOwedAnswer_confirmed_iff, KeepsConfirmation]
  have hspec := selectArm_spec tick (tick.owned stored.runId) draft
  generalize selectArm tick (tick.owned stored.runId) draft = arm at hspec ⊢
  cases hspec with
  | dead sources hdead => simp [hunmoved.showsDead_eq_false] at hdead
  | suspended _ _ hsusp => simp [hunmoved.showsSuspended_eq_false] at hsusp
  | advancing last _ _ hadv => simp [hunmoved.unadvanced.latestAdvancing_eq_none] at hadv
  | idleTurn _ _ _ _ hjour =>
    simp only [hjour]
    rw [concludeArm, idleTurnStall_confirmed_iff hverd, idleTurnReference, idleTurnReference,
      hsame.quietSince, hsame.stallOnset_eq]
  | childHold _ _ _ _ _ hclaim =>
    simp [childHold, hunmoved.unadvanced.childClaim_eq_none] at hclaim
  | providerQuiet last _ _ _ hjour _ hlat =>
    have hev : progressEvidence (tick.owned stored.runId) ≠ [] := by
      rw [Ne, ← latestEvidence_eq_none_iff, hlat]
      simp
    simp only [hjour, hev, false_or]
    rw [concludeArm, providerQuietArm_verdict, ladderVerdict_eq_confirmed_iff,
      two_le_levelAfter_iff, hsame.quietReference_eq]
  | noProgressSource sources _ _ _ hjour _ hlat =>
    simp only [hjour, latestEvidence_eq_none_iff.mp hlat, true_or, iff_true]
    rw [concludeArm, noProgressSourceArm_verdict, if_pos hverd]
  | allDark _ _ _ hjour _ hlat =>
    simp only [hjour, latestEvidence_eq_none_iff.mp hlat, true_or, iff_true]
    rw [concludeArm, allDarkArm_verdict, if_pos hverd]

/-- Exactly when a confirmed stall survives a tick without movement, for every episode any history
can reach.

Assumes: the tick speaks about the episode's run, and no reading shows advancement, suspension or
death. -/
theorem confirmation_kept_iff {stored : VitalityEpisode} {tick : Tick}
    (hreach : Reachable stored) (hheld : stored.verdict = .confirmedStall)
    (hrun : tick.OfRun stored.runId) (hunmoved : tick.Unmoved) :
    (∃ episode, reduceVitality (some stored) tick = .ok episode ∧
      episode.verdict = .confirmedStall) ↔ KeepsConfirmation stored tick := by
  by_cases hsnaps : tick.snapshots = []
  · have hreduce : reduceVitality (some stored) tick = .ok stored := by
      simp [reduceVitality, hsnaps]
    have hkept : KeepsConfirmation stored tick := by
      simp [KeepsConfirmation, hsnaps, ownedReadings, latestPerSource, idleTurnJournal,
        Readings.get, Readings.empty, progressEvidence, strongReadings]
    exact iff_of_true ⟨stored, hreduce, hheld⟩ hkept
  · obtain ⟨_, episode, hreduce, hred⟩ :=
      exists_reduces_of_ofRun (some stored) hrun hsnaps
    rw [← reduces_confirmed_iff hheld (confirmed_not_frozen hreach hheld) hunmoved hred]
    constructor
    · rintro ⟨_, hoth, hconf⟩
      rwa [← Except.ok.inj (hreduce.symm.trans hoth)] at hconf
    · exact fun hconf ↦ ⟨episode, hreduce, hconf⟩

/-! ### A confirmation that is lowered -/

/-- A tick with a live process and a supervisor journal, while an answer is owed since second 100.
All times are in seconds. -/
def journalTick (turn : TurnState) (turnSince now : ℕ) (progress : ProgressState) : Tick :=
  { snapshots :=
      [.ofHeartbeat sampleRun (seconds now) .running,
        .ofJournal sampleRun (seconds now) turn (seconds turnSince) progress (.clip _ "j1:0")]
    now := seconds now
    answerOwedSince := seconds 100
    adapter := "claude" }

/-- The head ends its turn at second 1000 and sits at its prompt for ten minutes. -/
def promptHistory : List EpisodeEvent :=
  [.reduce (journalTick .idle 1000 1000 .unknown), .reduce (journalTick .idle 1000 1600 .quiet)]

/-- The stall confirmed at the end of that history. -/
def promptStall : VitalityEpisode :=
  (promptHistory.foldl applyEvent none).get (by decide +kernel)

theorem confirmation_kept_iff_witness :
    ∃ episode, reduceVitality (some promptStall) (journalTick .idle 1000 1660 .quiet) =
      .ok episode ∧ episode.verdict = .confirmedStall :=
  (confirmation_kept_iff ⟨promptHistory, (Option.some_get _).symm⟩ (by decide +kernel)
    (by decide +kernel) (by decide +kernel)).mpr (.inl (by decide +kernel))

/-- A stall confirmed on an idle turn is lowered to a suspicion by a tick that shows nothing but
an open turn and quiet: observed quiet is measured from the start of the episode, eleven minutes
before, and is confirmed only after fifteen. -/
theorem idleTurnConfirmation_lowered :
    Reachable promptStall ∧ promptStall.verdict = .confirmedStall ∧
      (journalTick .active 1650 1660 .quiet).OfRun promptStall.runId ∧
      (journalTick .active 1650 1660 .quiet).Unmoved ∧
      ∃ episode, reduceVitality (some promptStall) (journalTick .active 1650 1660 .quiet) =
        .ok episode ∧ episode.verdict = .suspectedStall :=
  ⟨⟨promptHistory, (Option.some_get _).symm⟩, by decide +kernel, by decide +kernel,
    by decide +kernel, _, rfl, by decide +kernel⟩

end Ummanu.Vitality
