import Ummanu.Vitality.Guard
import Ummanu.Vitality.ResponseWindow

/-!
# What time spent suspended counts for

A suspended process parks the quiet clock: the first suspended reading sets the freeze stamp, and
the first reading after it moves the quiet stamps past the parked span. `quiet_unfreezeIfResumed`
says that this is exact. The quiet of the episode after the span is the quiet it had when the span
began, so the quiet ladder charges nothing for the span.

Three clocks of the reducer are not moved: the idle-turn rule charges from the turn the journal
reports and from the owed answer, a dark progress source is charged from the instant it went dark,
and an answer is unanswered from the end of the turn. `suspendedTime_uncounted_iff` compares, for
every history, every suspended stretch and every batch that shows the process running again, the
verdict after the stretch with the verdict of the same batch before it. The verdict is not more
severe exactly when the stamps of the three pass no mark between the two instants that the
episode had not passed before (`SpanUncounted`). `idleTurn_agesWhileSuspended` is a stretch that
turns a quiet head into a confirmed stall.
-/

set_option autoImplicit false

namespace Ummanu.Vitality

open Library

variable {held parked episode draft : VitalityEpisode} {frozen : ℕ}
variable {tick : Tick} {run : RunId}

/-! ### Moving the stamps -/

theorem shiftStamp_max (now delta first second : ℕ) :
    shiftStamp now delta (max first second) =
      max (shiftStamp now delta first) (shiftStamp now delta second) := by
  unfold shiftStamp
  split_ifs <;> omega

theorem shiftStamp_stampOr {now : ℕ} (hnow : 0 < now) (delta stamp fallback : ℕ) :
    stampOr (shiftStamp now delta stamp) (shiftStamp now delta fallback) =
      shiftStamp now delta (stampOr stamp fallback) := by
  unfold stampOr shiftStamp
  split_ifs <;> omega

/-- The distance of a moved stamp is its distance when the span began. -/
theorem sub_shiftStamp {now stamp : ℕ} (hset : 0 < stamp) (hnow : frozen ≤ now) :
    now - shiftStamp now (now - frozen) stamp = frozen - stamp := by
  rw [shiftStamp, if_neg (Nat.ne_of_gt hset)]
  omega

theorem quietReference_pos (hbegun : 0 < episode.startedAt) : 0 < quietReference episode := by
  unfold quietReference stampOr
  split_ifs <;> omega

theorem quietReference_unfreezeIfResumed {owned : Readings} {now : ℕ}
    (hfrozen : 0 < episode.stallFrozenSince) (hresum : stillSuspended owned = false) (hnow : 0 < now) :
    quietReference (unfreezeIfResumed episode owned now) =
      shiftStamp now (now - episode.stallFrozenSince) (quietReference episode) := by
  unfold unfreezeIfResumed
  rw [if_neg (Nat.ne_of_gt hfrozen), hresum, if_neg Bool.false_ne_true]
  simp only [quietReference, ← shiftStamp_max, shiftStamp_stampOr hnow]

/-- The quiet of a resumed episode is the quiet it had when its clocks were parked. -/
theorem quiet_unfreezeIfResumed {owned : Readings} {now : ℕ} (hfrozen : 0 < episode.stallFrozenSince)
    (hresum : stillSuspended owned = false) (hbegun : 0 < episode.startedAt)
    (hnow : episode.stallFrozenSince ≤ now) :
    now - quietReference (unfreezeIfResumed episode owned now) =
      episode.stallFrozenSince - quietReference episode := by
  rw [quietReference_unfreezeIfResumed hfrozen hresum (hfrozen.trans_le hnow)]
  exact sub_shiftStamp (quietReference_pos hbegun) hnow

/-! ### A suspended stretch -/

/-- What a suspended stretch makes of an episode: its clocks are parked from an instant on, its
verdict is that of a stop signal, and the quiet stamps are those it began with. -/
structure Stretched (held : VitalityEpisode) (frozen : ℕ) (parked : VitalityEpisode) : Prop where
  runId : parked.runId = held.runId
  startedAt : parked.startedAt = held.startedAt
  quietSince : parked.quietSince = held.quietSince
  lastProgressAt : parked.lastProgressAt = held.lastProgressAt
  childProgressAt : parked.childProgressAt = held.childProgressAt
  stallFrozenSince : parked.stallFrozenSince = frozen
  verdict : parked.verdict = .suspended ∨ parked.verdict = .retained

theorem Stretched.trans {middle : VitalityEpisode} (hfirst : Stretched held frozen middle)
    (hrest : Stretched middle middle.stallFrozenSince parked) : Stretched held frozen parked := by
  cases hfirst
  cases hrest
  constructor <;> simp_all only

theorem Stretched.quietReference_eq (hlong : Stretched held frozen parked) :
    quietReference parked = quietReference held := by
  simp only [quietReference, hlong.lastProgressAt, hlong.quietSince, hlong.childProgressAt, hlong.startedAt]

theorem Stretched.ladderLevel_eq_zero (hlong : Stretched held frozen parked) :
    ladderLevel parked.verdict = 0 := by
  rcases hlong.verdict with hverd | hverd <;> rw [hverd] <;> rfl

/-- One suspended reading parks the clocks and moves no quiet stamp. -/
theorem Reduces.stretched (hred : Reduces (some held) tick held.runId draft parked)
    (hdead : showsDead (tick.owned held.runId) = false)
    (hsusp : showsSuspended (tick.owned held.runId) = true) :
    Stretched held (stampOr held.stallFrozenSince tick.now) parked := by
  obtain ⟨hverd, hstamp, -⟩ := hred.parked hdead hsusp
  have hopen : openEpisode (some held) held.runId tick.now = held := if_pos rfl
  have hclock : SameClocks held draft := by
    have hrec := hred.recorded.toSameClocks
    rw [hopen] at hrec
    rwa [unfreezeIfResumed, stillSuspended_of_showsSuspended hsusp, if_pos rfl, ite_self] at hrec
  have hact : parked.verdict ≠ .healthyActive := by
    rw [hverd]
    split_ifs <;> simp
  have hprog := hred.sameProgress hact
  rw [hopen] at hstamp
  refine ⟨hred.runId_eq, hred.untouched.startedAt.trans hclock.startedAt,
    hred.untouched.quietSince.trans hclock.quietSince,
    hprog.lastProgressAt.trans hclock.lastProgressAt,
    hprog.childProgressAt.trans hclock.childProgressAt, hstamp, ?_⟩
  rw [hverd]
  split_ifs <;> simp

/-- A tick inside a span keeps a stretched episode stretched. -/
theorem Tick.InSpan.stretched (hspan : tick.InSpan held.runId)
    (hverd : held.verdict = .suspended ∨ held.verdict = .retained) (hfrozen : 0 < held.stallFrozenSince) :
    ∃ parked, storeReduction (some held) tick = some parked ∧
      Stretched held held.stallFrozenSince parked := by
  obtain ⟨hof, hnil | ⟨hdead, hsusp⟩⟩ := hspan
  · exact ⟨held, storeReduction_of_nil hnil _, rfl, rfl, rfl, rfl, rfl, rfl, hverd⟩
  · have hsnaps : tick.snapshots ≠ [] :=
      snapshots_ne_nil_of_strongReadings (strongReadings_ne_nil_of_showsSuspended hsusp)
    obtain ⟨_, parked, hreduce, hred⟩ :=
      exists_reduces_of_ofRun (some held) hof hsnaps
    have hlong := hred.stretched hdead hsusp
    rw [stampOr_of_ne_zero (Nat.ne_of_gt hfrozen)] at hlong
    refine ⟨parked, ?_, hlong⟩
    rw [storeReduction, reduceStored_eq_some_iff.mpr hreduce, Option.some_or]

theorem foldl_storeReduction_stretched {ticks : List Tick} {middle : VitalityEpisode}
    (hmid : Stretched held frozen middle) (hfrozen : 0 < frozen)
    (hticks : ∀ tick ∈ ticks, tick.InSpan held.runId) :
    ∃ parked, ticks.foldl storeReduction (some middle) = some parked ∧
      Stretched held frozen parked := by
  induction ticks generalizing middle with
  | nil => exact ⟨middle, rfl, hmid⟩
  | cons tick _ ih =>
    have hspan : tick.InSpan middle.runId := by
      rw [hmid.runId]
      exact hticks tick List.mem_cons_self
    obtain ⟨_, hnext, hlong⟩ := hspan.stretched hmid.verdict (by rw [hmid.stallFrozenSince]; exact hfrozen)
    rw [List.foldl_cons, hnext]
    exact ih (hmid.trans hlong) fun l hlater ↦
      hticks l (List.mem_cons_of_mem _ hlater)

/-! ### The rung of a batch without movement -/

/-- The rung the quiet of an episode has reached. -/
def quietRung (tick : Tick) (episode : VitalityEpisode) : ℕ :=
  levelAfter tick.thresholds.suspectAfter tick.thresholds.confirmQuiet (tick.now - quietReference episode)

/-- An arm that leaves a rung of the ladder to climb. -/
inductive Arm.Quiet : Arm → Prop
  | idleTurn (journal : VitalitySnapshot) : Quiet (.idleTurn journal)
  | providerQuiet (latest : VitalitySnapshot) : Quiet (.providerQuiet latest)
  | noProgressSource (sources : List SnapshotSource) : Quiet (.noProgressSource sources)

/-- The rung that a quiet arm concludes on. -/
def armLevel (tick : Tick) (episode : VitalityEpisode) : Arm → ℕ
  | .idleTurn journal => idleTurnLevel tick episode journal
  | .noProgressSource _ =>
    if episode.verdict = .confirmedStall then 2
    else if withinDarkCeiling tick episode then ladderLevel episode.verdict
    else quietRung tick episode
  | _ => quietRung tick episode

/-- The rung a recorded episode stands on when a live process shows no movement, before the owed
answer is considered. -/
def standingRung (tick : Tick) (owned : Readings) (episode : VitalityEpisode) : ℕ :=
  match idleTurnJournal tick owned with
  | some journal => idleTurnLevel tick episode journal
  | none =>
    if progressEvidence owned ≠ [] then quietRung tick episode
    else if episode.verdict = .confirmedStall then 2
    else if withinDarkCeiling tick episode then ladderLevel episode.verdict
    else quietRung tick episode

/-- The rung a recorded episode stands on, the owed answer included. -/
def heldRung (tick : Tick) (owned : Readings) (episode : VitalityEpisode) : ℕ :=
  max (standingRung tick owned episode) (if answerUnanswered tick episode then 1 else 0)

theorem ladderLevel_ladderVerdict {level : ℕ} (hlevel : level ≤ 2) :
    ladderLevel (ladderVerdict level) = level := by
  match level with
  | 0 | 1 | 2 => rfl
  | n + 3 => omega

theorem ladderLevel_le_two (verdict : VitalityVerdict) : ladderLevel verdict ≤ 2 := by
  cases verdict <;> decide

theorem quietRung_le_two (tick : Tick) (episode : VitalityEpisode) : quietRung tick episode ≤ 2 :=
  levelAfter_le_two _ _ _

theorem idleTurnLevel_le_two (tick : Tick) (episode : VitalityEpisode)
    (journal : VitalitySnapshot) : idleTurnLevel tick episode journal ≤ 2 := by
  unfold idleTurnLevel
  dsimp only
  split_ifs
  · exact ladderLevel_le_two _
  · exact levelAfter_le_two _ _ _

theorem armLevel_le_two (tick : Tick) (episode : VitalityEpisode) (arm : Arm) : armLevel tick episode arm ≤ 2 := by
  unfold armLevel
  split
  · exact idleTurnLevel_le_two _ _ _
  · split_ifs
    · exact le_rfl
    · exact ladderLevel_le_two _
    · exact quietRung_le_two _ _
  · exact quietRung_le_two _ _

/-- A quiet arm concludes its rung. -/
theorem Arm.Quiet.verdict_eq {arm : Arm} (hquiet : arm.Quiet) (tick : Tick) (owned : Readings)
    (draft : VitalityEpisode) : (concludeArm tick owned draft arm).verdict = ladderVerdict (armLevel tick draft arm) := by
  cases hquiet with
  | idleTurn jr => exact idleTurnStall_verdict tick draft owned jr
  | providerQuiet last => exact providerQuietArm_verdict tick draft last
  | noProgressSource _ =>
    simp only [concludeArm, noProgressSourceArm_verdict, armLevel]
    split_ifs with hconf hwithin hsusp
    · rfl
    · rw [hsusp]
      rfl
    · cases hverd : draft.verdict <;> simp_all [ladderLevel, ladderVerdict]
    · rfl

/-- The owed answer lifts the foot of the ladder by one rung. -/
theorem ladderLevel_raiseOwedAnswer (tick : Tick) {ruling : Ruling} {level : ℕ}
    (hverd : ruling.verdict = ladderVerdict level) (hlevel : level ≤ 2) :
    ladderLevel (raiseOwedAnswer tick ruling).verdict =
      max level (if answerUnanswered tick ruling.episode then 1 else 0) := by
  unfold raiseOwedAnswer
  interval_cases level <;> by_cases howed : answerUnanswered tick ruling.episode = true <;>
    simp [hverd, howed, ladderVerdict, ladderLevel]

/-- With a live process and no movement, the arm that decides is quiet, and concludes the standing rung. -/
theorem selectArm_standingRung (hstill : tick.Unmoved)
    (hstr : strongReadings (tick.owned run) ≠ []) (episode : VitalityEpisode) :
    (selectArm tick (tick.owned run) episode).Quiet ∧
      armLevel tick episode (selectArm tick (tick.owned run) episode) =
        standingRung tick (tick.owned run) episode := by
  have hspec := selectArm_spec tick (tick.owned run) episode
  generalize selectArm tick (tick.owned run) episode = arm at hspec ⊢
  unfold standingRung
  cases hspec with
  | dead sources hdead => simp [hstill.showsDead_eq_false] at hdead
  | suspended _ _ hsusp => simp [hstill.showsSuspended_eq_false] at hsusp
  | advancing last _ _ hadv => simp [hstill.unadvanced.latestAdvancing_eq_none] at hadv
  | idleTurn jr _ _ _ hjour =>
    rw [hjour]
    exact ⟨.idleTurn jr, rfl⟩
  | childHold _ _ _ _ _ hclaim =>
    simp [childHold, hstill.unadvanced.childClaim_eq_none] at hclaim
  | providerQuiet last _ _ _ hjour _ hlat =>
    have hev : progressEvidence (tick.owned run) ≠ [] := by
      rw [Ne, ← latestEvidence_eq_none_iff, hlat]
      simp
    simp only [hjour, if_pos hev]
    exact ⟨.providerQuiet last, rfl⟩
  | noProgressSource sources _ _ _ hjour _ hlat =>
    simp only [hjour, latestEvidence_eq_none_iff.mp hlat, ne_eq, not_true, if_false]
    exact ⟨.noProgressSource sources, rfl⟩
  | allDark _ _ _ _ _ _ hdark => exact absurd hdark hstr

/-- The severity of a reduction that a quiet arm decides. -/
theorem Reduces.ladderLevel_eq {stored : Option VitalityEpisode} (hred : Reduces stored tick run draft episode)
    (hquiet : (selectArm tick (tick.owned run) draft).Quiet) :
    ladderLevel episode.verdict =
      max (armLevel tick draft (selectArm tick (tick.owned run) draft))
        (if answerUnanswered tick draft then 1 else 0) := by
  obtain ⟨_, rfl⟩ := hred.closed
  refine (ladderLevel_raiseOwedAnswer tick (hquiet.verdict_eq tick (tick.owned run) draft)
    (armLevel_le_two _ _ _)).trans ?_
  rw [answerUnanswered_concludeArm tick _ draft]
  · rintro _ heq
    rw [heq] at hquiet
    cases hquiet
  · rintro _ heq
    rw [heq] at hquiet
    cases hquiet

/-- The severity of a reduction of a live process without movement is the rung its recorded
episode stands on. -/
theorem Reduces.ladderLevel_eq_heldRung {stored : Option VitalityEpisode}
    (hred : Reduces stored tick run draft episode) (hstill : tick.Unmoved)
    (hstr : strongReadings (tick.owned run) ≠ []) :
    ladderLevel episode.verdict = heldRung tick (tick.owned run) draft := by
  obtain ⟨hquiet, hlevel⟩ := selectArm_standingRung hstill hstr draft
  rw [hred.ladderLevel_eq hquiet, hlevel, heldRung]

/-! ### The stretch compared -/

/-- A batch of a run that shows its process running again, and no movement. -/
structure Tick.Resumes (tick : Tick) (run : RunId) : Prop where
  ofRun : tick.OfRun run
  unmoved : tick.Unmoved
  running : showsRunning (ownedReadings run tick.snapshots) = true

theorem Tick.Resumes.strongReadings_ne_nil (hresumes : tick.Resumes run) :
    strongReadings (tick.owned run) ≠ [] := by
  obtain ⟨_, hmem, -, -⟩ := exists_heartbeat_of_showsRunning hresumes.running
  exact List.ne_nil_of_mem hmem

theorem Tick.Resumes.stillSuspended_eq_false (hresumes : tick.Resumes run) :
    stillSuspended (tick.owned run) = false := by
  rw [stillSuspended, Readings.any, List.any_eq_false]
  intro snap hmem hsusp
  simp only [Bool.and_eq_true, decide_eq_true_eq] at hsusp
  exact (hresumes.unmoved snap (mem_of_mem_ownedReadings hmem).1 hsusp.1.1).2.1 hsusp.2

/-- A batch that shows the process running again reduces to the rung its recorded episode stands
on. -/
theorem Tick.Resumes.reduces (hresumes : tick.Resumes run) {stored : VitalityEpisode} (hrun : stored.runId = run) :
    ∃ episode, reduceVitality (some stored) tick = .ok episode ∧
      ladderLevel episode.verdict = heldRung tick (tick.owned run)
        (recordedEpisode tick (tick.owned run) stored) := by
  have hstrong := hresumes.strongReadings_ne_nil
  have hsnaps : tick.snapshots ≠ [] := snapshots_ne_nil_of_strongReadings hstrong
  obtain ⟨_, episode, hreduce, hred⟩ :=
    exists_reduces_of_ofRun (some stored) hresumes.ofRun hsnaps
  have hdraft := hred.drafted
  rw [openEpisode, if_pos hrun] at hdraft
  rw [← hdraft]
  exact ⟨episode, hreduce, hred.ladderLevel_eq_heldRung hresumes.unmoved hstrong⟩

/-! ### The clocks of an instant -/

/-- What an idle turn has to last for a rung, the suspicion or the confirmed stall. -/
def VitalityThresholds.idleMark (thresholds : VitalityThresholds) (rung : ℕ) : ℕ :=
  if rung = 1 then thresholds.idleTurnSuspectAfter else thresholds.idleTurnConfirmAfter

/-- What quiet has to last for a rung. -/
def VitalityThresholds.quietMark (thresholds : VitalityThresholds) (rung : ℕ) : ℕ :=
  if rung = 1 then thresholds.suspectAfter else thresholds.confirmQuiet

section Clocks

variable (tick : Tick) (owned : Readings) (stored : VitalityEpisode)

/-- How long the head has sat at its prompt: since the turn the journal reports and the owed
answer, which a resumption does not move, and since the quiet stamp, which it does. -/
def idleSpan (journal : VitalitySnapshot) : ℕ :=
  tick.now - max (max journal.turnSince tick.answerOwedSince) (unfreezeIfResumed stored owned tick.now).quietSince

/-- A stall of at least a rung is on record, and neither the owed answer nor the quiet stamp is
younger than it. -/
def StallKept (rung : ℕ) : Prop :=
  rung ≤ ladderLevel stored.verdict ∧
    max tick.answerOwedSince (unfreezeIfResumed stored owned tick.now).quietSince ≤
      stallOnset (unfreezeIfResumed stored owned tick.now)

/-- How long an episode has been quiet, up to the instant its clocks were parked. -/
def quietSpan : ℕ := stampOr stored.stallFrozenSince tick.now - quietReference stored

/-- The progress source is dark by its stamp, for less than the ceiling. -/
def DarkOpen : Prop :=
  ∃ since ∈ darkAfter tick.now owned stored, tick.now - since < tick.thresholds.darkCeiling

/-- An answer is owed, no progress is younger, and the turn ended after it was asked for. -/
def Unanswered : Prop :=
  0 < tick.answerOwedSince ∧ (unfreezeIfResumed stored owned tick.now).lastProgressAt < tick.answerOwedSince ∧
    tick.answerOwedSince ≤ (recordTurn tick.now owned stored).turnEndedAt

instance (rung : ℕ) : Decidable (StallKept tick owned stored rung) :=
  inferInstanceAs (Decidable (_ ∧ _))

instance : Decidable (DarkOpen tick owned stored) :=
  inferInstanceAs (Decidable (∃ since ∈ _, _))

instance : Decidable (Unanswered tick owned stored) :=
  inferInstanceAs (Decidable (_ ∧ _ ∧ _))

theorem answerUnanswered_recordedEpisode :
    answerUnanswered tick (recordedEpisode tick owned stored) = true ↔
      Unanswered tick owned stored := by
  have hrec := recorded_recordReadings tick owned ⟨stored, []⟩
  simp only [answerUnanswered, recordedEpisode, Unanswered, hrec.lastProgressAt, hrec.turn,
    Bool.and_eq_true, decide_eq_true_eq, and_assoc]

theorem withinDarkCeiling_recordedEpisode :
    withinDarkCeiling tick (recordedEpisode tick owned stored) = true ↔
      DarkOpen tick owned stored := by
  have hrec := recorded_recordReadings tick owned ⟨stored, []⟩
  rw [withinDarkCeiling, darkSpan, recordedEpisode, hrec.dark, DarkOpen]
  cases darkAfter tick.now owned stored <;> simp

end Clocks

/-- Heights of the ladder compare as their rungs do, one with an owed answer on its first rung. -/
theorem le_iff_rungs {low high : ℕ} (htop : low ≤ 2) {first second : ℕ → Prop} {owed owing : Prop}
    (hlow : ∀ rung ∈ [1, 2], rung ≤ low ↔ first rung ∨ rung = 1 ∧ owed)
    (hhigh : ∀ rung ∈ [1, 2], rung ≤ high ↔ second rung ∨ rung = 1 ∧ owing) :
    low ≤ high ↔
      (∀ rung ∈ [1, 2], first rung → second rung ∨ rung = 1 ∧ owing) ∧ (owed → owing ∨ second 1) := by
  simp only [List.forall_mem_cons, List.not_mem_nil, false_implies, implies_true, and_true, true_and,
    OfNat.ofNat_ne_one, false_and, or_false] at hlow hhigh ⊢
  have hrungs : low ≤ high ↔ (1 ≤ low → 1 ≤ high) ∧ (2 ≤ low → 2 ≤ high) := by omega
  rw [hrungs, hlow.1, hlow.2, hhigh.1, hhigh.2, or_imp, or_comm (a := owing), and_right_comm]

theorem not_le_zero_of_rung {rung : ℕ} (hrung : rung ∈ [1, 2]) : ¬rung ≤ 0 := by
  revert rung
  decide

section Rungs

variable {owned : Readings} {stored : VitalityEpisode} {rung : ℕ} (hrung : rung ∈ [1, 2])

include hrung

theorem le_levelAfter_iff {suspectAt confirmAt : ℕ} (hord : suspectAt ≤ confirmAt) (span : ℕ) :
    rung ≤ levelAfter suspectAt confirmAt span ↔
      (if rung = 1 then suspectAt else confirmAt) ≤ span := by
  simp only [List.mem_cons, List.not_mem_nil, or_false] at hrung
  rcases hrung with rfl | rfl
  · rw [levelAfter, if_pos rfl]
    split_ifs <;> omega
  · exact two_le_levelAfter_iff _ _ _

/-- The rung of an idle turn is that of its span or of the stall on record. -/
theorem le_standingRung_of_journal {journal : VitalitySnapshot} (hjour : idleTurnJournal tick owned = some journal) :
    rung ≤ standingRung tick owned (recordedEpisode tick owned stored) ↔
      tick.thresholds.idleMark rung ≤ idleSpan tick owned stored journal ∨
        StallKept tick owned stored rung := by
  have hrec := recorded_recordReadings tick owned ⟨stored, []⟩
  have hearned := le_levelAfter_iff hrung tick.thresholds.idleTurn_ordered (idleSpan tick owned stored journal)
  have hspan : tick.now - idleTurnReference tick (recordedEpisode tick owned stored) journal =
      idleSpan tick owned stored journal := by
    rw [idleTurnReference, recordedEpisode, hrec.quietSince, idleSpan]
  have honset : stallOnset (recordedEpisode tick owned stored) =
      stallOnset (unfreezeIfResumed stored owned tick.now) := by
    simp only [stallOnset, recordedEpisode, hrec.suspectedSince, hrec.confirmedSince, hrec.updatedAt]
  have hverd : (recordedEpisode tick owned stored).verdict = stored.verdict :=
    hrec.verdict.trans (unfreezeIfResumed_verdict _ _ _)
  have hsince : (recordedEpisode tick owned stored).quietSince =
    (unfreezeIfResumed stored owned tick.now).quietSince := hrec.quietSince
  simp only [standingRung, hjour, idleTurnLevel, stallStands, hspan, honset, hverd, hsince,
    StallKept, VitalityThresholds.idleMark, ← hearned, Bool.and_eq_true, decide_eq_true_eq]
  split_ifs <;> omega

/-- The rung of a head without an idle turn is that of its quiet, unless a dark progress source
leaves it on the rung it holds. -/
theorem le_standingRung_of_none (hjour : idleTurnJournal tick owned = none)
    (hquiet : tick.now - quietReference (recordedEpisode tick owned stored) = quietSpan tick stored) :
    rung ≤ standingRung tick owned (recordedEpisode tick owned stored) ↔
      if progressEvidence owned = [] ∧ (DarkOpen tick owned stored ∨ stored.verdict = .confirmedStall) then
        rung ≤ ladderLevel stored.verdict
      else tick.thresholds.quietMark rung ≤ quietSpan tick stored := by
  have hearned := le_levelAfter_iff hrung (Nat.le_add_right tick.thresholds.suspectAfter tick.thresholds.confirmAfter)
    (quietSpan tick stored)
  have hverd : (recordedEpisode tick owned stored).verdict = stored.verdict :=
    (recorded_recordReadings tick owned ⟨stored, []⟩).verdict.trans (unfreezeIfResumed_verdict _ _ _)
  simp only [standingRung, hjour, quietRung, hquiet, hverd, withinDarkCeiling_recordedEpisode]
  rw [VitalityThresholds.quietMark, VitalityThresholds.confirmQuiet, ← hearned]
  by_cases hev : progressEvidence owned = []
  · by_cases hconf : stored.verdict = .confirmedStall
    · simp [hev, hconf, ladderLevel]
    · by_cases hdark : DarkOpen tick owned stored <;> simp [hev, hconf, hdark]
  · simp [hev]

theorem le_heldRung_iff :
    rung ≤ heldRung tick owned (recordedEpisode tick owned stored) ↔
      rung ≤ standingRung tick owned (recordedEpisode tick owned stored) ∨
        rung = 1 ∧ Unanswered tick owned stored := by
  simp only [List.mem_cons, List.not_mem_nil, or_false] at hrung
  rw [heldRung, le_max_iff, ← answerUnanswered_recordedEpisode]
  refine or_congr Iff.rfl ?_
  split_ifs with howed
  · simp only [howed, and_true]
    omega
  · simp only [howed, Bool.false_eq_true, and_false, iff_false]
    omega

end Rungs

/-- The clocks that a resumption does not move carry an episode over no mark. `held` is the
episode the span began with and `parked` the one it ended with.

An idle turn that reaches a mark after the span had reached it before, unless a stall of that
rung is on record or the answer was overdue already. A dark window that closes during the span
finds no quiet to charge above the rung on record. An answer that is overdue after the span was
so before, or the head was suspected then. -/
structure SpanUncounted (before after : Tick) (owned : Readings)
    (held parked : VitalityEpisode) : Prop where
  idleTurn : ∀ journal, idleTurnJournal after owned = some journal → ∀ rung ∈ [1, 2],
    after.thresholds.idleMark rung ≤ idleSpan after owned parked journal →
    after.thresholds.idleMark rung ≤ idleSpan before owned held journal ∨
      StallKept before owned held rung ∨ rung = 1 ∧ Unanswered before owned held
  darkWindow : idleTurnJournal after owned = none → progressEvidence owned = [] →
    DarkOpen before owned held → ¬DarkOpen after owned parked → ∀ rung ∈ [1, 2],
    after.thresholds.quietMark rung ≤ quietSpan before held →
    rung ≤ ladderLevel held.verdict ∨ rung = 1 ∧ Unanswered before owned held
  answerAtPrompt : ∀ journal, idleTurnJournal after owned = some journal →
    Unanswered after owned parked → Unanswered before owned held ∨
      after.thresholds.idleTurnSuspectAfter ≤ idleSpan before owned held journal ∨
      StallKept before owned held 1
  answer : idleTurnJournal after owned = none → Unanswered after owned parked →
    Unanswered before owned held ∨
      if progressEvidence owned = [] ∧ (DarkOpen before owned held ∨ held.verdict = .confirmedStall) then
        1 ≤ ladderLevel held.verdict
      else after.thresholds.suspectAfter ≤ quietSpan before held

section Stretch

variable {stored : VitalityEpisode} (hresumes : tick.Resumes run) (hbegun : 0 < stored.startedAt)
    (hnow : stored.stallFrozenSince ≤ tick.now)

include hresumes hbegun hnow in
/-- The quiet that is judged once the process runs again is the quiet up to its suspension. -/
theorem Tick.Resumes.quietSpan_eq :
    tick.now - quietReference (recordedEpisode tick (tick.owned run) stored) =
      quietSpan tick stored := by
  have hrec := recorded_recordReadings tick (tick.owned run) ⟨stored, []⟩
  rw [recordedEpisode, hrec.quietReference_eq, quietSpan]
  by_cases hruns : stored.stallFrozenSince = 0
  · rw [unfreezeIfResumed_of_running hruns, hruns, stampOr_zero]
  · rw [stampOr_of_ne_zero hruns]
    exact quiet_unfreezeIfResumed (Nat.pos_of_ne_zero hruns) hresumes.stillSuspended_eq_false hbegun hnow

theorem heldRung_le_two (owned : Readings) (stored : VitalityEpisode) :
    heldRung tick owned stored ≤ 2 := by
  have hstand : standingRung tick owned stored ≤ 2 := by
    unfold standingRung
    split
    · exact idleTurnLevel_le_two _ _ _
    · split_ifs
      all_goals first | exact quietRung_le_two _ _ | exact ladderLevel_le_two _ | exact le_rfl
  unfold heldRung
  split_ifs <;> omega

/-- The rungs before and after a stretch compare as the clocks do that are not moved. -/
theorem Stretched.heldRung_le_iff {began : ℕ} (hresumes : tick.Resumes run) (hbegan : 0 < began)
    (hlast : began ≤ tick.now) (hbegun : 0 < held.startedAt)
    (hfrozen : held.stallFrozenSince ≤ began)
    (hlong : Stretched held (stampOr held.stallFrozenSince began) parked) :
    heldRung tick (tick.owned run) (recordedEpisode tick (tick.owned run) parked) ≤
      heldRung { tick with now := began } (tick.owned run)
        (recordedEpisode { tick with now := began } (tick.owned run) held) ↔
      SpanUncounted { tick with now := began } tick (tick.owned run) held parked := by
  have hearly : Tick.Resumes { tick with now := began } run :=
    ⟨hresumes.ofRun, hresumes.unmoved, hresumes.running⟩
  have hquiet := hearly.quietSpan_eq hbegun hfrozen
  have hset : parked.stallFrozenSince ≠ 0 := by
    rw [hlong.stallFrozenSince, stampOr]
    split_ifs <;> omega
  have hspan : quietSpan tick parked = quietSpan { tick with now := began } held := by
    rw [quietSpan, stampOr_of_ne_zero hset, hlong.stallFrozenSince, hlong.quietReference_eq]
    rfl
  have hquietAfter := hresumes.quietSpan_eq (by rw [hlong.startedAt]; exact hbegun)
    (by rw [hlong.stallFrozenSince, stampOr]; split_ifs <;> omega)
  have hfoot := hlong.ladderLevel_eq_zero
  have hconf : parked.verdict ≠ .confirmedStall := fun heq ↦ by simp [heq, ladderLevel] at hfoot
  set owned := tick.owned run
  set before : Tick := { tick with now := began } with hbefore
  cases hjour : idleTurnJournal tick owned with
  | some journal =>
    have hlow : ∀ rung ∈ [1, 2], rung ≤ heldRung tick owned (recordedEpisode tick owned parked) ↔
        tick.thresholds.idleMark rung ≤ idleSpan tick owned parked journal ∨
          rung = 1 ∧ Unanswered tick owned parked := by
      intro rung hmem
      rw [le_heldRung_iff hmem, le_standingRung_of_journal hmem hjour, StallKept, hfoot]
      simp only [not_le_zero_of_rung hmem, false_and, or_false]
    have hjourBefore : idleTurnJournal before owned = some journal := hjour
    rw [le_iff_rungs (heldRung_le_two _ _) hlow fun rung hmem ↦
      (le_heldRung_iff hmem).trans (or_congr_left (le_standingRung_of_journal hmem hjourBefore))]
    constructor
    · rintro ⟨hmark, howed⟩
      refine ⟨fun other hother rung hmem hspan ↦ ?_, by simp [hjour], fun other hother ↦ ?_, by simp [hjour]⟩ <;>
        obtain rfl := Option.some.inj (hjour.symm.trans hother)
      · exact or_assoc.mp (hmark rung hmem hspan)
      · exact howed
    · exact fun hunc ↦ ⟨fun rung hmem hmark ↦ or_assoc.mpr (hunc.idleTurn journal hjour rung hmem hmark),
        hunc.answerAtPrompt journal hjour⟩
  | none =>
    have hlow : ∀ rung ∈ [1, 2], rung ≤ heldRung tick owned (recordedEpisode tick owned parked) ↔
        (¬(progressEvidence owned = [] ∧ DarkOpen tick owned parked) ∧
          tick.thresholds.quietMark rung ≤ quietSpan before held) ∨
          rung = 1 ∧ Unanswered tick owned parked := by
      intro rung hmem
      rw [le_heldRung_iff hmem, le_standingRung_of_none hmem hjour hquietAfter, hfoot, hspan]
      simp only [hconf, or_false, not_le_zero_of_rung hmem]
      split_ifs with hdark <;> simp [hdark]
    rw [le_iff_rungs (heldRung_le_two _ _) hlow fun rung hmem ↦ (le_heldRung_iff hmem).trans
      (or_congr_left (le_standingRung_of_none hmem (by exact hjour) hquiet))]
    constructor
    · rintro ⟨hmark, howed⟩
      refine ⟨by simp [hjour], fun _ hev hopen hshut rung hmem hspan ↦ ?_, by simp [hjour], fun _ ↦ howed⟩
      have hhigh := hmark rung hmem ⟨fun h ↦ hshut h.2, hspan⟩
      rwa [if_pos ⟨hev, .inl hopen⟩] at hhigh
    · refine fun hunc ↦ ⟨fun rung hmem hmark ↦ ?_, hunc.answer hjour⟩
      split_ifs with hstill
      · obtain ⟨hev, hopen | hheld⟩ := hstill
        · exact hunc.darkWindow hjour hev hopen (fun h ↦ hmark.1 ⟨hev, h⟩) rung hmem hmark.2
        · rw [hheld]
          exact .inl (by clear hmark; revert rung; decide)
      · exact .inl hmark.2

end Stretch

/-! ### Histories on a clock -/

/-- An event of a record at positive instants not after a limit. -/
def EpisodeEvent.Until (limit : ℕ) : EpisodeEvent → Prop :=
  EpisodeEvent.Meets (fun tick ↦ 0 < tick.now ∧ tick.now ≤ limit) fun startedAt _ _ ↦ 0 < startedAt

/-- What such a history leaves: an episode that started, parked not after the limit. -/
theorem clocks_foldl_applyEvent {limit : ℕ} {events : List EpisodeEvent}
    (hclocks : ∀ event ∈ events, event.Until limit) (hevs : events.foldl applyEvent none = some episode) :
    0 < episode.startedAt ∧ episode.stallFrozenSince ≤ limit := by
  refine foldl_applyEvent_invariant (fun episode ↦ 0 < episode.startedAt ∧ episode.stallFrozenSince ≤ limit) _ _ ?_
    (fun _ _ hinv ↦ hinv) (fun _ _ _ _ hset hinv ↦ ⟨hset, hinv.2⟩) hclocks hevs
  intro prev tick red hclock hprev hreduce
  rcases reduceVitality_cases hreduce with ⟨-, hsame⟩ | ⟨run, _, hred⟩
  · exact hprev red hsame
  · have hopen : 0 < (openEpisode prev run tick.now).startedAt ∧
        (openEpisode prev run tick.now).stallFrozenSince ≤ limit := by
      unfold openEpisode
      split
      · split_ifs
        · exact hprev _ rfl
        · exact ⟨hclock.1, Nat.zero_le _⟩
      · exact ⟨hclock.1, Nat.zero_le _⟩
    have hresum : ∀ op : VitalityEpisode, 0 < op.startedAt ∧ op.stallFrozenSince ≤ limit →
        0 < (unfreezeIfResumed op (tick.owned run) tick.now).startedAt ∧
          (unfreezeIfResumed op (tick.owned run)
            tick.now).stallFrozenSince ≤ limit := by
      intro op hinv
      unfold unfreezeIfResumed
      split_ifs
      · exact hinv
      · exact hinv
      · refine ⟨?_, Nat.zero_le _⟩
        simp only [shiftStamp]
        split_ifs <;> omega
    have hdraft := hresum _ hopen
    rw [← hred.recorded.startedAt, ← hred.recorded.stallFrozenSince] at hdraft
    refine ⟨by rw [hred.untouched.startedAt]; exact hdraft.1, ?_⟩
    obtain ⟨_, rfl⟩ := hred.closed
    refine le_of_eq_of_le (raiseOwedAnswer_stallFrozenSince tick _) ?_
    rw [concludeArm_stallFrozenSince]
    split
    · exact hdraft.2
    · exact hdraft.2
    · rw [stampOr]
      split_ifs <;> omega
    · exact Nat.zero_le _

/-- Exactly when a suspended stretch leaves the verdict no more severe than it was: for every
history of the record up to the instant the stretch began, every suspended stretch, and every
batch that shows the process running again with no movement.

Assumes: the clock of the history is positive and not after the first suspended reading, and the
batch after the stretch is not before it. -/
theorem suspendedTime_uncounted_iff {events : List EpisodeEvent} {first : Tick} {rest : List Tick}
    {tick : Tick} {held parked : VitalityEpisode}
    (hclocks : ∀ event ∈ events, event.Until first.now)
    (hheld : events.foldl applyEvent none = some held)
    (hfirst : first.snapshots ≠ []) (hbegan : 0 < first.now) (hlast : first.now ≤ tick.now)
    (hstretch : ∀ later ∈ first :: rest, later.InSpan held.runId)
    (hparked : (first :: rest).foldl storeReduction (some held) = some parked)
    (hresumes : tick.Resumes held.runId) :
    (∃ before after, reduceVitality (some held) { tick with now := first.now } = .ok before ∧
      reduceVitality (some parked) tick = .ok after ∧
      ladderLevel after.verdict ≤ ladderLevel before.verdict) ↔
      SpanUncounted { tick with now := first.now } tick (ownedReadings held.runId tick.snapshots)
        held parked := by
  obtain ⟨hbegun, hfrozen⟩ := clocks_foldl_applyEvent hclocks hheld
  have hlong : Stretched held (stampOr held.stallFrozenSince first.now) parked := by
    obtain ⟨hof, hnil | ⟨hdead, hsusp⟩⟩ := hstretch first List.mem_cons_self
    · exact absurd hnil hfirst
    · obtain ⟨_, middle, hreduce, hred⟩ :=
        exists_reduces_of_ofRun (some held) hof hfirst
      have hmid := hred.stretched hdead hsusp
      obtain ⟨_, hfold, hlastStretched⟩ := foldl_storeReduction_stretched hmid (by rw [stampOr]; split_ifs <;> omega)
        fun later hlater ↦ hstretch later (List.mem_cons_of_mem _ hlater)
      have hdisk : storeReduction (some held) first = some middle := by
        rw [storeReduction, reduceStored_eq_some_iff.mpr hreduce, Option.some_or]
      rw [List.foldl_cons, hdisk, hfold] at hparked
      exact Option.some.inj hparked ▸ hlastStretched
  rw [← hlong.heldRung_le_iff hresumes hbegan hlast hbegun hfrozen]
  have hearl : Tick.Resumes { tick with now := first.now } held.runId :=
    ⟨hresumes.ofRun, hresumes.unmoved, hresumes.running⟩
  obtain ⟨before, hbefore, hbeforeRung⟩ := hearl.reduces rfl
  obtain ⟨after, hafter, hafterRung⟩ := hresumes.reduces hlong.runId
  rw [← hafterRung, ← hbeforeRung]
  constructor
  · rintro ⟨_, _, hotherBefore, hotherAfter, hle⟩
    rwa [← Except.ok.inj (hbefore.symm.trans hotherBefore), ← Except.ok.inj (hafter.symm.trans hotherAfter)] at hle
  · exact fun hle ↦ ⟨before, after, hbefore, hafter, hle⟩

/-- The record of a head whose first reading is a tick. -/
def headAfter (tick : Tick) (hsome : (applyEvent none (.reduce tick)).isSome) : VitalityEpisode :=
  (applyEvent none (.reduce tick)).get hsome

theorem foldl_applyEvent_headAfter (tick : Tick) (hsome : (applyEvent none (.reduce tick)).isSome) :
    ([.reduce tick] : List EpisodeEvent).foldl applyEvent none = some (headAfter tick hsome) :=
  (Option.some_get hsome).symm

/-- A process on a stop signal from one second to another. -/
def parkedTicks (began ended : ℕ) : List Tick :=
  [(parkedTick began false).toTick, (parkedTick ended false).toTick]

theorem parkedTicks_inSpan (began ended : ℕ) :
    ∀ tick ∈ parkedTicks began ended, tick.InSpan sampleRun := by
  intro tick hmem
  simp only [parkedTicks, List.mem_cons, List.not_mem_nil, or_false] at hmem
  rcases hmem with rfl | rfl <;> exact parkedTick_inSpan _ false

/-- A head whose provider answers at second 1000. -/
def providerHead : VitalityEpisode := headAfter (providerTick 1000 .unknown) (by decide +kernel)

def providerHeadParked : VitalityEpisode :=
  ((parkedTicks 1060 2000).foldl storeReduction (some providerHead)).get (by decide +kernel)

theorem suspendedTime_uncounted_iff_witness :
    ∃ before after, reduceVitality (some providerHead)
        { providerTick 2060 .quiet with now := seconds 1060 } = .ok before ∧
      reduceVitality (some providerHeadParked) (providerTick 2060 .quiet) = .ok after ∧
      ladderLevel after.verdict ≤ ladderLevel before.verdict := by
  have hrun : providerHead.runId = sampleRun := by decide +kernel
  have hspan := parkedTicks_inSpan 1060 2000
  have hclock : ∀ ev ∈ ([.reduce (providerTick 1000 .unknown)] : List EpisodeEvent),
      ev.Until (parkedTick 1060 false).now := by
    intro ev hmem
    obtain rfl := List.mem_singleton.mp hmem
    exact ⟨by decide, by decide⟩
  have hpark : (parkedTicks 1060 2000).foldl storeReduction (some providerHead) =
    some providerHeadParked := (Option.some_get _).symm
  have hresumes : (providerTick 2060 .quiet).Resumes providerHead.runId :=
    ⟨by decide +kernel, by decide +kernel, by decide +kernel⟩
  exact (suspendedTime_uncounted_iff hclock (foldl_applyEvent_headAfter _ _) (by decide)
    (by decide) (by decide) hspan hpark hresumes).mpr
    ⟨by decide +kernel, by decide +kernel, by decide +kernel, by decide +kernel⟩

/-! ### A stretch that is counted -/

/-- A live head that ended its turn at second 1000 while it owes an answer since second 100. -/
def idleHead : VitalityEpisode :=
  headAfter (journalTick .idle 1000 1000 .unknown) (by decide +kernel)

def idleHeadParked : VitalityEpisode :=
  ((parkedTicks 1060 1500).foldl storeReduction (some idleHead)).get (by decide +kernel)

/-- The prompt a minute after the turn ended is quiet. The same reading after nine minutes on a
stop signal confirms a stall: the idle turn is charged for the suspension. -/
theorem idleTurn_agesWhileSuspended :
    Reachable idleHead ∧ (∀ tick ∈ parkedTicks 1060 1500, tick.InSpan idleHead.runId) ∧
      (parkedTicks 1060 1500).foldl storeReduction (some idleHead) = some idleHeadParked ∧
      (journalTick .idle 1000 1600 .quiet).Resumes idleHead.runId ∧
      ∃ before after, reduceVitality (some idleHead)
          { journalTick .idle 1000 1600 .quiet with now := seconds 1060 } = .ok before ∧
        reduceVitality (some idleHeadParked) (journalTick .idle 1000 1600 .quiet) = .ok after ∧
        before.verdict = .healthyQuiet ∧ after.verdict = .confirmedStall := by
  have hrun : idleHead.runId = sampleRun := by decide +kernel
  have hspan := parkedTicks_inSpan 1060 1500
  exact ⟨⟨_, foldl_applyEvent_headAfter _ _⟩, hspan, (Option.some_get _).symm,
    ⟨by decide +kernel, by decide +kernel, by decide +kernel⟩,
    _, _, rfl, rfl, by decide +kernel, by decide +kernel⟩

end Ummanu.Vitality
