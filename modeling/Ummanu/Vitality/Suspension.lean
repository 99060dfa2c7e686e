import Ummanu.Library.Spans
import Ummanu.Vitality.Arms
import Ummanu.Vitality.Policy

/-!
# One suspension span, one SIGCONT

A suspended process opens a span: the wait loop sends one SIGCONT, holds a response window, and
escalates to the operator once when the window has passed. The span is keyed on the reducer's
freeze stamp, and every reduction that looks at something and sees no suspension clears the stamp.

`waitStep_spanStep` shows that the loop is a watcher in the sense of `Ummanu.Library.Spans`: the
phase of the span is read off the stored episode, a tick is a sight of the suspension, and the
decision is the output. What the loop sends over a whole run then follows from the sights alone.
`sigcont_once_iff` says when the loop sends one SIGCONT and escalates once: exactly when no tick
shows the suspension after a tick that looked and did not. `darkTick_resends_sigcont` is a run in
which a dark heartbeat in the middle of one suspension makes the loop send a second SIGCONT.
-/

set_option autoImplicit false

namespace Ummanu.Vitality

open Library VitalitySnapshot

variable {episode : VitalityEpisode} {run : RunId} {tick : WaitTick}

/-! ### What a reduction makes of a span -/

variable {owned : Readings}

theorem stillSuspended_of_showsSuspended (hsusp : showsSuspended owned = true) :
    stillSuspended owned = true := by
  rw [showsSuspended, List.any_eq_true] at hsusp
  obtain ⟨snap, hmem, hprocess⟩ := hsusp
  obtain ⟨hent, hstr⟩ := List.mem_filter.mp hmem
  simp only [strong, Bool.and_eq_true] at hstr
  rw [stillSuspended, Readings.any, List.any_eq_true]
  exact ⟨snap, hent, by rw [hstr.1.1, hstr.1.2, hprocess]; rfl⟩

/-- When only the heartbeat speaks about the process, the two tests for a suspension agree. -/
theorem stillSuspended_eq_showsSuspended (hsrc : ∀ snapshot ∈ owned.entries, snapshot.WellSourced) :
    stillSuspended owned = showsSuspended owned := by
  cases hshows : showsSuspended owned with
  | true => exact stillSuspended_of_showsSuspended hshows
  | false =>
    rw [stillSuspended, Readings.any, List.any_eq_false]
    intro snapshot hent hstill
    simp only [Bool.and_eq_true, decide_eq_true_eq] at hstill
    have hheartbeat : snapshot.source = .pidHeartbeat := by
      by_contra hoth
      have hunk := hsrc snapshot hent hoth
      simp [hunk] at hstill
    rw [showsSuspended_eq_false_iff] at hshows
    refine hshows snapshot (List.mem_filter.mpr ⟨hent, ?_⟩) hstill.2
    simp [strong, hstill.1.1, hheartbeat, advisory]

theorem unfreezeIfResumed_stallFrozenSince (hstill : stillSuspended owned = false) (episode : VitalityEpisode)
    (now : ℕ) : (unfreezeIfResumed episode owned now).stallFrozenSince = 0 := by
  unfold unfreezeIfResumed
  simp only [hstill, Bool.false_eq_true, if_false]
  split_ifs with hset
  · exact hset
  · rfl

section Reductions

variable {stored : Option VitalityEpisode} {tick : Tick} {draft : VitalityEpisode}
  (hred : Reduces stored tick run draft episode)
include hred

/-- A reduction does not touch the rung state. -/
theorem Reduces.rungState :
    episode.recoveryRung = (openEpisode stored run tick.now).recoveryRung ∧
      episode.recoverySpanStartedAt = (openEpisode stored run tick.now).recoverySpanStartedAt ∧
      episode.deterministicRefusals = (openEpisode stored run tick.now).deterministicRefusals := by
  have hresum : ∀ (op : VitalityEpisode) (owned : Readings) (now : ℕ),
      (unfreezeIfResumed op owned now).recoveryRung = op.recoveryRung ∧
        (unfreezeIfResumed op owned now).recoverySpanStartedAt = op.recoverySpanStartedAt ∧
        (unfreezeIfResumed op owned now).deterministicRefusals =
          op.deterministicRefusals := by
    intro op owned now
    unfold unfreezeIfResumed
    split_ifs <;> exact ⟨rfl, rfl, rfl⟩
  obtain ⟨hrung, hspan, hdeny⟩ := hresum (openEpisode stored run tick.now) (tick.owned run) tick.now
  exact ⟨(hred.untouched.recoveryRung.trans hred.recorded.recoveryRung).trans hrung,
    (hred.untouched.recoverySpanStartedAt.trans hred.recorded.recoverySpanStartedAt).trans hspan,
    (hred.untouched.deterministicRefusals.trans hred.recorded.deterministicRefusals).trans hdeny⟩

/-- The words a suspension leaves on an episode. -/
def suspensionReason (retained : Bool) : BoundedText reasonLimit :=
  .clip _ (if retained then "process held on a stop signal by a confirmed retention"
    else "process suspended on a stop signal")

/-- A suspended reading parks the clocks, from the first one on. -/
theorem Reduces.parked (hdead : showsDead (tick.owned run) = false) (hsusp : showsSuspended (tick.owned run) = true) :
    episode.verdict = (if tick.retained then .retained else .suspended) ∧
      episode.stallFrozenSince = stampOr (openEpisode stored run tick.now).stallFrozenSince tick.now ∧
      episode.reason = suspensionReason tick.retained := by
  have hkept : unfreezeIfResumed (openEpisode stored run tick.now)
      (tick.owned run) tick.now = openEpisode stored run tick.now := by
    unfold unfreezeIfResumed
    rw [stillSuspended_of_showsSuspended hsusp]
    simp
  have hfrozen := hred.recorded.stallFrozenSince
  rw [hkept] at hfrozen
  obtain ⟨_, rfl⟩ := hred.closed
  have hspec := selectArm_spec tick (tick.owned run) draft
  unfold concludeReadings closeEpisode
  generalize selectArm tick (tick.owned run) draft = arm at hspec ⊢
  cases hspec with
  | suspended byHeartbeat =>
    have hverd : (suspendedArm tick draft byHeartbeat).verdict ≠ .healthyQuiet := by
      simp only [suspendedArm]
      split_ifs <;> simp
    rw [concludeArm, raiseOwedAnswer_of_ne tick hverd]
    refine ⟨rfl, ?_, ?_⟩
    · simp only [suspendedArm, freezeStallClocks, hfrozen]
    · have hpres : (suspensionReason tick.retained).isPresent = true := by
        cases tick.retained <;> decide
      exact if_pos hpres
  | dead _ hshows => simp [hdead] at hshows
  | advancing _ _ hnot | idleTurn _ _ hnot | childHold _ _ hnot | providerQuiet _ _ hnot
  | noProgressSource _ _ hnot | allDark _ hnot => simp [hsusp] at hnot

/-- A reduction that sees no suspension leaves the clocks running. -/
theorem Reduces.resumed (hstill : stillSuspended (tick.owned run) = false) :
    episode.stallFrozenSince = 0 ∧ episode.verdict ≠ .suspended ∧
      episode.verdict ≠ .retained := by
  have hdraft : draft.stallFrozenSince = 0 := by
    rw [hred.recorded.stallFrozenSince, unfreezeIfResumed_stallFrozenSince hstill]
  have hshows : showsSuspended (tick.owned run) ≠ true := fun hshows ↦ by
    simp [stillSuspended_of_showsSuspended hshows] at hstill
  obtain ⟨_, rfl⟩ := hred.closed
  have hspec := selectArm_spec tick (tick.owned run) draft
  have harm : ∀ byHeartbeat, selectArm tick (tick.owned run) draft ≠
      .suspended byHeartbeat := by
    intro byHeartbeat heq
    rw [heq] at hspec
    cases hspec with
    | suspended _ _ hsusp => exact hshows hsusp
  have hfrozen := concludeArm_stallFrozenSince tick (tick.owned run) draft (selectArm tick (tick.owned run) draft)
  have hverd := concludeArm_not_parked tick (tick.owned run) draft _ harm
  refine ⟨(raiseOwedAnswer_stallFrozenSince tick _).trans (hfrozen.trans ?_), ?_⟩
  · cases hsel : selectArm tick (tick.owned run) draft with
    | suspended byHeartbeat => exact absurd hsel (harm byHeartbeat)
    | dead | allDark => exact hdraft
    | advancing | idleTurn | childHold | providerQuiet | noProgressSource => rfl
  · rcases raiseOwedAnswer_verdict tick (concludeArm tick (tick.owned run) draft
      (selectArm tick (tick.owned run) draft)) with hsame | ⟨-, herr⟩
    · simpa only [closeEpisode, concludeReadings, hsame] using hverd
    · simp [closeEpisode, concludeReadings, herr]

end Reductions

/-! ### What the policy makes of a span -/

/-- What a decision does for a suspension span: it announces the span by a SIGCONT, raises it to
the operator, or is silent about it. -/
def spanOutput (decision : RecoveryDecision) : SpanOutput :=
  match decision.intent, decision.detail with
  | .sigcont, _ => .announce
  | .escalateOperator, .pastWindow _ _ => .raise
  | _, _ => .silent

theorem deterministicReasonClass_suspensionReason (retained : Bool) :
    deterministicReasonClass (suspensionReason retained).text = none := by
  cases retained <;> decide +kernel

/-- A suspended episode is decided by its rungs: the words it carries name no refusal. -/
theorem decideRecovery_of_suspended (hverd : episode.verdict = .suspended)
    (hreason : episode.reason = suspensionReason false) (previous : Option VitalityEpisode) (now : ℕ)
    (thresholds : RecoveryThresholds) :
    decideRecovery (some episode) previous now thresholds =
      decideSuspended episode previous now thresholds := by
  simp [decideRecovery, hverd, hreason, deterministicReasonClass_suspensionReason]

/-- Nothing but a suspension speaks about a suspension span. -/
theorem spanOutput_decideRecovery (hverd : episode.verdict ≠ .suspended)
    (previous : Option VitalityEpisode) (now : ℕ) (thresholds : RecoveryThresholds) :
    spanOutput (decideRecovery (some episode) previous now thresholds) = .silent := by
  have hspec := decideRecovery_spec episode previous now thresholds
  generalize decideRecovery (some episode) previous now thresholds = decision at hspec ⊢
  cases hspec with
  | retained | suspected | other => rfl
  | deterministic _ =>
    unfold decideDeterministic
    dsimp only
    split_ifs <;> rfl
  | suspended _ hsusp => exact absurd hsusp hverd

section Policy

variable (episode : VitalityEpisode) (now : ℕ) (thresholds : RecoveryThresholds)

theorem recoveryPolicyDecision_fst :
    (recoveryPolicyDecision episode now thresholds).1 =
      decideRecovery (some episode) (some episode) now thresholds := by
  unfold recoveryPolicyDecision
  dsimp only
  split_ifs <;> rfl

/-- The stored rung is the decided one. -/
theorem recoveryPolicyDecision_rung :
    (recoveryPolicyDecision episode now thresholds).2.recoveryRung =
      (decideRecovery (some episode) (some episode) now thresholds).rung := by
  unfold recoveryPolicyDecision
  dsimp only
  split_ifs with hsame
  · exact hsame.2.1
  · rfl

/-- The policy writes nothing but the rung state. -/
theorem recoveryPolicyDecision_frame :
    (recoveryPolicyDecision episode now thresholds).2.runId = episode.runId ∧
      (recoveryPolicyDecision episode now thresholds).2.verdict = episode.verdict ∧
      (recoveryPolicyDecision episode now thresholds).2.reason = episode.reason ∧
      (recoveryPolicyDecision episode now thresholds).2.stallFrozenSince =
        episode.stallFrozenSince := by
  rcases recoveryPolicyDecision_snd episode now thresholds with hsame | hwrote
  · rw [hsame]
    exact ⟨rfl, rfl, rfl, rfl⟩
  · rw [hwrote]
    exact ⟨rfl, rfl, rfl, rfl⟩

theorem sameSpan_self_iff : sameSpan episode (some episode) = true ↔
    rungSigcontSent ≤ episode.recoveryRung ∧ 0 < episode.recoverySpanStartedAt ∧
      episode.recoverySpanStartedAt = episode.stallFrozenSince := by
  simp [sameSpan, and_assoc]

/-- A suspension is observed without a new rung only inside the span its rung state names. -/
theorem decideSuspended_observe (hobs : (decideSuspended episode (some episode) now thresholds).intent = .observe) :
    sameSpan episode (some episode) = true := by
  have hspec := decideSuspended_spec episode now thresholds
  generalize decideSuspended episode (some episode) now thresholds = decision at hspec hobs
  cases hspec with
  | sigcont => simp at hobs
  | escalatedBefore _ hspan | insideWindow _ hspan => exact hspan
  | pastWindow => simp at hobs

/-- A rung state that names a span names the one the episode is parked in. -/
def SpanKeyed (episode : VitalityEpisode) : Prop :=
  rungSigcontSent ≤ episode.recoveryRung → 0 < episode.recoverySpanStartedAt →
    episode.recoverySpanStartedAt = episode.stallFrozenSince

/-- Whatever the loop stores is keyed to its span. -/
theorem spanKeyed_recoveryPolicyDecision :
    SpanKeyed (recoveryPolicyDecision episode now thresholds).2 := by
  unfold recoveryPolicyDecision
  dsimp only
  split_ifs with hsame
  · intro hsent _
    have hspec := decideRecovery_spec episode (some episode) now thresholds
    generalize decideRecovery (some episode) (some episode) now thresholds = decision at hspec hsame
    obtain ⟨hobs, hrung, hdeny⟩ := hsame
    cases hspec with
    | retained | other =>
      rw [hrung] at hsent
      exact absurd hsent (Nat.not_le.mpr (by decide : rungNone < rungSigcontSent))
    | deterministic _ =>
      rw [decideDeterministic_refusals] at hdeny
      omega
    | suspected => simp at hobs
    | suspended =>
      exact ((sameSpan_self_iff episode).mp (decideSuspended_observe episode now thresholds hobs)).2.2
  · exact fun _ _ ↦ rfl

end Policy

/-! ### The loop is a watcher -/

/-- What one turn of the loop does for a suspension span. -/
def waitOutput (stored : Option VitalityEpisode) (tick : WaitTick) : SpanOutput :=
  ((waitDecision stored tick).map spanOutput).getD .silent

/-- What a tick shows of the suspension of a run. -/
def Tick.sight (tick : Tick) (run : RunId) : Sight :=
  if tick.snapshots = [] then .nothing
  else if showsSuspended (ownedReadings run tick.snapshots) then .held else .released

/-- The phase of the span an episode is in. -/
def spanPhase (episode : VitalityEpisode) : SpanPhase :=
  if episode.stallFrozenSince = 0 then .closed
  else if rungEscalated ≤ episode.recoveryRung then .raised else .opened

/-- An episode the loop stored inside a suspension span. -/
structure Parked (episode : VitalityEpisode) : Prop where
  verdict : episode.verdict = .suspended
  reason : episode.reason = suspensionReason false
  frozen : 0 < episode.stallFrozenSince
  rung : rungResponseWindow ≤ episode.recoveryRung
  span : episode.recoverySpanStartedAt = episode.stallFrozenSince

/-- An episode whose clocks run and whose rung state names no span. -/
structure Unparked (episode : VitalityEpisode) : Prop where
  frozen : episode.stallFrozenSince = 0
  span : rungSigcontSent ≤ episode.recoveryRung → episode.recoverySpanStartedAt = 0

theorem Parked.sameSpan (hpark : Parked episode) : sameSpan episode (some episode) = true := by
  rw [sameSpan_self_iff]
  refine ⟨le_trans (by decide) hpark.rung, ?_, hpark.span⟩
  rw [hpark.span]
  exact hpark.frozen

theorem Unparked.of_spanKeyed (hkeyed : SpanKeyed episode) (hfrozen : episode.stallFrozenSince = 0) :
    Unparked episode := by
  refine ⟨hfrozen, fun hrung ↦ ?_⟩
  by_contra hset
  exact hset ((hkeyed hrung (Nat.pos_of_ne_zero hset)).trans hfrozen)

section Suspended

variable (hverd : episode.verdict = .suspended) (hreason : episode.reason = suspensionReason false)
  (hfrozen : 0 < episode.stallFrozenSince) (now : ℕ) (thresholds : RecoveryThresholds)
include hverd hreason

theorem recoveryPolicyDecision_fst_of_suspended :
    (recoveryPolicyDecision episode now thresholds).1 =
      decideSuspended episode (some episode) now thresholds := by
  rw [recoveryPolicyDecision_fst, decideRecovery_of_suspended hverd hreason]

theorem recoveryPolicyDecision_rung_of_suspended :
    (recoveryPolicyDecision episode now thresholds).2.recoveryRung =
      (decideSuspended episode (some episode) now thresholds).rung := by
  rw [recoveryPolicyDecision_rung, decideRecovery_of_suspended hverd hreason]

/-- A decision about a suspended episode keys its rung state to the span. -/
theorem recoveryPolicyDecision_span_of_suspended :
    (recoveryPolicyDecision episode now thresholds).2.recoverySpanStartedAt =
      episode.stallFrozenSince := by
  unfold recoveryPolicyDecision
  rw [decideRecovery_of_suspended hverd hreason]
  dsimp only
  split_ifs with hsame
  · exact ((sameSpan_self_iff episode).mp (decideSuspended_observe episode now thresholds hsame.1)).2.2
  · rfl

include hfrozen

/-- The loop stores a suspended episode inside its span. -/
theorem recoveryPolicyDecision_parked :
    Parked (recoveryPolicyDecision episode now thresholds).2 := by
  obtain ⟨-, hsver, hsameReason, hsfroz⟩ :=
    recoveryPolicyDecision_frame episode now thresholds
  have hrung : rungResponseWindow ≤
      (decideSuspended episode (some episode) now thresholds).rung := by
    have hspec := decideSuspended_spec episode now thresholds
    generalize decideSuspended episode (some episode) now thresholds = decision at hspec ⊢
    cases hspec with
    | sigcont | insideWindow => exact le_rfl
    | escalatedBefore | pastWindow => exact (by decide : rungResponseWindow ≤ rungEscalated)
  constructor
  · exact hsver.trans hverd
  · exact hsameReason.trans hreason
  · rw [hsfroz]
    exact hfrozen
  · rw [recoveryPolicyDecision_rung_of_suspended hverd hreason]
    exact hrung
  · rw [hsfroz, recoveryPolicyDecision_span_of_suspended hverd hreason]

theorem spanPhase_recoveryPolicyDecision :
    spanPhase (recoveryPolicyDecision episode now thresholds).2 =
      if rungEscalated ≤ (decideSuspended episode (some episode) now thresholds).rung then .raised
      else .opened := by
  have hset : (recoveryPolicyDecision episode now thresholds).2.stallFrozenSince ≠ 0 := by
    rw [(recoveryPolicyDecision_frame episode now thresholds).2.2.2]
    exact Nat.ne_of_gt hfrozen
  rw [spanPhase, if_neg hset, recoveryPolicyDecision_rung_of_suspended hverd hreason]

/-- A span that the rung state does not name is announced. -/
theorem recoveryPolicyDecision_announces (hspan : sameSpan episode (some episode) = false) :
    spanOutput (recoveryPolicyDecision episode now thresholds).1 = .announce ∧
      spanPhase (recoveryPolicyDecision episode now thresholds).2 = .opened := by
  rw [recoveryPolicyDecision_fst_of_suspended hverd hreason, spanPhase_recoveryPolicyDecision hverd hreason hfrozen]
  have hspec := decideSuspended_spec episode now thresholds
  generalize decideSuspended episode (some episode) now thresholds = decision at hspec ⊢
  cases hspec with
  | sigcont => exact ⟨rfl, rfl⟩
  | escalatedBefore _ hsame | insideWindow _ hsame | pastWindow _ hsame => simp [hspan] at hsame

/-- A span that the rung state names is watched, and raised at most once. -/
theorem recoveryPolicyDecision_watches (hspan : sameSpan episode (some episode) = true)
    {sight : Sight} (hsight : sight ≠ .released) :
    SpanStep (spanPhase episode) sight (spanOutput (recoveryPolicyDecision episode now thresholds).1)
      (spanPhase (recoveryPolicyDecision episode now thresholds).2) := by
  rw [recoveryPolicyDecision_fst_of_suspended hverd hreason,
    spanPhase_recoveryPolicyDecision hverd hreason hfrozen, spanPhase,
    if_neg (Nat.ne_of_gt hfrozen)]
  have hspec := decideSuspended_spec episode now thresholds
  generalize decideSuspended episode (some episode) now thresholds = decision at hspec ⊢
  cases hspec with
  | sigcont _ hfresh => simp [hspan] at hfresh
  | escalatedBefore _ _ hrung =>
    rw [if_pos hrung]
    exact .rest hsight
  | insideWindow _ _ hrung =>
    rw [if_neg (not_le.mpr hrung)]
    exact .wait hsight
  | pastWindow _ _ hrung =>
    rw [if_neg (not_le.mpr hrung)]
    exact .raise hsight

end Suspended

/-- A decision about an episode that is not suspended is silent about spans, and an unparked
episode stays so. -/
theorem recoveryPolicyDecision_silent (hverd : episode.verdict ≠ .suspended)
    (hfrozen : episode.stallFrozenSince = 0) (now : ℕ) (thresholds : RecoveryThresholds) :
    spanOutput (recoveryPolicyDecision episode now thresholds).1 = .silent ∧
      Unparked (recoveryPolicyDecision episode now thresholds).2 := by
  refine ⟨?_, .of_spanKeyed (spanKeyed_recoveryPolicyDecision episode now thresholds) ?_⟩
  · rw [recoveryPolicyDecision_fst]
    exact spanOutput_decideRecovery hverd _ now thresholds
  · rw [(recoveryPolicyDecision_frame episode now thresholds).2.2.2]
    exact hfrozen

/-- A tick of a run during a suspension: nothing but the heartbeat speaks about the process, no
channel shows it gone, and the dispatcher is not holding it. -/
structure WaitTick.Suspends (tick : WaitTick) (run : RunId) : Prop where
  ofRun : tick.OfRun run
  sourced : ∀ snapshot ∈ tick.snapshots, snapshot.WellSourced
  alive : ∀ snapshot ∈ tick.snapshots, snapshot.process ≠ .dead
  unretained : tick.retained = false
  clock : 0 < tick.now

/-- What the loop keeps on record about a run: an episode inside a span, or one outside. -/
def Watches (run : RunId) (episode : VitalityEpisode) : Prop :=
  episode.runId = run ∧ (Parked episode ∨ (Unparked episode ∧ episode.verdict ≠ .suspended))

theorem spanPhase_of_unparked (hunp : Unparked episode) : spanPhase episode = .closed :=
  if_pos hunp.frozen

theorem showsDead_eq_false_of_alive (hticks : tick.Suspends run) : showsDead (tick.owned run) = false := by
  rw [showsDead_eq_false_iff]
  intro snap hmem
  exact hticks.alive snap (mem_of_mem_strongReadings hmem).1

section Step

variable {stored : Option VitalityEpisode} {reduced draft : VitalityEpisode} (hticks : tick.Suspends run)
  (hred : Reduces stored tick.toTick run draft reduced)
include hticks hred

/-- A tick that shows the suspension announces a span or watches the one that is open. -/
theorem Reduces.policy_of_held (hshows : showsSuspended (tick.owned run) = true)
    (hopen : Parked (openEpisode stored run tick.now) ∨ Unparked (openEpisode stored run tick.now)) :
    Parked (recoveryPolicyDecision reduced tick.now tick.recovery).2 ∧
      SpanStep (spanPhase (openEpisode stored run tick.now)) .held
        (spanOutput (recoveryPolicyDecision reduced tick.now tick.recovery).1)
        (spanPhase (recoveryPolicyDecision reduced tick.now tick.recovery).2) := by
  obtain ⟨hverd, hstamp, hreason⟩ :=
    hred.parked (showsDead_eq_false_of_alive hticks) hshows
  obtain ⟨hrung, hspan, -⟩ := hred.rungState
  rw [hticks.unretained] at hverd hreason
  have hfrozen : 0 < reduced.stallFrozenSince := by
    rw [hstamp, stampOr]
    have hclock := hticks.clock
    split_ifs <;> omega
  refine ⟨recoveryPolicyDecision_parked hverd hreason hfrozen _ _, ?_⟩
  rcases hopen with hpark | hunp
  · have hsame : reduced.stallFrozenSince =
        (openEpisode stored run tick.now).stallFrozenSince := by
      rw [hstamp, stampOr_of_ne_zero (Nat.ne_of_gt hpark.frozen)]
    have hphase : spanPhase (openEpisode stored run tick.now) = spanPhase reduced := by
      rw [spanPhase, spanPhase, hsame, hrung]
    have hspanned : sameSpan reduced (some reduced) = true := by
      rw [sameSpan_self_iff, hrung, hspan, hsame, ← sameSpan_self_iff]
      exact hpark.sameSpan
    rw [hphase]
    exact recoveryPolicyDecision_watches hverd hreason hfrozen _ _ hspanned (by simp)
  · have hfresh : sameSpan reduced (some reduced) = false := by
      rw [← Bool.not_eq_true, sameSpan_self_iff, hrung, hspan]
      rintro ⟨hsent, hset, -⟩
      exact Nat.ne_of_gt hset (hunp.span hsent)
    obtain ⟨hann, hphase⟩ :=
      recoveryPolicyDecision_announces hverd hreason hfrozen tick.now tick.recovery hfresh
    rw [spanPhase_of_unparked hunp, hann, hphase]
    exact .announce

/-- A tick that looks and does not show the suspension closes the span. -/
theorem Reduces.policy_of_released (hshows : showsSuspended (tick.owned run) = false) :
    Unparked (recoveryPolicyDecision reduced tick.now tick.recovery).2 ∧
      (recoveryPolicyDecision reduced tick.now tick.recovery).2.verdict ≠ .suspended ∧
      spanOutput (recoveryPolicyDecision reduced tick.now tick.recovery).1 = .silent := by
  have hsrc : ∀ snap ∈ (tick.owned run).entries, snap.WellSourced := fun snap hmem ↦
    hticks.sourced snap (mem_of_mem_ownedReadings hmem).1
  obtain ⟨hfrozen, hverd, -⟩ :=
    hred.resumed ((stillSuspended_eq_showsSuspended hsrc).trans hshows)
  obtain ⟨hmute, hunp⟩ :=
    recoveryPolicyDecision_silent hverd hfrozen tick.now tick.recovery
  refine ⟨hunp, ?_, hmute⟩
  rw [(recoveryPolicyDecision_frame reduced tick.now tick.recovery).2.1]
  exact hverd

end Step

/-- One turn of the loop that looks at the run, from an episode inside a span or outside. -/
theorem waitStep_of_readings (stored : Option VitalityEpisode) (hticks : tick.Suspends run)
    (hsnaps : tick.snapshots ≠ [])
    (hopen : Parked (openEpisode stored run tick.now) ∨ Unparked (openEpisode stored run tick.now)) :
    ∃ episode, waitStep stored tick = some episode ∧ Watches run episode ∧
      SpanStep (spanPhase (openEpisode stored run tick.now)) (tick.sight run)
        (waitOutput stored tick) (spanPhase episode) := by
  obtain ⟨_, reduced, hreduce, hred⟩ :=
    exists_reduces_of_ofRun stored hticks.ofRun hsnaps
  have hdisk : reduceStored stored tick.toTick = some reduced :=
    reduceStored_eq_some_iff.mpr hreduce
  have hrunId : (recoveryPolicyDecision reduced tick.now tick.recovery).2.runId = run :=
    (recoveryPolicyDecision_frame reduced tick.now tick.recovery).1.trans hred.runId_eq
  refine ⟨(recoveryPolicyDecision reduced tick.now tick.recovery).2, by simp [waitStep, hdisk], ?_⟩
  have hout : waitOutput stored tick =
      spanOutput (recoveryPolicyDecision reduced tick.now tick.recovery).1 := by
    simp [waitOutput, waitDecision, hdisk]
  rw [hout, Tick.sight, if_neg hsnaps]
  cases hshows : showsSuspended (tick.owned run) with
  | true =>
    obtain ⟨hpark, hstep⟩ := hred.policy_of_held hticks hshows hopen
    exact ⟨⟨hrunId, .inl hpark⟩, hstep⟩
  | false =>
    obtain ⟨hunp, hverd, hmute⟩ := hred.policy_of_released hticks hshows
    refine ⟨⟨hrunId, .inr ⟨hunp, hverd⟩⟩, ?_⟩
    rw [hmute, spanPhase_of_unparked hunp]
    exact .release _

/-- One turn of the loop is a step of a watcher. -/
theorem waitStep_spanStep (hticks : tick.Suspends run) (hwatch : Watches run episode) :
    ∃ next, waitStep (some episode) tick = some next ∧ Watches run next ∧
      SpanStep (spanPhase episode) (tick.sight run) (waitOutput (some episode) tick)
        (spanPhase next) := by
  by_cases hsnaps : tick.snapshots = []
  · have hdisk : reduceStored (some episode) tick.toTick = some episode := by
      simp [reduceStored, reduceVitality, hsnaps]
    have hrunId : (recoveryPolicyDecision episode tick.now tick.recovery).2.runId = run :=
      (recoveryPolicyDecision_frame episode tick.now tick.recovery).1.trans hwatch.1
    have hout : waitOutput (some episode) tick =
        spanOutput (recoveryPolicyDecision episode tick.now tick.recovery).1 := by
      simp [waitOutput, waitDecision, hdisk]
    refine ⟨(recoveryPolicyDecision episode tick.now tick.recovery).2, by simp [waitStep, hdisk], ?_⟩
    rw [hout, Tick.sight, if_pos hsnaps]
    rcases hwatch.2 with hpark | ⟨hunp, hverd⟩
    · refine ⟨⟨hrunId, .inl (recoveryPolicyDecision_parked hpark.verdict hpark.reason hpark.frozen _ _)⟩, ?_⟩
      exact recoveryPolicyDecision_watches hpark.verdict hpark.reason hpark.frozen _ _ hpark.sameSpan (by simp)
    · obtain ⟨hmute, hafter⟩ :=
        recoveryPolicyDecision_silent hverd hunp.frozen tick.now tick.recovery
      refine ⟨⟨hrunId, .inr ⟨hafter, ?_⟩⟩, ?_⟩
      · rw [(recoveryPolicyDecision_frame episode tick.now tick.recovery).2.1]
        exact hverd
      · rw [hmute, spanPhase_of_unparked hunp, spanPhase_of_unparked hafter]
        exact .outside
  · have hopen : openEpisode (some episode) run tick.now = episode := if_pos hwatch.1
    have hstep := waitStep_of_readings (some episode) hticks hsnaps (by rw [hopen]; exact hwatch.2.imp_right And.left)
    rwa [hopen] at hstep

/-- A whole run of the loop is a run of a watcher. -/
theorem emissions_spanRun {ticks : List WaitTick} (hticks : ∀ tick ∈ ticks, tick.Suspends run)
    (hwatch : Watches run episode) :
    SpanRun (spanPhase episode) (ticks.map fun tick ↦ tick.sight run)
      (emissions waitStep waitOutput (some episode) ticks) := by
  induction ticks generalizing episode with
  | nil => exact .nil _
  | cons tick _ ih =>
    obtain ⟨_, hnext, hwatched, hstep⟩ :=
      waitStep_spanStep (hticks tick List.mem_cons_self) hwatch
    rw [List.map_cons, emissions_cons, hnext]
    exact .cons hstep (ih (fun l hlater ↦ hticks l (List.mem_cons_of_mem _ hlater)) hwatched)

/-! ### One SIGCONT per span -/

/-- A decision that escalates a suspension to the operator. -/
def RecoveryDecision.escalatesSuspension (decision : RecoveryDecision) : Bool :=
  match decision.intent, decision.detail with
  | .escalateOperator, .pastWindow _ _ => true
  | _, _ => false

section

variable (stored : Option VitalityEpisode) (ticks : List WaitTick)

/-- How often a run of the loop decides to send SIGCONT. -/
def sigcontsSent : ℕ :=
  (emissions waitStep waitDecision stored ticks).countP fun decision ↦
    decision.any (·.intent = .sigcont)

/-- How often a run of the loop escalates a suspension. -/
def suspensionEscalations : ℕ :=
  (emissions waitStep waitDecision stored ticks).countP fun decision ↦
    decision.any (·.escalatesSuspension)

theorem spanOutput_eq_announce_iff (decision : RecoveryDecision) :
    spanOutput decision = .announce ↔ decision.intent = .sigcont := by
  unfold spanOutput
  split <;> simp_all

theorem spanOutput_eq_raise_iff (decision : RecoveryDecision) :
    spanOutput decision = .raise ↔ decision.escalatesSuspension = true := by
  unfold spanOutput RecoveryDecision.escalatesSuspension
  split <;> split <;> simp_all

/-- Counting decisions is counting what they do for the span. -/
theorem countP_waitDecision {output : SpanOutput} {counted : RecoveryDecision → Bool} (hmute : output ≠ .silent)
    (hcount : ∀ decision, spanOutput decision = output ↔ counted decision = true)
    (stored : Option VitalityEpisode) (ticks : List WaitTick) :
    ((emissions waitStep waitDecision stored ticks).countP fun decision ↦
      decision.any counted) = (emissions waitStep waitOutput stored ticks).count output := by
  have houtputs := emissions_comp waitStep waitDecision
    (fun decision ↦ (decision.map spanOutput).getD .silent) stored ticks
  change _ = List.count _ (emissions waitStep (fun stored tick ↦
    ((waitDecision stored tick).map spanOutput).getD .silent) stored ticks)
  rw [houtputs, List.count, List.countP_map]
  refine List.countP_congr fun decision _ ↦ ?_
  cases decision with
  | none => simp [Ne.symm hmute]
  | some decision => simp [hcount]

theorem sigcontsSent_eq :
    sigcontsSent stored ticks = (emissions waitStep waitOutput stored ticks).count .announce :=
  countP_waitDecision (by simp) (by simp [spanOutput_eq_announce_iff]) stored ticks

theorem suspensionEscalations_eq :
    suspensionEscalations stored ticks = (emissions waitStep waitOutput stored ticks).count .raise :=
  countP_waitDecision (by simp) spanOutput_eq_raise_iff stored ticks

end

/-- Whatever the loop has stored is keyed to its span. -/
theorem spanKeyed_foldl_waitStep {history : List WaitTick}
    (hhist : history.foldl waitStep none = some episode) : SpanKeyed episode := by
  have hrun : EachStep waitStep (fun _ _ ↦ True) none history :=
    .of_forall fun _ _ _ ↦ trivial
  refine EachStep.invariant (fun stored ↦ ∀ episode, stored = some episode → SpanKeyed episode)
    hrun (by simp) ?_ episode hhist
  intro stored _ hdisk _ next hnext
  unfold waitStep at hnext
  split at hnext
  · rw [← Option.some.inj hnext]
    exact spanKeyed_recoveryPolicyDecision _ _ _
  · exact hdisk next hnext

/-- Over a suspension that a tick begins, the loop sends one SIGCONT and escalates once exactly
when no tick shows the suspension after a tick that looked at the head and did not.

Assumes: any history of the loop before, which left the clocks of the run running, and ticks of
one run on which no channel shows the process gone. -/
theorem sigcont_once_iff {history rest : List WaitTick} {first : WaitTick} {run : RunId}
    (hstart : ∀ episode, history.foldl waitStep none = some episode → episode.runId = run →
      episode.stallFrozenSince = 0)
    (hticks : ∀ tick ∈ first :: rest, tick.Suspends run) (hfirst : first.sight run = .held) :
    (sigcontsSent (history.foldl waitStep none) (first :: rest) ≤ 1 ∧
      suspensionEscalations (history.foldl waitStep none) (first :: rest) ≤ 1) ↔
      (first :: rest).Pairwise fun earlier later ↦
        earlier.sight run = .released → later.sight run ≠ .held := by
  have hkeyed : ∀ episode, history.foldl waitStep none = some episode → SpanKeyed episode :=
    fun episode hhist ↦ spanKeyed_foldl_waitStep hhist
  generalize history.foldl waitStep none = stored at hstart hkeyed ⊢
  have hopen : Unparked (openEpisode stored run first.now) := by
    unfold openEpisode
    split
    · next episode =>
      split_ifs with hsame
      · exact .of_spanKeyed (hkeyed episode rfl) (hstart episode rfl hsame)
      · exact ⟨rfl, fun _ ↦ rfl⟩
    · exact ⟨rfl, fun _ ↦ rfl⟩
  have hsnaps : first.snapshots ≠ [] := by
    intro hnil
    simp [Tick.sight, hnil] at hfirst
  obtain ⟨next, hnext, hwatch, hstep⟩ := waitStep_of_readings stored
    (hticks first List.mem_cons_self) hsnaps (.inr hopen)
  have hrun : SpanRun .closed ((first :: rest).map fun tick ↦ tick.sight run)
      (emissions waitStep waitOutput stored (first :: rest)) := by
    rw [spanPhase_of_unparked hopen] at hstep
    rw [List.map_cons, emissions_cons, hnext]
    exact .cons hstep (emissions_spanRun (fun tick hmem ↦ hticks tick (List.mem_cons_of_mem _ hmem)) hwatch)
  have hann := hrun.count_announce
  have herr := hrun.count_raise_le
  have hpairs : (first :: rest).Pairwise (fun earlier later ↦
      earlier.sight run = .released → later.sight run ≠ .held) ↔
      openings false ((first :: rest).map fun tick ↦ tick.sight run) ≤ 1 := by
    rw [List.map_cons, hfirst, openings_held_le_one_iff, ← hfirst, ← List.map_cons
      (f := fun tick : WaitTick ↦ tick.sight run), List.pairwise_map]
  rw [hpairs, sigcontsSent_eq, suspensionEscalations_eq, hann]
  rw [hann] at herr
  simp only [SpanPhase.raisable, SpanPhase.inside] at herr ⊢
  omega

/-- A tick whose heartbeat shows the process on a stop signal. Times are in seconds. -/
def parkedTick (now : ℕ) (retained : Bool) : WaitTick :=
  { snapshots := [.ofHeartbeat sampleRun (seconds now) .suspended]
    now := seconds now
    retained := retained }

/-- A tick whose heartbeat cannot be read. -/
def blindTick (now : ℕ) : WaitTick :=
  { snapshots := [.unavailable sampleRun (seconds now) .pidHeartbeat
      "pid heartbeat is inconclusive: no classification"]
    now := seconds now }

theorem parkedTick_suspends {now : ℕ} (hnow : 0 < now) :
    (parkedTick now false).Suspends sampleRun where
  ofRun := by simp [Tick.OfRun, parkedTick, ofHeartbeat]
  sourced := by simp [parkedTick, ofHeartbeat, VitalitySnapshot.WellSourced]
  alive := by simp [parkedTick, ofHeartbeat]
  unretained := rfl
  clock := Nat.mul_pos hnow (by decide)

theorem blindTick_suspends {now : ℕ} (hnow : 0 < now) : (blindTick now).Suspends sampleRun where
  ofRun := by simp [Tick.OfRun, blindTick, unavailable]
  sourced := by simp [blindTick, unavailable, VitalitySnapshot.WellSourced]
  alive := by simp [blindTick, unavailable]
  unretained := rfl
  clock := Nat.mul_pos hnow (by decide)

theorem sigcont_once_iff_witness :
    sigcontsSent ([].foldl waitStep none) [parkedTick 1000 false, parkedTick 1060 false, parkedTick 1400 false] ≤ 1 ∧
      suspensionEscalations ([].foldl waitStep none) [parkedTick 1000 false,
        parkedTick 1060 false, parkedTick 1400 false] ≤ 1 :=
  (sigcont_once_iff (by simp) (by
    intro tick hmem
    simp only [List.mem_cons, List.not_mem_nil, or_false] at hmem
    rcases hmem with rfl | rfl | rfl <;> exact parkedTick_suspends (by decide))
    (by decide +kernel)).mpr (by decide +kernel)

/-- One suspension, seen at seconds 1000 and 1120 with an unreadable heartbeat between: the loop
sends SIGCONT twice. -/
theorem darkTick_resends_sigcont :
    (∀ tick ∈ [parkedTick 1000 false, blindTick 1060, parkedTick 1120 false], tick.Suspends sampleRun) ∧
      sigcontsSent none [parkedTick 1000 false, blindTick 1060, parkedTick 1120 false] = 2 := by
  refine ⟨?_, by decide +kernel⟩
  intro _ hmem
  simp only [List.mem_cons, List.not_mem_nil, or_false] at hmem
  rcases hmem with rfl | rfl | rfl
  · exact parkedTick_suspends (by decide)
  · exact blindTick_suspends (by decide)
  · exact parkedTick_suspends (by decide)

end Ummanu.Vitality
