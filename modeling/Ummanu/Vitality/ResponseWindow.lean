import Ummanu.Vitality.Suspension

/-!
# The response window of a SIGCONT

A SIGCONT announces a response window that ends a fixed span after the tick that sends it. The
loop checks the window against the freeze stamp of the episode, which is the time of the first
suspended reading of the span. The two agree when the SIGCONT is sent by the tick that starts the
freeze. A retention parks the clocks as well and sends nothing, so a process that was retained and
is found suspended afterwards is sent a SIGCONT under a stamp that is older than it.

`responseWindow_honoured_iff` says that this is the whole story: over every history of the loop and
every continuation of the span, the suspension is escalated only after the announced instant
exactly when the freeze stamp the SIGCONT tick found was unset or not older than that tick.
`retainedThenSuspended_escalates_early` is a run in which the escalation comes 110 seconds after a
SIGCONT that announced a window of 300.
-/

set_option autoImplicit false

namespace Ummanu.Vitality

open Library VitalitySnapshot

variable {episode : VitalityEpisode}

/-- A tick inside a suspension span of a run: it looked at nothing, or shows the suspension. The
process may or may not be retained. -/
def Tick.InSpan (tick : Tick) (run : RunId) : Prop :=
  tick.OfRun run ∧ (tick.snapshots = [] ∨
    (showsDead (ownedReadings run tick.snapshots) = false ∧ showsSuspended (ownedReadings run tick.snapshots) = true))

/-! ### Inside a span the stamp stands -/

/-- The turn of the loop that reduces a stored episode of a run inside its span: the reduced
episode keeps the freeze stamp and the rung state. -/
theorem Tick.InSpan.reduces {tick : Tick} {run : RunId} (hspan : tick.InSpan run)
    (hrun : episode.runId = run) (hice : 0 < episode.stallFrozenSince) :
    ∃ reduced, reduceStored (some episode) tick = some reduced ∧ reduced.runId = run ∧
      reduced.stallFrozenSince = episode.stallFrozenSince ∧
      reduced.recoveryRung = episode.recoveryRung ∧
      reduced.recoverySpanStartedAt = episode.recoverySpanStartedAt := by
  obtain ⟨hof, hnil | ⟨hdead, hsusp⟩⟩ := hspan
  · exact ⟨episode, by simp [reduceStored, reduceVitality, hnil], hrun, rfl, rfl, rfl⟩
  · have hsnaps : tick.snapshots ≠ [] :=
      snapshots_ne_nil_of_strongReadings (strongReadings_ne_nil_of_showsSuspended hsusp)
    obtain ⟨_, reduced, hreduce, hred⟩ :=
      exists_reduces_of_ofRun (some episode) hof hsnaps
    have hopen : openEpisode (some episode) run tick.now = episode := if_pos hrun
    obtain ⟨-, hstamp, -⟩ := hred.parked hdead hsusp
    obtain ⟨hrung, hspanned, -⟩ := hred.rungState
    rw [hopen] at hstamp hrung hspanned
    refine ⟨reduced, reduceStored_eq_some_iff.mpr hreduce, hred.runId_eq, ?_, hrung, hspanned⟩
    rw [hstamp, stampOr_of_ne_zero (Nat.ne_of_gt hice)]

/-- The turns of the loop inside a span keep the freeze stamp. -/
theorem foldl_waitStep_inSpan {ticks : List WaitTick} {run : RunId}
    (hticks : ∀ tick ∈ ticks, tick.InSpan run) (hrun : episode.runId = run)
    (hice : 0 < episode.stallFrozenSince) :
    ∃ last, ticks.foldl waitStep (some episode) = some last ∧ last.runId = run ∧
      last.stallFrozenSince = episode.stallFrozenSince := by
  induction ticks generalizing episode with
  | nil => exact ⟨episode, rfl, hrun, rfl⟩
  | cons tick _ ih =>
    obtain ⟨red, hdisk, hreducedRun, hstamp, -, -⟩ :=
      (hticks tick List.mem_cons_self).reduces hrun hice
    have hframe := recoveryPolicyDecision_frame red tick.now tick.recovery
    have hnext : waitStep (some episode) tick =
        some (recoveryPolicyDecision red tick.now tick.recovery).2 := by
      simp [waitStep, hdisk]
    have hsame := hframe.2.2.2.trans hstamp
    obtain ⟨last, hlast, hlastRun, hlastStamp⟩ := ih (fun l hlater ↦ hticks l (List.mem_cons_of_mem _ hlater))
      (hframe.1.trans hreducedRun) (by rw [hsame]; exact hice)
    exact ⟨last, by rw [List.foldl_cons, hnext, hlast], hlastRun, hlastStamp.trans hsame⟩

/-- Only a suspension that outlasted the window, measured from the freeze stamp, is escalated as
one. -/
theorem window_lt_of_escalatesSuspension {now : ℕ} {thresholds : RecoveryThresholds}
    (hesc : (recoveryPolicyDecision episode now thresholds).1.escalatesSuspension = true) :
    thresholds.responseWindow < now - episode.stallFrozenSince := by
  rw [recoveryPolicyDecision_fst] at hesc
  have hspec := decideRecovery_spec episode (some episode) now thresholds
  generalize decideRecovery (some episode) (some episode) now thresholds = decision at hspec hesc
  cases hspec with
  | retained | suspected | other => simp [RecoveryDecision.escalatesSuspension] at hesc
  | deterministic _ =>
    refine absurd hesc ?_
    unfold decideDeterministic
    dsimp only
    split_ifs <;> simp [RecoveryDecision.escalatesSuspension]
  | suspended =>
    have harm := decideSuspended_spec episode now thresholds
    generalize decideSuspended episode (some episode) now thresholds = decision at harm hesc
    cases harm with
    | sigcont | escalatedBefore | insideWindow =>
      simp [RecoveryDecision.escalatesSuspension] at hesc
    | pastWindow _ _ _ hwin => exact hwin

/-! ### The tick that sends the SIGCONT -/

/-- Only a suspended reading of a living, unretained process reduces to a suspension. -/
theorem Reduces.shows_of_suspended {stored : Option VitalityEpisode} {tick : Tick} {run : RunId}
    {draft episode : VitalityEpisode} (hred : Reduces stored tick run draft episode)
    (hverd : episode.verdict = .suspended) :
    showsDead (tick.owned run) = false ∧
      showsSuspended (tick.owned run) = true ∧ tick.retained = false := by
  have hshows : showsDead (tick.owned run) = false ∧
      showsSuspended (tick.owned run) = true := by
    obtain ⟨_, rfl⟩ := hred.closed
    have hspec := selectArm_spec tick (tick.owned run) draft
    have hconclude := raiseOwedAnswer_verdict tick (concludeArm tick (tick.owned run) draft
      (selectArm tick (tick.owned run) draft))
    have hnot := concludeArm_not_parked tick (tick.owned run) draft (selectArm tick (tick.owned run) draft)
    change (raiseOwedAnswer tick _).verdict = _ at hverd
    cases hsel : selectArm tick (tick.owned run) draft with
    | suspended _ =>
      rw [hsel] at hspec
      cases hspec with
      | suspended _ hdead hsusp => exact ⟨hdead, hsusp⟩
    | _ =>
      rw [hsel] at hnot hconclude hverd
      rcases hconclude with hsame | ⟨-, herr⟩
      · rw [hsame] at hverd
        exact absurd hverd (hnot (by simp)).1
      · rw [herr] at hverd
        simp at hverd
  refine ⟨hshows.1, hshows.2, ?_⟩
  have hparked := (hred.parked hshows.1 hshows.2).1
  rw [hverd] at hparked
  by_contra hret
  simp [hret] at hparked

/-- With a clock that has started, the loop stores a suspended episode only inside its span. -/
theorem parked_foldl_waitStep {history : List WaitTick} (hclock : ∀ tick ∈ history, 0 < tick.now)
    (hhist : history.foldl waitStep none = some episode) (hverd : episode.verdict = .suspended) :
    Parked episode := by
  have hrun : EachStep waitStep (fun _ tick ↦ 0 < tick.now) none history :=
    .of_forall fun tick hmem _ ↦ hclock tick hmem
  refine EachStep.invariant (fun row ↦ ∀ episode, row = some episode →
    episode.verdict = .suspended → Parked episode) hrun (by simp) ?_ episode hhist hverd
  intro row tick hdisk _ next hnext hnverd
  cases hnow : reduceStored row tick.toTick with
  | none =>
    simp only [waitStep, hnow] at hnext
    exact hdisk next hnext hnverd
  | some red =>
    simp only [waitStep, hnow, Option.some.injEq] at hnext
    rw [← hnext, (recoveryPolicyDecision_frame red tick.now tick.recovery).2.1] at hnverd
    rw [← hnext]
    rcases reduceVitality_cases (reduceStored_eq_some_iff.mp hnow) with
      ⟨-, hsame⟩ | ⟨run, draft, hred⟩
    · have hparked := hdisk red hsame hnverd
      exact recoveryPolicyDecision_parked hnverd hparked.reason hparked.frozen _ _
    · obtain ⟨hdead, hsusp, hret⟩ := hred.shows_of_suspended hnverd
      obtain ⟨-, hstamp, hwhy⟩ := hred.parked hdead hsusp
      rw [hret] at hwhy
      refine recoveryPolicyDecision_parked hnverd hwhy ?_ _ _
      rw [hstamp, stampOr]
      split_ifs <;> omega

/-- What a turn that sends a SIGCONT leaves on record: the reduced episode, suspended under the
stamp that the span began with, on the rung of the response window. -/
structure SendsSigcont (stored : Option VitalityEpisode) (tick : WaitTick) (run : RunId)
    (next : VitalityEpisode) : Prop where
  step : waitStep stored tick = some next
  parked : Parked next
  runId : next.runId = run
  stamp : next.stallFrozenSince = stampOr (openEpisode stored run tick.now).stallFrozenSince tick.now
  rung : next.recoveryRung = rungResponseWindow

/-- A decision that announces a window is a SIGCONT, sent by a tick that shows the suspension; the
window ends its length after the tick. -/
theorem sendsSigcont_of_detail {stored : Option VitalityEpisode} {tick : WaitTick} {run : RunId}
    {decision : RecoveryDecision} {span window expires : ℕ}
    (hdisk : ∀ episode, stored = some episode → episode.verdict = .suspended → Parked episode)
    (hclock : 0 < tick.now) (hrun : tick.OfRun run)
    (hdecides : waitDecision stored tick = some decision)
    (hdet : decision.detail = .sigcont span window expires) :
    decision.intent = .sigcont ∧ expires = tick.now + tick.recovery.responseWindow ∧
      ∃ next, SendsSigcont stored tick run next := by
  obtain ⟨red, hnow, rfl⟩ := Option.map_eq_some_iff.mp hdecides
  have hfst := recoveryPolicyDecision_fst red tick.now tick.recovery
  have hspec := decideRecovery_spec red (some red) tick.now tick.recovery
  rw [hfst] at hdet ⊢
  have hsusp : red.verdict = .suspended ∧
      decideRecovery (some red) (some red) tick.now tick.recovery =
        decideSuspended red (some red) tick.now tick.recovery := by
    generalize hdec : decideRecovery (some red) (some red) tick.now tick.recovery = decision at hspec hdet ⊢
    cases hspec with
    | retained | suspected | other => simp at hdet
    | deterministic _ =>
      refine absurd hdet ?_
      unfold decideDeterministic
      dsimp only
      split_ifs <;> simp
    | suspended _ hverd => exact ⟨hverd, rfl⟩
  obtain ⟨hverd, hdecided⟩ := hsusp
  rw [hdecided] at hdet ⊢
  have harm := decideSuspended_spec red tick.now tick.recovery
  have hrung := recoveryPolicyDecision_rung red tick.now tick.recovery
  rw [hdecided] at hrung
  generalize decideSuspended red (some red) tick.now tick.recovery = decision at harm hdet hrung ⊢
  cases harm with
  | escalatedBefore | insideWindow | pastWindow => simp at hdet
  | sigcont _ hfresh =>
    simp only [DecisionDetail.sigcont.injEq] at hdet
    refine ⟨rfl, hdet.2.2.symm, (recoveryPolicyDecision red tick.now tick.recovery).2, ?_⟩
    have hframe := recoveryPolicyDecision_frame red tick.now tick.recovery
    rcases reduceVitality_cases (reduceStored_eq_some_iff.mp hnow) with
      ⟨-, hsame⟩ | ⟨named, draft, hred⟩
    · rw [(hdisk red hsame hverd).sameSpan] at hfresh
      simp at hfresh
    · obtain ⟨snap, hmem, hnamed⟩ := hred.named
      obtain rfl : named = run := hnamed.symm.trans (hrun snap hmem)
      obtain ⟨hdead, hshows, hret⟩ := hred.shows_of_suspended hverd
      obtain ⟨-, hstamp, hwhy⟩ := hred.parked hdead hshows
      rw [hret] at hwhy
      have hice : 0 < red.stallFrozenSince := by
        rw [hstamp, stampOr]
        split_ifs <;> omega
      exact
        { step := by simp [waitStep, hnow]
          parked := recoveryPolicyDecision_parked hverd hwhy hice _ _
          runId := hframe.1.trans hred.runId_eq
          stamp := hframe.2.2.2.trans hstamp
          rung := hrung }

/-! ### The announced window -/

/-- A tick at a given instant that shows the suspension of a run and nothing else. -/
def suspendedAt (run : RunId) (now : ℕ) (recovery : RecoveryThresholds) : WaitTick :=
  { snapshots := [.ofHeartbeat run now .suspended], now := now, recovery := recovery }

theorem suspendedAt_inSpan (run : RunId) (now : ℕ) (recovery : RecoveryThresholds) :
    (suspendedAt run now recovery).InSpan run := by
  refine ⟨by simp [Tick.OfRun, suspendedAt, ofHeartbeat], .inr ?_⟩
  simp [suspendedAt, ownedReadings, latestPerSource, Readings.keep, Readings.get, Readings.empty,
    ofHeartbeat, showsDead, showsSuspended, strongReadings,
    strong, answered, advisory]

/-- A parked episode on the rung of the response window is escalated by a suspended tick past the
window, measured from its freeze stamp. -/
theorem waitDecision_suspendedAt (hpark : Parked episode)
    (hrung : episode.recoveryRung = rungResponseWindow) (now : ℕ) (recovery : RecoveryThresholds)
    (hpast : recovery.responseWindow < now - episode.stallFrozenSince) :
    ∃ decision, waitDecision (some episode) (suspendedAt episode.runId now recovery) =
      some decision ∧ decision.escalatesSuspension = true := by
  obtain ⟨red, hnow, -, hstamp, hrrung, hspan⟩ :=
    (suspendedAt_inSpan episode.runId now recovery).reduces rfl hpark.frozen
  refine ⟨(recoveryPolicyDecision red now recovery).1, ?_, ?_⟩
  · unfold waitDecision
    rw [hnow]
    rfl
  have hsame : sameSpan red (some red) = true := by
    rw [sameSpan_self_iff, hrrung, hspan, hstamp, ← sameSpan_self_iff]
    exact hpark.sameSpan
  have hverd : red.verdict = .suspended ∧ red.reason = suspensionReason false := by
    rcases reduceVitality_cases (reduceStored_eq_some_iff.mp hnow) with
      ⟨hnil, -⟩ | ⟨run, draft, hred⟩
    · simp [suspendedAt] at hnil
    · obtain ⟨snap, hmem, hnamed⟩ := hred.named
      have hrun := (suspendedAt_inSpan episode.runId now recovery).1 snap hmem
      obtain rfl : run = episode.runId := hnamed.symm.trans hrun
      obtain ⟨hdead, hshows⟩ :=
        (suspendedAt_inSpan episode.runId now recovery).2.resolve_left (by simp [suspendedAt])
      obtain ⟨hv, -, hr⟩ := hred.parked hdead hshows
      exact ⟨hv, hr⟩
  rw [recoveryPolicyDecision_fst_of_suspended hverd.1 hverd.2]
  have harm := decideSuspended_spec red now recovery
  generalize decideSuspended red (some red) now recovery = decision at harm ⊢
  cases harm with
  | sigcont _ hfresh => simp [hsame] at hfresh
  | escalatedBefore _ _ hesc =>
    rw [hrrung, hrung] at hesc
    exact absurd hesc (by decide)
  | insideWindow _ _ _ _ =>
    omega
  | pastWindow => rfl

/-- The announced response window is honoured exactly when the SIGCONT tick found no older freeze
stamp: over every history of the loop, every tick that announces a window, and every continuation
of the span under the same recovery thresholds.

Assumes: clocks that have started, and a SIGCONT tick whose readings are of one run. -/
theorem responseWindow_honoured_iff {history : List WaitTick} {tick : WaitTick} {run : RunId}
    {decision : RecoveryDecision} {span window expires : ℕ}
    (hclocks : ∀ earlier ∈ history, 0 < earlier.now) (hclock : 0 < tick.now)
    (hrun : tick.OfRun run)
    (hdecides : waitDecision (history.foldl waitStep none) tick = some decision)
    (hdetail : decision.detail = .sigcont span window expires) :
    (∀ (later : List WaitTick) (last : WaitTick) (escalation : RecoveryDecision),
      (∀ next ∈ later ++ [last], next.InSpan run ∧ next.recovery = tick.recovery) →
      waitDecision (later.foldl waitStep (waitStep (history.foldl waitStep none) tick)) last = some escalation →
      escalation.escalatesSuspension = true → tick.now ≤ last.now → expires < last.now) ↔
      ¬ (0 < (openEpisode (history.foldl waitStep none) run tick.now).stallFrozenSince ∧
        (openEpisode (history.foldl waitStep none) run tick.now).stallFrozenSince < tick.now) := by
  have hdisk : ∀ episode, history.foldl waitStep none = some episode →
      episode.verdict = .suspended → Parked episode :=
    fun episode hhist ↦ parked_foldl_waitStep hclocks hhist
  generalize history.foldl waitStep none = stored at hdisk hdecides ⊢
  obtain ⟨-, rfl, _, hsends⟩ :=
    sendsSigcont_of_detail hdisk hclock hrun hdecides hdetail
  have hstamp := hsends.stamp
  rw [hsends.step]
  generalize (openEpisode stored run tick.now).stallFrozenSince = found at hstamp ⊢
  constructor
  · rintro hhonoured ⟨hset, _⟩
    rw [stampOr_of_ne_zero (Nat.ne_of_gt hset)] at hstamp
    obtain ⟨escalation, hdec, hesc⟩ := waitDecision_suspendedAt hsends.parked
      hsends.rung (tick.now + tick.recovery.responseWindow) tick.recovery (by omega)
    rw [hsends.runId] at hdec
    have hlate := hhonoured [] (suspendedAt run (tick.now + tick.recovery.responseWindow) tick.recovery) escalation
      (by simpa [suspendedAt] using suspendedAt_inSpan run _ tick.recovery)
      hdec hesc (Nat.le_add_right _ _)
    exact absurd hlate (lt_irrefl _)
  · intro _ _ last escalation hspan hdec hesc _
    obtain ⟨_, hfold, hstandsRun, hstand⟩ := foldl_waitStep_inSpan
      (fun tick hmem ↦ (hspan tick (List.mem_append_left _ hmem)).1) hsends.runId
      hsends.parked.frozen
    obtain ⟨hlastSpan, hlastRecovery⟩ := hspan last (by simp)
    obtain ⟨_, hnow, -, hreducedStamp, -, -⟩ :=
      hlastSpan.reduces hstandsRun (by rw [hstand]; exact hsends.parked.frozen)
    rw [hfold] at hdec
    simp only [waitDecision, hnow, Option.map_some, Option.some.injEq] at hdec
    rw [← hdec] at hesc
    have hpast := window_lt_of_escalatesSuspension hesc
    rw [hreducedStamp, hstand, hstamp, hlastRecovery, stampOr] at hpast
    split_ifs at hpast <;> omega

theorem parkedTick_inSpan (now : ℕ) (retained : Bool) :
    (parkedTick now retained).InSpan sampleRun :=
  suspendedAt_inSpan sampleRun (seconds now) defaultRecoveryThresholds

/-- The SIGCONT of a suspension that begins at second 1000. -/
def firstSigcont : RecoveryDecision :=
  (waitDecision ([].foldl waitStep none) (parkedTick 1000 false)).get (by decide +kernel)

/-- The escalation of that suspension at second 1310. -/
def firstEscalation : RecoveryDecision :=
  (waitDecision ([].foldl waitStep (waitStep ([].foldl waitStep none) (parkedTick 1000 false)))
    (parkedTick 1310 false)).get (by decide +kernel)

theorem responseWindow_honoured_iff_witness :
    firstSigcont.detail = .sigcont (seconds 1000) (seconds 300) (seconds 1300) ∧
      firstEscalation.escalatesSuspension = true ∧ seconds 1300 < (parkedTick 1310 false).now := by
  have hdet : firstSigcont.detail = .sigcont (seconds 1000) (seconds 300) (seconds 1300) := by
    decide +kernel
  have hesc : firstEscalation.escalatesSuspension = true := by decide +kernel
  have hspan : ∀ next ∈ [] ++ [parkedTick 1310 false],
      next.InSpan sampleRun ∧ next.recovery = (parkedTick 1000 false).recovery := by
    intro next hnext
    obtain rfl : next = parkedTick 1310 false := by simpa using hnext
    exact ⟨parkedTick_inSpan 1310 false, rfl⟩
  refine ⟨hdet, hesc, ?_⟩
  exact (responseWindow_honoured_iff (by simp) (by decide) (parkedTick_inSpan 1000 false).1
    (Option.some_get _).symm hdet).mpr (by decide +kernel) [] (parkedTick 1310 false)
    firstEscalation hspan (Option.some_get _).symm hesc (by decide)

/-- A process retained at second 1000 and found suspended at second 1200 is sent a SIGCONT that
announces a window until second 1500, and is escalated at second 1310. -/
theorem retainedThenSuspended_escalates_early :
    (waitDecision ([parkedTick 1000 true].foldl waitStep none) (parkedTick 1200 false)).map
        (·.detail) = some (.sigcont (seconds 1000) (seconds 300) (seconds 1500)) ∧
      (parkedTick 1310 false).InSpan sampleRun ∧
      (waitDecision ([parkedTick 1000 true, parkedTick 1200 false].foldl waitStep none)
        (parkedTick 1310 false)).any (·.escalatesSuspension) = true :=
  ⟨by decide +kernel, parkedTick_inSpan 1310 false, by decide +kernel⟩

end Ummanu.Vitality
