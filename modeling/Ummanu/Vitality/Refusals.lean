import Ummanu.Vitality.Suspension

/-!
# Counting deterministic refusals

A launch that is refused for a reason no retry can change is escalated once the same refusal has
been seen a few times. The policy counts sightings of such a reason on the reduced episode, and
the reason of an episode is carried from tick to tick: some arms of the reducer overwrite it, one
clears it, and the others leave what they found.

The words that the reducer itself puts together name no refusal (`Wording`), so a reason that does
is the diagnostic of a channel of this tick, or was left by an arm that writes none
(`Reduces.refusal_origin`). `keepsReason` names those arms: death, blindness, and quiet below the
suspicion threshold. In every run without a tick that leaves an old refusal in place without
refusing anything itself, the count is sound: `refusals_counted_once`.
`answeredSource_escalates` is a run in which one refusal, followed by two answers of the source,
is escalated as three.
-/

set_option autoImplicit false

namespace Ummanu.Vitality

open Library

variable {stored : Option VitalityEpisode}

/-! ### The reducer's own words -/

/-- The separators in the names the reducer's words contain: a channel and the verdicts. -/
def ownSeparator (left right : Char) : Prop :=
  (left, right) ∈ [('r', 'c'), ('d', 's'), ('y', 'a'), ('y', 'q')]

/-- A text put together from words that carry no other separator. -/
def Wording (text : String) : Prop := Composable '_' ownSeparator text.toList

theorem Wording.append {first second : String} (hfst : Wording first)
    (hsnd : Wording second) : Wording (first ++ second) := by
  unfold Wording
  rw [String.toList_append]
  exact Composable.append hfst hsnd

theorem wording_of_not_mem {text : String} (hmark : '_' ∉ text.toList) : Wording text :=
  Composable.of_not_mem hmark

theorem Wording.word {text word : String} (htext : Wording text) (hmark : '_' ∉ word.toList) :
    Wording (text ++ word) :=
  htext.append (wording_of_not_mem hmark)

theorem wording_secondsText (span : ℕ) : Wording (secondsText span) :=
  (wording_of_not_mem (underscore_not_mem_digits _)).word (by decide)

theorem wording_progressSource : Wording progressSource.value where
  within := by
    intro _ _ hwin
    simp only [progressSource, SnapshotSource.value] at hwin
    simp [List.infix_cons_iff] at hwin
    simp [ownSeparator, hwin]
  head := by decide
  last := by decide

theorem wording_verdict (verdict : VitalityVerdict) : Wording verdict.value := by
  cases verdict with
  | suspended | retained | dead | unverifiable => exact wording_of_not_mem (by decide)
  | healthyActive | healthyQuiet | suspectedStall | confirmedStall =>
    refine ⟨?_, by decide, by decide⟩
    intro _ _ hwin
    simp [VitalityVerdict.value, List.infix_cons_iff] at hwin
    simp [ownSeparator, hwin]

/-- A text of the reducer's own words names no deterministic refusal. -/
theorem deterministicReasonClass_clip {text : String} (hwording : Wording text) :
    deterministicReasonClass (BoundedText.clip reasonLimit text).text = none := by
  have hclip : SeparatorsWithin '_' ownSeparator (BoundedText.clip reasonLimit text).text.toList :=
    .of_isInfix (BoundedText.toList_clip_isInfix text) hwording.within
  rw [deterministicReasonClass, Option.map_eq_none_iff, List.find?_eq_none]
  intro e hent
  have hmentions : ¬ Mentions e.1 (BoundedText.clip reasonLimit text).text := by
    simp only [deterministicTerminalReasons, List.mem_cons, List.not_mem_nil, or_false] at hent
    rcases hent with rfl | rfl | rfl | rfl | rfl
    · exact not_infix_of_separatorsWithin 'l' 's' hclip (by decide) (by simp [ownSeparator])
    · exact not_infix_of_separatorsWithin 'l' 's' hclip (by decide) (by simp [ownSeparator])
    · exact not_infix_of_separatorsWithin 'd' 'e' hclip (by decide) (by simp [ownSeparator])
    · exact not_infix_of_separatorsWithin 'n' 'r' hclip (by decide) (by simp [ownSeparator])
    · exact not_infix_of_separatorsWithin 'e' 'e' hclip (by decide) (by simp [ownSeparator])
  simpa using hmentions

theorem wording_idleTurnReason (verdict : VitalityVerdict) (idle : ℕ) (stands : Bool) :
    Wording (idleTurnReason verdict idle stands) := by
  have hsat : Wording ("the head's turn ended and it has sat at its prompt for " ++
      secondsText idle ++ " without answering the dispatcher") :=
    ((wording_of_not_mem (by decide)).append (wording_secondsText idle)).word (by decide)
  cases stands with
  | false => exact hsat
  | true => exact ((wording_verdict verdict).word (by decide)).append hsat

theorem wording_childHoldReason (thresholds : VitalityThresholds) (claim : ChildClaim) :
    Wording (childHoldReason thresholds claim) :=
  ((((wording_of_not_mem (by decide)).append (wording_secondsText _)).word (by decide)).append
    (wording_secondsText _)).word (by decide)

theorem wording_quietReason (quiet : ℕ) : Wording (quietReason quiet) :=
  ((wording_of_not_mem (by decide)).append (wording_secondsText quiet)).word (by decide)

theorem wording_phaseStandsReason (dark : Option ℕ) {phase : String} (hphase : Wording phase) :
    Wording (phaseStandsReason dark phase) := by
  cases dark with
  | none => exact ((wording_of_not_mem (by decide)).append hphase).word (by decide)
  | some span =>
    exact ((((wording_progressSource.word (by decide)).append (wording_secondsText span)).word
      (by decide)).append hphase).word (by decide)

theorem wording_frozenReason (tick : Tick) (dark : ℕ) : Wording (frozenReason tick dark) :=
  (((wording_progressSource.word (by decide)).append (wording_secondsText dark)).word
    (by decide)).append (wording_secondsText _)

theorem wording_agedReason (tick : Tick) (dark : Option ℕ) (quiet : ℕ) :
    Wording (agedReason tick dark quiet) := by
  cases dark with
  | none => exact (wording_of_not_mem (by decide)).append (wording_secondsText quiet)
  | some span =>
    exact (((((wording_progressSource.word (by decide)).append (wording_secondsText span)).word
      (by decide)).append (wording_secondsText _)).word (by decide)).append (wording_secondsText quiet)

theorem wording_unansweredReason (tick : Tick) : Wording (unansweredReason tick) :=
  ((wording_of_not_mem (by decide)).append (wording_secondsText _)).word (by decide)

/-! ### Where the reason of an episode comes from -/

/-- Quiet below the suspicion threshold, which no unanswered question raises. -/
def belowSuspicion (tick : Tick) (episode : VitalityEpisode) : Bool :=
  tick.now - quietReference episode < tick.thresholds.suspectAfter && !answerUnanswered tick episode

/-- The arms that write no reason: death, blindness, and quiet below the suspicion threshold that
neither a held phase nor a dark window explains. -/
def keepsReason (tick : Tick) (episode : VitalityEpisode) : Arm → Bool
  | .dead _ | .allDark => true
  | .providerQuiet _ => belowSuspicion tick episode
  | .noProgressSource _ => episode.verdict ≠ .confirmedStall &&
      !withinDarkCeiling tick episode && belowSuspicion tick episode
  | _ => false

/-- Where a reason comes from: the reducer's own words, the diagnostic of a dark channel, or the
episode it was found on. -/
inductive ReasonOrigin (owned : Readings) (found : BoundedText reasonLimit) (keeps : Prop) :
    BoundedText reasonLimit → Prop
  | own (text : String) (hwording : Wording text) : ReasonOrigin owned found keeps (.clip _ text)
  | blank : ReasonOrigin owned found keeps .blank
  | diagnostic (reason : BoundedText reasonLimit) (hdark : darkDiagnostic owned = some reason) :
      ReasonOrigin owned found keeps reason
  | found (hkeeps : keeps) : ReasonOrigin owned found keeps found

theorem climbQuiet_reason (thresholds : VitalityThresholds) (owned : Readings)
    (episode : VitalityEpisode) (reference quiet : ℕ) {reason : String} (hwhy : Wording reason)
    (tokens : List String) :
    ReasonOrigin owned episode.reason (quiet < thresholds.suspectAfter)
      (climbQuiet thresholds episode reference quiet reason tokens).episode.reason := by
  unfold climbQuiet
  split_ifs with hconf hsuspect
  · exact .own _ hwhy
  · exact .own _ hwhy
  · exact .found (not_le.mp hsuspect)

theorem ReasonOrigin.imp {owned : Readings} {found reason : BoundedText reasonLimit}
    {keeps keeps' : Prop} (horig : ReasonOrigin owned found keeps reason)
    (himp : keeps → keeps') : ReasonOrigin owned found keeps' reason := by
  cases horig with
  | own text hwording => exact .own text hwording
  | blank => exact .blank
  | diagnostic reason hdark => exact .diagnostic reason hdark
  | found hkeeps => exact .found (himp hkeeps)

section

variable (tick : Tick) (owned : Readings) (episode : VitalityEpisode) (arm : Arm)

theorem providerQuietArm_reason (latest : VitalitySnapshot) :
    ReasonOrigin owned episode.reason (tick.now - quietReference episode < tick.thresholds.suspectAfter)
      (providerQuietArm tick episode latest).episode.reason := by
  have hclimb := climbQuiet_reason tick.thresholds owned
    { episode with
      stallFrozenSince := 0
      confirmedSince := if episode.verdict = .confirmedStall then
          stampOr episode.confirmedSince (quietReference episode + tick.thresholds.confirmQuiet)
        else episode.confirmedSince }
    (quietReference episode) (tick.now - quietReference episode)
    (wording_quietReason (tick.now - quietReference episode))
  exact hclimb _

theorem noProgressSourceArm_reason (sources : List SnapshotSource) :
    ReasonOrigin owned episode.reason
      (episode.verdict ≠ .confirmedStall ∧ withinDarkCeiling tick episode = false ∧
        tick.now - quietReference episode < tick.thresholds.suspectAfter)
      (noProgressSourceArm tick owned episode sources).episode.reason := by
  unfold noProgressSourceArm
  dsimp only
  split_ifs with hconf hwin hsusp
  · exact .own _ (wording_phaseStandsReason _ (wording_of_not_mem (by decide)))
  · exact .own _ (wording_phaseStandsReason _ (wording_of_not_mem (by decide)))
  · cases hdark : darkDiagnostic owned with
    | none => exact .own _ (wording_frozenReason tick _)
    | some reason => exact .diagnostic reason hdark
  · refine (climbQuiet_reason tick.thresholds owned { episode with stallFrozenSince := 0 } _ _
      (wording_agedReason tick _ _) _).imp fun hquiet ↦ ⟨hconf, ?_, hquiet⟩
    exact Bool.eq_false_of_not_eq_true hwin

theorem levelAfter_confirmQuiet_eq_zero {thresholds : VitalityThresholds} {quiet : ℕ}
    (hquiet : quiet < thresholds.suspectAfter) :
    levelAfter thresholds.suspectAfter thresholds.confirmQuiet quiet = 0 := by
  have hconf : ¬ thresholds.confirmQuiet ≤ quiet := by
    rw [VitalityThresholds.confirmQuiet]
    omega
  rw [levelAfter, if_neg hconf, if_neg (not_le.mpr hquiet)]

/-- What an arm and the owed answer leave as the reason. -/
theorem raiseOwedAnswer_concludeArm_reason :
    ReasonOrigin owned episode.reason (keepsReason tick episode arm = true)
      (raiseOwedAnswer tick (concludeArm tick owned episode arm)).episode.reason := by
  by_cases hrai : (concludeArm tick owned episode arm).verdict = .healthyQuiet ∧
      answerUnanswered tick (concludeArm tick owned episode arm).episode
  · rw [raiseOwedAnswer, if_pos hrai]
    exact .own _ (wording_unansweredReason tick)
  · rw [raiseOwedAnswer, if_neg hrai]
    cases arm with
    | dead sources => exact .found rfl
    | suspended _ =>
      refine .own _ ?_
      split_ifs <;> exact wording_of_not_mem (by decide)
    | advancing last => exact .blank
    | idleTurn _ => exact .own _ (wording_idleTurnReason _ _ _)
    | childHold _ => exact .own _ (wording_childHoldReason _ _)
    | providerQuiet last =>
      rw [answerUnanswered_concludeArm tick owned episode (by simp) (by simp), concludeArm,
        providerQuietArm_verdict] at hrai
      refine (providerQuietArm_reason tick owned episode last).imp fun hquiet ↦ ?_
      rw [levelAfter_confirmQuiet_eq_zero hquiet] at hrai
      simpa [keepsReason, belowSuspicion, hquiet, ladderVerdict] using hrai
    | noProgressSource sources =>
      rw [answerUnanswered_concludeArm tick owned episode (by simp) (by simp), concludeArm,
        noProgressSourceArm_verdict] at hrai
      refine (noProgressSourceArm_reason tick owned episode sources).imp ?_
      rintro ⟨hconf, hwin, hquiet⟩
      rw [if_neg hconf, hwin, if_neg Bool.false_ne_true, levelAfter_confirmQuiet_eq_zero hquiet] at hrai
      simpa [keepsReason, belowSuspicion, hconf, hwin, hquiet, ladderVerdict] using hrai
    | allDark =>
      simp only [concludeArm, allDarkArm]
      split_ifs <;> exact .found rfl

end

/-! ### A refusal on record -/

/-- A text that names a refusal no retry can change. -/
def namesRefusal (reason : BoundedText reasonLimit) : Bool :=
  (deterministicReasonClass reason.text).isSome

theorem namesRefusal_blank : namesRefusal .blank = false := by decide

/-- A tick carries a refusal of a run: a channel that did not answer, with such a reason. -/
def Tick.refuses (tick : Tick) (run : RunId) : Bool :=
  tick.snapshots.any fun snapshot ↦
    snapshot.runId = run && !snapshot.answered && namesRefusal snapshot.reason

/-- A tick leaves the reason of a stored episode as it is: it looked at nothing, or it speaks about
the run and an arm that writes no reason decides. -/
def leavesReason (tick : Tick) (episode : VitalityEpisode) : Bool :=
  let owned := ownedReadings episode.runId tick.snapshots
  let draft := recordedEpisode tick owned episode
  tick.snapshots.isEmpty ||
    (tick.snapshots.any (·.runId = episode.runId) && keepsReason tick draft (selectArm tick owned draft))

/-- A stale refusal: the stored reason names a refusal, the tick refuses nothing, and leaves it. -/
def staleRefusal (stored : Option VitalityEpisode) (tick : Tick) : Bool :=
  stored.any fun episode ↦
    namesRefusal episode.reason && !tick.refuses episode.runId && leavesReason tick episode

theorem refuses_of_darkDiagnostic {tick : Tick} {run : RunId} {reason : BoundedText reasonLimit}
    (hdark : darkDiagnostic (tick.owned run) = some reason)
    (hnames : namesRefusal reason = true) : tick.refuses run = true := by
  obtain ⟨snap, hfind, rfl⟩ := Option.map_eq_some_iff.mp hdark
  have hentry := Readings.mem_sortedEntries.mp (List.mem_of_find?_eq_some hfind)
  obtain ⟨hmem, hrun⟩ := mem_of_mem_ownedReadings hentry
  have hunans := List.find?_some hfind
  simp only [Bool.and_eq_true, Bool.not_eq_true'] at hunans
  refine List.any_eq_true.mpr ⟨snap, hmem, ?_⟩
  simp [hrun, hunans.1, hnames]

/-- A reduced episode whose reason names a refusal: the tick refused, or it left the reason of the
episode it continued. -/
theorem Reduces.refusal_origin {tick : Tick} {run : RunId} {draft episode : VitalityEpisode}
    (hred : Reduces stored tick run draft episode) (hnames : namesRefusal episode.reason = true) :
    tick.refuses run = true ∨ (namesRefusal (openEpisode stored run tick.now).reason = true ∧
      keepsReason tick draft (selectArm tick (tick.owned run) draft) = true) := by
  have hfnd : draft.reason = (openEpisode stored run tick.now).reason := by
    rw [hred.recorded.reason]
    unfold unfreezeIfResumed
    split_ifs <;> rfl
  obtain ⟨_, rfl⟩ := hred.closed
  have horigin := raiseOwedAnswer_concludeArm_reason tick (tick.owned run) draft
    (selectArm tick (tick.owned run) draft)
  rw [hfnd] at horigin
  change namesRefusal (if (concludeReadings tick (tick.owned run)
    draft).episode.reason.isPresent then (concludeReadings tick
      (tick.owned run) draft).episode.reason else _) = true at hnames
  split_ifs at hnames with hpres
  · change ReasonOrigin _ _ _ (concludeReadings tick (tick.owned run) draft).episode.reason at horigin
    generalize (concludeReadings tick (tick.owned run) draft).episode.reason = reason at horigin hnames hpres
    cases horigin with
    | own _ hwording =>
      rw [namesRefusal, deterministicReasonClass_clip hwording] at hnames
      simp at hnames
    | blank => simp at hpres
    | diagnostic reason hdark => exact .inl (refuses_of_darkDiagnostic hdark hnames)
    | found hkeeps => exact .inr ⟨hnames, hkeeps⟩
  · cases hdark : darkDiagnostic (tick.owned run) with
    | none =>
      rw [hdark] at hnames
      exact absurd (namesRefusal_blank.symm.trans hnames) Bool.false_ne_true
    | some reason =>
      rw [hdark] at hnames
      exact .inl (refuses_of_darkDiagnostic hdark hnames)

/-! ### The count -/

section Policy

variable (episode : VitalityEpisode) (now : ℕ) (thresholds : RecoveryThresholds)

theorem decideSuspended_refusals :
    (decideSuspended episode (some episode) now thresholds).refusals =
      episode.deterministicRefusals := by
  have harm := decideSuspended_spec episode now thresholds
  generalize decideSuspended episode (some episode) now thresholds = decision at harm ⊢
  cases harm <;> rfl

/-- A decision counts one refusal more than was stored, and only when the reason names one. -/
theorem decideRecovery_refusals_le :
    (decideRecovery (some episode) (some episode) now thresholds).refusals ≤
      episode.deterministicRefusals + if namesRefusal episode.reason then 1 else 0 := by
  have hspec := decideRecovery_spec episode (some episode) now thresholds
  generalize decideRecovery (some episode) (some episode) now thresholds = decision at hspec ⊢
  cases hspec with
  | retained | other => exact Nat.zero_le _
  | deterministic _ _ hclass =>
    have hnames : namesRefusal episode.reason = true := by
      rw [namesRefusal, hclass]
      rfl
    rw [decideDeterministic_refusals, if_pos hnames]
  | suspected => exact Nat.le_add_right _ _
  | suspended =>
    rw [decideSuspended_refusals]
    exact Nat.le_add_right _ _

theorem recoveryPolicyDecision_refusals :
    (recoveryPolicyDecision episode now thresholds).2.deterministicRefusals =
      (decideRecovery (some episode) (some episode) now thresholds).refusals := by
  unfold recoveryPolicyDecision
  dsimp only
  split_ifs with hsame
  · exact hsame.2.2
  · rfl

end Policy

/-- What a turn of the loop has counted for the run of an episode is covered by the ticks that
refused. -/
def Covered (stored : Option VitalityEpisode) (taken : List WaitTick) : Prop :=
  ∀ episode, stored = some episode → episode.deterministicRefusals ≤ taken.countP (·.refuses episode.runId)

/-- A reduction without a stale refusal: its count so far is covered, and a reason that names a
refusal was refused by the tick. -/
theorem covered_reduceStored {taken : List WaitTick} {tick : WaitTick} {reduced : VitalityEpisode}
    (hcov : Covered stored taken) (hfresh : staleRefusal stored tick.toTick = false)
    (hreduced : reduceStored stored tick.toTick = some reduced) :
    reduced.deterministicRefusals ≤ taken.countP (·.refuses reduced.runId) ∧
      (namesRefusal reduced.reason = true → tick.refuses reduced.runId = true) := by
  rcases reduceVitality_cases (reduceStored_eq_some_iff.mp hreduced) with
    ⟨hnil, rfl⟩ | ⟨run, draft, hred⟩
  · refine ⟨hcov reduced rfl, fun hnames ↦ ?_⟩
    by_contra hdeny
    simp [staleRefusal, leavesReason, hnil, hnames, hdeny] at hfresh
  · have hdenied := hred.rungState.2.2
    have hreason := hred.refusal_origin
    have hdraft := hred.drafted
    rw [hred.runId_eq, hdenied]
    rcases stored with _ | episode
    · refine ⟨Nat.zero_le _, fun hnames ↦ (hreason hnames).resolve_right fun hkept ↦ ?_⟩
      exact Bool.false_ne_true (namesRefusal_blank.symm.trans hkept.1)
    · by_cases hsame : episode.runId = run
      · subst hsame
        have hopen : openEpisode (some episode) episode.runId tick.now = episode := if_pos rfl
        rw [hopen] at hreason hdraft ⊢
        refine ⟨hcov episode rfl, fun hnames ↦ ?_⟩
        rcases hreason hnames with hdeny | ⟨hfnd, hkeeps⟩
        · exact hdeny
        · by_contra hdeny
          obtain ⟨snap, hmem, hrun⟩ := hred.named
          have hnamed : tick.snapshots.any (·.runId = episode.runId) = true :=
            List.any_eq_true.mpr ⟨snap, hmem, by simpa using hrun⟩
          rw [hdraft] at hkeeps
          simp [staleRefusal, leavesReason, hfnd, hdeny, hnamed, hkeeps] at hfresh
      · have hopen : openEpisode (some episode) run tick.now =
          { runId := run, startedAt := tick.now, updatedAt := tick.now } := if_neg hsame
        rw [hopen] at hreason ⊢
        refine ⟨Nat.zero_le _, fun hnames ↦ (hreason hnames).resolve_right fun hkept ↦ ?_⟩
        exact Bool.false_ne_true (namesRefusal_blank.symm.trans hkept.1)

/-- One turn of the loop without a stale refusal keeps the count covered. -/
theorem covered_waitStep {taken : List WaitTick} {tick : WaitTick} (hcov : Covered stored taken)
    (hfresh : staleRefusal stored tick.toTick = false) :
    Covered (waitStep stored tick) (taken ++ [tick]) := by
  intro next hnext
  cases hred : reduceStored stored tick.toTick with
  | none =>
    simp only [waitStep, hred] at hnext
    have hcount := hcov next hnext
    rw [List.countP_append]
    exact hcount.trans (Nat.le_add_right _ _)
  | some red =>
    simp only [waitStep, hred, Option.some.injEq] at hnext
    obtain ⟨hcount, hdeny⟩ := covered_reduceStored hcov hfresh hred
    rw [← hnext, (recoveryPolicyDecision_frame red tick.now tick.recovery).1,
      recoveryPolicyDecision_refusals, List.countP_append]
    refine (decideRecovery_refusals_le red tick.now tick.recovery).trans (Nat.add_le_add hcount ?_)
    split_ifs with hnames
    · simp [hdeny hnames]
    · exact Nat.zero_le _

/-- Refusals are counted once each. In every run of the loop no tick of which leaves a stale
refusal in place, a tick that escalates a deterministic refusal comes after as many ticks that
refused, itself included, as the limit asks for.

Assumes: no tick of the run both finds a refusal on record and leaves it there without refusing
anything itself. -/
theorem refusals_counted_once {ticks : List WaitTick} {tick : WaitTick}
    {decision : RecoveryDecision} {cls : DeterministicReasonClass} {identicalRefusals limit : ℕ}
    {reduced : VitalityEpisode}
    (hfresh : EachStep waitStep (fun stored tick ↦ staleRefusal stored tick.toTick = false) none (ticks ++ [tick]))
    (hreduced : reduceStored (ticks.foldl waitStep none) tick.toTick = some reduced)
    (hdecides : waitDecision (ticks.foldl waitStep none) tick = some decision)
    (hdetail : decision.detail = .deterministic cls identicalRefusals limit)
    (hescalates : decision.intent = .escalateOperator) :
    tick.recovery.deterministicRefusalLimit ≤
      (ticks ++ [tick]).countP (·.refuses reduced.runId) := by
  rw [eachStep_append] at hfresh
  have hcov : Covered (ticks.foldl waitStep none) ticks :=
    EachStep.history_invariant Covered hfresh.1 (by simp [Covered])
      fun _ _ tick hcov hstep ↦ covered_waitStep hcov hstep
  obtain ⟨hcount, hdeny⟩ := covered_reduceStored hcov hfresh.2.1 hreduced
  simp only [waitDecision, hreduced, Option.map_some, Option.some.injEq] at hdecides
  rw [recoveryPolicyDecision_fst] at hdecides
  have hspec := decideRecovery_spec reduced (some reduced) tick.now tick.recovery
  rw [hdecides] at hspec
  cases hspec with
  | retained | suspected | other => simp at hdetail
  | suspended =>
    have harm := decideSuspended_spec reduced tick.now tick.recovery
    generalize decideSuspended reduced (some reduced) tick.now tick.recovery = decision at harm hdetail
    cases harm <;> simp at hdetail
  | deterministic _ _ hclass =>
    have hnames : namesRefusal reduced.reason = true := by
      rw [namesRefusal, hclass]
      rfl
    have hlimit : tick.recovery.deterministicRefusalLimit ≤ reduced.deterministicRefusals + 1 := by
      unfold decideDeterministic at hescalates
      dsimp only [Option.map_some, Option.getD_some] at hescalates
      rw [Nat.max_self] at hescalates
      by_contra hlow
      rw [if_neg hlow] at hescalates
      simp at hescalates
    rw [List.countP_append]
    refine hlimit.trans (Nat.add_le_add hcount ?_)
    simp [hdeny hnames]

/-! ### Fixed runs -/

/-- A live process whose provider was refused. Times are in seconds. -/
def refusedTick (now : ℕ) : WaitTick :=
  { snapshots :=
      [.ofHeartbeat sampleRun (seconds now) .running,
        .unavailable sampleRun (seconds now) .providerCursor "launch refused: authentication_rejected"]
    now := seconds now }

/-- A live process whose provider answers that nothing moved. -/
def answeredTick (now : ℕ) : WaitTick :=
  { snapshots :=
      [.ofHeartbeat sampleRun (seconds now) .running, .ofProvider sampleRun (seconds now) .quiet (.clip _ "cursor-1")]
    now := seconds now }

/-- The record after refusals at seconds 1000, 1060 and 1120, before the policy sees the last. -/
def refusedThrice : VitalityEpisode :=
  (reduceStored ([refusedTick 1000, refusedTick 1060].foldl waitStep none)
    (refusedTick 1120).toTick).get (by decide +kernel)

/-- What the loop decides then. -/
def thirdRefusal : RecoveryDecision :=
  (waitDecision ([refusedTick 1000, refusedTick 1060].foldl waitStep none) (refusedTick 1120)).get (by decide +kernel)

theorem refusals_counted_once_witness :
    thirdRefusal.intent = .escalateOperator ∧
      3 ≤ ([refusedTick 1000, refusedTick 1060] ++ [refusedTick 1120]).countP
        (·.refuses refusedThrice.runId) := by
  have hesc : thirdRefusal.intent = .escalateOperator := by decide +kernel
  have hdet : thirdRefusal.detail = .deterministic .authenticationRejected 3 3 := by
    decide +kernel
  exact ⟨hesc, refusals_counted_once (by decide +kernel) (Option.some_get _).symm (Option.some_get _).symm hdet hesc⟩

/-- One refusal at second 1000, and answers at seconds 1060 and 1120: the loop escalates a
refusal that was repeated three times. -/
theorem answeredSource_escalates :
    (waitDecision ([refusedTick 1000, answeredTick 1060].foldl waitStep none)
        (answeredTick 1120)).map (fun decision ↦ (decision.intent, decision.detail)) =
      some (.escalateOperator, .deterministic .authenticationRejected 3 3) ∧
    ([refusedTick 1000, answeredTick 1060] ++ [answeredTick 1120]).countP
      (·.refuses sampleRun) = 1 := by
  constructor <;> decide +kernel

end Ummanu.Vitality
