import Ummanu.Library.Runs
import Ummanu.Vitality.Reduce

/-!
# The recovery policy and the wait loop

`head_vitality_policy.py` chooses one recovery intent per tick from the freshly reduced episode.
`decideRecovery` is that choice, `applyRungState` writes its rung state back, and
`recoveryPolicyDecision` is the caller in `wait_vitality.py`, which stores nothing when an
observation changes nothing.

`waitStep` is one turn of the loop the dispatcher runs while it waits for a head: reduce, decide,
store. `waitDecision` is what that turn decides. A reduction that is refused leaves the record as
it was and decides nothing.

Scope. The texts of the decisions are modelled because they are stored and shown; the JSON form is
not. The intents that no function produces are kept as vocabulary.
-/

set_option autoImplicit false

namespace Ummanu.Vitality

open Library

/-! ### Vocabulary -/

inductive RecoveryIntent
  | observe | nudge | sigcont | requestDrain | escalateOperator | respawn | block
deriving DecidableEq, Repr

def rungNone : ℕ := 0
def rungSuspicionNoted : ℕ := 1
def rungSigcontSent : ℕ := 2
def rungResponseWindow : ℕ := 3
def rungEscalated : ℕ := 4

inductive DeterministicReasonClass
  | invalidConfiguration | missingExecutable | authenticationRejected | resourceExhausted
  | splitSourceNotFound
deriving DecidableEq, Repr

def DeterministicReasonClass.value : DeterministicReasonClass → String
  | invalidConfiguration => "invalid_configuration"
  | missingExecutable => "missing_executable"
  | authenticationRejected => "authentication_rejected"
  | resourceExhausted => "resource_exhausted"
  | splitSourceNotFound => "split_source_not_found"

/-- The launch refusals that no retry can change, by the token that names them. -/
def deterministicTerminalReasons : List (String × DeterministicReasonClass) :=
  [("terminal_split_source_not_found", .splitSourceNotFound),
    ("terminal_split_invalid_request", .invalidConfiguration),
    ("head_executable_not_found", .missingExecutable),
    ("authentication_rejected", .authenticationRejected),
    ("resource_exhausted", .resourceExhausted)]

/-- The class a refusal reason belongs to: that of the first token it contains. -/
def deterministicReasonClass (reason : String) : Option DeterministicReasonClass :=
  (deterministicTerminalReasons.find? fun entry ↦ Mentions entry.1 reason).map (·.2)

/-- The response window after a SIGCONT, and how many deterministic refusals are awaited. -/
structure RecoveryThresholds where
  responseWindow : ℕ
  deterministicRefusalLimit : ℕ
  responseWindow_pos : 0 < responseWindow
  deterministicRefusalLimit_pos : 0 < deterministicRefusalLimit

def defaultRecoveryThresholds : RecoveryThresholds where
  responseWindow := seconds (5 * 60)
  deterministicRefusalLimit := 3
  responseWindow_pos := by decide
  deterministicRefusalLimit_pos := by decide

/-- The structured fields of a decision, by the arm that writes them. -/
inductive DecisionDetail
  | empty
  | retained
  | deterministic (cls : DeterministicReasonClass) (identicalRefusals limit : ℕ)
  | suspected (since : ℕ)
  | sigcont (spanStartedAt window windowExpiresAt : ℕ)
  | escalatedBefore (spanStartedAt : ℕ)
  | insideWindow (spanStartedAt suspendedFor windowExpiresAt : ℕ)
  | pastWindow (spanStartedAt suspendedFor : ℕ)
  | verdict (verdict : VitalityVerdict)
deriving DecidableEq, Repr

structure RecoveryDecision where
  intent : RecoveryIntent
  rung : ℕ
  refusals : ℕ := 0
  reason : String := ""
  detail : DecisionDetail := .empty
deriving DecidableEq, Repr

/-! ### The decision -/

section

variable (episode : VitalityEpisode) (previousRungState : Option VitalityEpisode) (now : ℕ)
  (thresholds : RecoveryThresholds)

/-- Keep what was persisted when there is nothing to decide from. -/
def previousOrObserve (reason : String) :
    RecoveryDecision :=
  match previousRungState with
  | some previous =>
    { intent := .observe, rung := previous.recoveryRung
      refusals := previous.deterministicRefusals, reason := reason }
  | none => { intent := .observe, rung := rungNone, reason := reason }

/-- Count identical authoritative refusals and escalate at the limit. -/
def decideDeterministic (cls : DeterministicReasonClass) : RecoveryDecision :=
  let seen := max episode.deterministicRefusals ((previousRungState.map (·.deterministicRefusals)).getD 0)
  let refusals := seen + 1
  let limit := thresholds.deterministicRefusalLimit
  let detail := DecisionDetail.deterministic cls refusals limit
  if limit ≤ refusals then
    { intent := .escalateOperator
      rung := max episode.recoveryRung rungEscalated
      refusals := refusals
      reason := "deterministic refusal '" ++ cls.value ++ "' repeated " ++ toString refusals ++
        "x: retrying cannot change it, escalating to the operator instead of re-sending"
      detail := detail }
  else
    { intent := .observe
      rung := episode.recoveryRung
      refusals := refusals
      reason := "deterministic refusal '" ++ cls.value ++ "' (" ++ toString refusals ++ "x of " ++
        toString limit ++ "): counting toward fast escalation"
      detail := detail }

/-- The persisted rung state belongs to the span an episode is suspended in. -/
def sameSpan : Bool :=
  match previousRungState with
  | some previous => rungSigcontSent ≤ previous.recoveryRung &&
      0 < previous.recoverySpanStartedAt &&
      previous.recoverySpanStartedAt = episode.stallFrozenSince
  | none => false

/-- The SIGCONT rungs of one suspension span, keyed on the freeze stamp. -/
def decideSuspended : RecoveryDecision :=
  let span := episode.stallFrozenSince
  let window := thresholds.responseWindow
  let previousRung := (previousRungState.map (·.recoveryRung)).getD 0
  let suspendedFor := now - span
  if !sameSpan episode previousRungState then
    { intent := .sigcont
      rung := rungResponseWindow
      refusals := episode.deterministicRefusals
      reason := "process parked on a stop signal: send one identity-fenced SIGCONT, then hold a " ++
        secondsText window ++ " response window"
      detail := .sigcont span window (now + window) }
  else if rungEscalated ≤ previousRung then
    { intent := .observe
      rung := rungEscalated
      refusals := episode.deterministicRefusals
      reason := "still suspended past the response window; the operator has been escalated for " ++
        "this span and the head remains untouched"
      detail := .escalatedBefore span }
  else if suspendedFor ≤ window then
    { intent := .observe
      rung := rungResponseWindow
      refusals := episode.deterministicRefusals
      reason := "SIGCONT sent this span; inside the response window (" ++
        secondsText suspendedFor ++ " of " ++ secondsText window ++ ")"
      detail := .insideWindow span suspendedFor (span + window) }
  else
    { intent := .escalateOperator
      rung := rungEscalated
      refusals := episode.deterministicRefusals
      reason := "suspended for " ++ secondsText suspendedFor ++ " -- past the " ++
        secondsText window ++ " response window even after SIGCONT; escalating to the " ++
        "operator, NOT stopping the process"
      detail := .pastWindow span suspendedFor }

/-- Choose one recovery intent for one tick. A retention is observed before any reason is read;
a deterministic refusal outranks the verdict; a suspicion earns a nudge; a suspension climbs its
rungs; everything else is observed and clears the ladder. -/
def decideRecovery (episode previousRungState : Option VitalityEpisode) (now : ℕ)
    (thresholds : RecoveryThresholds) : RecoveryDecision :=
  match episode with
  | none => previousOrObserve previousRungState "no persisted episode to decide from"
  | some episode =>
    if episode.verdict = .retained then
      { intent := .observe, rung := rungNone, detail := .retained }
    else match deterministicReasonClass episode.reason.text with
    | some cls => decideDeterministic episode previousRungState thresholds cls
    | none =>
      if episode.verdict = .suspectedStall then
        { intent := .nudge
          rung := rungSuspicionNoted
          refusals := episode.deterministicRefusals
          reason := if episode.reason.isPresent then episode.reason.text
            else "strong quiet past the suspect threshold"
          detail := .suspected episode.suspectedSince }
      else if episode.verdict = .suspended then
        decideSuspended episode previousRungState now thresholds
      else
        { intent := .observe, rung := rungNone, detail := .verdict episode.verdict }

/-- Write the rung state of a decision back onto an episode. -/
def applyRungState (decision : RecoveryDecision) :
    VitalityEpisode :=
  { episode with
    recoveryRung := decision.rung
    recoverySpanStartedAt := episode.stallFrozenSince
    deterministicRefusals := decision.refusals }

/-- Ask the policy about a reduced episode, and the episode to store. An observation that changes
no rung state rewrites nothing. -/
def recoveryPolicyDecision : RecoveryDecision × VitalityEpisode :=
  let decision := decideRecovery (some episode) (some episode) now thresholds
  if decision.intent = .observe ∧ episode.recoveryRung = decision.rung ∧
      episode.deterministicRefusals = decision.refusals then (decision, episode)
  else (decision, applyRungState episode decision)

end

/-! ### The wait loop -/

/-- One turn of the wait loop: a reduction and the thresholds the policy uses. -/
structure WaitTick extends Tick where
  recovery : RecoveryThresholds := defaultRecoveryThresholds

section

variable (stored : Option VitalityEpisode)

/-- The episode a turn reduces to, when it reduces. -/
def reduceStored (tick : Tick) : Option VitalityEpisode :=
  match reduceVitality stored tick with
  | .ok episode => some episode
  | .error _ => none

/-- The record after a reduction. A refused reduction leaves it as it was. -/
def storeReduction (tick : Tick) : Option VitalityEpisode :=
  (reduceStored stored tick).or stored

/-- What one turn of the loop decides. -/
def waitDecision (tick : WaitTick) :
    Option RecoveryDecision :=
  (reduceStored stored tick.toTick).map fun episode ↦
    (recoveryPolicyDecision episode tick.now tick.recovery).1

/-- What one turn of the loop leaves on the record. -/
def waitStep (tick : WaitTick) : Option VitalityEpisode :=
  match reduceStored stored tick.toTick with
  | some episode => some (recoveryPolicyDecision episode tick.now tick.recovery).2
  | none => stored

/-- The report prompt of `worker_report.py` restarts the quiet clock of the stored episode. The
source reads the clock once for each stamp. -/
def restartQuiet (episode : VitalityEpisode) (startedAt quietSince updatedAt : ℕ) :
    VitalityEpisode :=
  { episode with
    verdict := .healthyQuiet
    suspectedSince := 0
    confirmedSince := 0
    startedAt := startedAt
    quietSince := quietSince
    updatedAt := updatedAt
    reason := .clip _ "report prompt delivered; the quiet clock restarts here" }

/-- Everything that writes the episode of a record. -/
inductive EpisodeEvent
  | reduce (tick : Tick)
  | wait (tick : WaitTick)
  | prompt (startedAt quietSince updatedAt : ℕ)

/-- The record after an event. -/
def applyEvent : EpisodeEvent → Option VitalityEpisode
  | .reduce tick => storeReduction stored tick
  | .wait tick => waitStep stored tick
  | .prompt startedAt quietSince updatedAt =>
    stored.map (restartQuiet · startedAt quietSince updatedAt)

end

/-- An episode some history of the record ends in. -/
def Reachable (episode : VitalityEpisode) : Prop :=
  ∃ events : List EpisodeEvent, events.foldl applyEvent none = some episode

/-! ### The arms of the policy -/

/-- Which arm of the policy decides, with the guards that were passed to reach it. -/
inductive PolicyArm (episode : VitalityEpisode) (previous : Option VitalityEpisode) (now : ℕ)
    (thresholds : RecoveryThresholds) : RecoveryDecision → Prop
  | retained (hverd : episode.verdict = .retained) :
      PolicyArm episode previous now thresholds { intent := .observe, rung := rungNone, detail := .retained }
  | deterministic (cls : DeterministicReasonClass) (hverd : episode.verdict ≠ .retained)
      (hclass : deterministicReasonClass episode.reason.text = some cls) :
      PolicyArm episode previous now thresholds (decideDeterministic episode previous thresholds cls)
  | suspected (reason : String) (hclass : deterministicReasonClass episode.reason.text = none)
      (hverd : episode.verdict = .suspectedStall) :
      PolicyArm episode previous now thresholds
        { intent := .nudge
          rung := rungSuspicionNoted
          refusals := episode.deterministicRefusals
          reason := reason
          detail := .suspected episode.suspectedSince }
  | suspended (hclass : deterministicReasonClass episode.reason.text = none)
      (hverd : episode.verdict = .suspended) :
      PolicyArm episode previous now thresholds (decideSuspended episode previous now thresholds)
  | other (hclass : deterministicReasonClass episode.reason.text = none)
      (hretained : episode.verdict ≠ .retained) (hsuspected : episode.verdict ≠ .suspectedStall)
      (hsusp : episode.verdict ≠ .suspended) :
      PolicyArm episode previous now thresholds
        { intent := .observe, rung := rungNone, detail := .verdict episode.verdict }

theorem decideRecovery_spec (episode : VitalityEpisode) (previous : Option VitalityEpisode)
    (now : ℕ) (thresholds : RecoveryThresholds) :
    PolicyArm episode previous now thresholds
      (decideRecovery (some episode) previous now thresholds) := by
  unfold decideRecovery
  dsimp only
  split
  next hret => exact .retained hret
  next hret =>
    cases hclass : deterministicReasonClass episode.reason.text with
    | some cls => exact .deterministic cls hret hclass
    | none =>
      dsimp only
      split
      next hsuspected => exact .suspected _ hclass hsuspected
      next hsuspected =>
        split_ifs with hsusp
        · exact .suspended hclass hsusp
        · exact .other hclass hret hsuspected hsusp

/-- Which rung of a suspension span decides, with the guards that were passed to reach it. -/
inductive SuspendedArm (episode : VitalityEpisode) (now : ℕ) (thresholds : RecoveryThresholds) :
    RecoveryDecision → Prop
  | sigcont (reason : String) (hspan : sameSpan episode (some episode) = false) :
      SuspendedArm episode now thresholds
        { intent := .sigcont
          rung := rungResponseWindow
          refusals := episode.deterministicRefusals
          reason := reason
          detail := .sigcont episode.stallFrozenSince thresholds.responseWindow (now + thresholds.responseWindow) }
  | escalatedBefore (reason : String) (hspan : sameSpan episode (some episode) = true)
      (hrung : rungEscalated ≤ episode.recoveryRung) :
      SuspendedArm episode now thresholds
        { intent := .observe
          rung := rungEscalated
          refusals := episode.deterministicRefusals
          reason := reason
          detail := .escalatedBefore episode.stallFrozenSince }
  | insideWindow (reason : String) (hspan : sameSpan episode (some episode) = true)
      (hrung : episode.recoveryRung < rungEscalated)
      (hwindow : now - episode.stallFrozenSince ≤ thresholds.responseWindow) :
      SuspendedArm episode now thresholds
        { intent := .observe
          rung := rungResponseWindow
          refusals := episode.deterministicRefusals
          reason := reason
          detail := .insideWindow episode.stallFrozenSince (now - episode.stallFrozenSince)
            (episode.stallFrozenSince + thresholds.responseWindow) }
  | pastWindow (reason : String) (hspan : sameSpan episode (some episode) = true)
      (hrung : episode.recoveryRung < rungEscalated)
      (hwindow : thresholds.responseWindow < now - episode.stallFrozenSince) :
      SuspendedArm episode now thresholds
        { intent := .escalateOperator
          rung := rungEscalated
          refusals := episode.deterministicRefusals
          reason := reason
          detail := .pastWindow episode.stallFrozenSince (now - episode.stallFrozenSince) }

theorem decideSuspended_spec (episode : VitalityEpisode) (now : ℕ) (thresholds : RecoveryThresholds) :
    SuspendedArm episode now thresholds
      (decideSuspended episode (some episode) now thresholds) := by
  unfold decideSuspended
  dsimp only [Option.map_some, Option.getD_some]
  cases hspan : sameSpan episode (some episode) with
  | false =>
    exact .sigcont _ hspan
  | true =>
    simp only [Bool.not_true, Bool.false_eq_true, if_false]
    split_ifs with hrung hwin
    · exact .escalatedBefore _ hspan hrung
    · exact .insideWindow _ hspan (not_le.mp hrung) hwin
    · exact .pastWindow _ hspan (not_le.mp hrung) (not_le.mp hwin)

/-- Every sighting of a refusal counts one more than was stored. -/
theorem decideDeterministic_refusals (episode : VitalityEpisode)
    (thresholds : RecoveryThresholds) (cls : DeterministicReasonClass) :
    (decideDeterministic episode (some episode) thresholds cls).refusals =
      episode.deterministicRefusals + 1 := by
  unfold decideDeterministic
  dsimp only
  split_ifs <;> simp

/-! ### Induction over the histories of a record -/

/-- The policy stores the reduced episode, or that episode with a new rung state. -/
theorem recoveryPolicyDecision_snd (episode : VitalityEpisode) (now : ℕ) (thresholds : RecoveryThresholds) :
    (recoveryPolicyDecision episode now thresholds).2 = episode ∨
      (recoveryPolicyDecision episode now thresholds).2 =
        applyRungState episode (recoveryPolicyDecision episode now thresholds).1 := by
  unfold recoveryPolicyDecision
  dsimp only
  split_ifs
  · exact .inl rfl
  · exact .inr rfl

theorem reduceStored_eq_some_iff {stored : Option VitalityEpisode} {tick : Tick} {episode : VitalityEpisode} :
    reduceStored stored tick = some episode ↔ reduceVitality stored tick = .ok episode := by
  unfold reduceStored
  cases reduceVitality stored tick <;> simp

/-- A tick that looked at nothing leaves the record as it was. -/
theorem storeReduction_of_nil {tick : Tick} (hsnaps : tick.snapshots = [])
    (stored : Option VitalityEpisode) : storeReduction stored tick = stored := by
  cases stored <;> simp [storeReduction, reduceStored, reduceVitality, hsnaps]

/-- A tick with readings stores what it reduces to. -/
theorem storeReduction_of_ne_nil {tick : Tick} (hsnaps : tick.snapshots ≠ [])
    (stored : Option VitalityEpisode) : ∃ episode, storeReduction stored tick = some episode ∧
      reduceVitality stored tick = .ok episode := by
  obtain ⟨a, rest, hcons⟩ := List.exists_cons_of_ne_nil hsnaps
  refine ⟨reduceBatch stored tick a rest, ?_, ?_⟩ <;>
    simp [storeReduction, reduceStored, reduceVitality, hcons]

theorem foldl_storeReduction_of_nil {ticks : List Tick}
    (hsnaps : ∀ tick ∈ ticks, tick.snapshots = []) (stored : Option VitalityEpisode) :
    ticks.foldl storeReduction stored = stored := by
  induction ticks with
  | nil => rfl
  | cons tick _ ih =>
    rw [List.foldl_cons, storeReduction_of_nil (hsnaps tick List.mem_cons_self)]
    exact ih fun l hlater ↦ hsnaps l (List.mem_cons_of_mem _ hlater)

/-- Every reduction of an event meets one condition, every report prompt another. -/
def EpisodeEvent.Meets (good : Tick → Prop) (timed : ℕ → ℕ → ℕ → Prop) : EpisodeEvent → Prop
  | .reduce tick => good tick
  | .wait tick => good tick.toTick
  | .prompt startedAt quietSince updatedAt => timed startedAt quietSince updatedAt

/-- What reductions, rung writes and report prompts keep holds at the end of every history. -/
theorem foldl_applyEvent_invariant (inv : VitalityEpisode → Prop) (good : Tick → Prop) (timed : ℕ → ℕ → ℕ → Prop)
    (hreduce : ∀ previous tick episode, good tick → (∀ stored, previous = some stored → inv stored) →
      reduceVitality previous tick = .ok episode → inv episode)
    (hrung : ∀ episode decision, inv episode → inv (applyRungState episode decision))
    (hprompt : ∀ episode startedAt quietSince updatedAt, timed startedAt quietSince updatedAt →
      inv episode → inv (restartQuiet episode startedAt quietSince updatedAt))
    {events : List EpisodeEvent} (hmeets : ∀ event ∈ events, event.Meets good timed)
    {episode : VitalityEpisode} (hevs : events.foldl applyEvent none = some episode) :
    inv episode := by
  have hrun : EachStep applyEvent (fun _ event ↦ event.Meets good timed) none events :=
    .of_forall fun event hmem _ ↦ hmeets event hmem
  refine EachStep.invariant (fun stored ↦ ∀ episode, stored = some episode → inv episode) hrun
    (by simp) ?_ episode hevs
  intro stored event hdisk hmeet next hnext
  cases event with
  | reduce tick =>
    cases hred : reduceStored stored tick with
    | none =>
      rw [applyEvent, storeReduction, hred, Option.none_or] at hnext
      exact hdisk next hnext
    | some red =>
      rw [applyEvent, storeReduction, hred, Option.some_or] at hnext
      rw [← Option.some.inj hnext]
      exact hreduce stored tick red hmeet hdisk (reduceStored_eq_some_iff.mp hred)
  | wait tick =>
    cases hred : reduceStored stored tick.toTick with
    | none =>
      simp only [applyEvent, waitStep, hred] at hnext
      exact hdisk next hnext
    | some red =>
      have hinv := hreduce stored tick.toTick red hmeet hdisk (reduceStored_eq_some_iff.mp hred)
      simp only [applyEvent, waitStep, hred, Option.some.injEq] at hnext
      rw [← hnext]
      rcases recoveryPolicyDecision_snd red tick.now tick.recovery with hsame | hwrote
      · rw [hsame]
        exact hinv
      · rw [hwrote]
        exact hrung red _ hinv
  | prompt startedAt quietSince updatedAt =>
    obtain ⟨pre, hbefore, rfl⟩ := Option.map_eq_some_iff.mp hnext
    exact hprompt pre startedAt quietSince updatedAt hmeet (hdisk pre hbefore)

end Ummanu.Vitality
