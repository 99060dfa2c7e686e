import Ummanu.Library.BoundedText

/-!
# The liveness record of a retained continuation

A red verdict is handed back to the worker session that wrote the code, and while the session's pane stays
busy the dispatcher asks the provider whether the run makes progress. `Liveness` is what it remembers of
that: the head run the episode is bound to, the source and cursor it took as a baseline, how often the pane
was busy without progress, and how far the single-use recovery ladder was climbed. Every transition of the
record is here, as is the form it is saved in (`toJson`) and the reader of that form (`fromJson`), which
turns a record that is not coherent into one of an unknown episode.

Scope. Times are seconds of the clock, and zero is a time that was not set. Evidence that is a mapping is
the texts its fields read as. A saved record has every field with the JSON type `to_json` writes, so that
the reader's answers to missing and ill-typed fields are left out.
-/

set_option autoImplicit false

namespace Ummanu.Continuation

open Library

/-! ### Values -/

/-- `ContinuationLivenessState`. -/
inductive LivenessState
  | unknown
  | unavailable
  | baselinePending
  | baselined
  | stalled
  | progressed
  deriving DecidableEq

def LivenessState.value : LivenessState → String
  | .unknown => "unknown"
  | .unavailable => "unavailable"
  | .baselinePending => "baseline_pending"
  | .baselined => "baselined"
  | .stalled => "stalled"
  | .progressed => "progressed"

/-- `ContinuationRecoveryRung`. -/
inductive RecoveryRung
  | none
  | pending
  | responseWindow
  | resumeOnce
  | unavailable
  | terminal
  deriving DecidableEq

def RecoveryRung.value : RecoveryRung → String
  | .none => "none"
  | .pending => "safe_recovery_pending"
  | .responseWindow => "safe_recovery_response_window"
  | .resumeOnce => "safe_recovery_resume_once"
  | .unavailable => "safe_recovery_unavailable"
  | .terminal => "terminal"

def livenessStates : List LivenessState :=
  [.unknown, .unavailable, .baselinePending, .baselined, .stalled, .progressed]

def recoveryRungs : List RecoveryRung :=
  [.none, .pending, .responseWindow, .resumeOnce, .unavailable, .terminal]

def LivenessState.parse (text : String) : Option LivenessState := livenessStates.find? (·.value = text)

def RecoveryRung.parse (text : String) : Option RecoveryRung := recoveryRungs.find? (·.value = text)

theorem LivenessState.parse_value (state : LivenessState) : parse state.value = some state := by
  cases state <;> rfl

theorem RecoveryRung.parse_value (rung : RecoveryRung) : parse rung.value = some rung := by
  cases rung <;> rfl

/-- The outcomes a continuation is ended with. -/
inductive TerminalOutcome
  | replacement
  | reused
  deriving DecidableEq

def TerminalOutcome.value : TerminalOutcome → String
  | .replacement => "replacement"
  | .reused => "reused"

/-- `_fingerprint`. -/
def isFingerprint (value : String) : Bool :=
  value.toList.length = 32 && value.toList.all fun c ↦ c.toLower ∈ "0123456789abcdef".toList

/-- What `head_run_binding` makes of a well-formed head run. -/
structure HeadBinding where
  runId : String
  runId_ne : runId ≠ ""
  fingerprint : String
  fingerprint_ok : isFingerprint fingerprint = true

/-- `WorkerContinuationLiveness`. -/
structure Liveness where
  state : LivenessState := .unknown
  reason : BoundedText 240 := .clip 240 "missing"
  headRunId : String := ""
  headRunFingerprint : String := ""
  firstObservedAt : ℕ := 0
  firstBusyAt : ℕ := 0
  lastProviderProgressAt : ℕ := 0
  lastProviderObservedAt : ℕ := 0
  providerCursor : BoundedText 240 := .blank
  providerSource : BoundedText 80 := .blank
  providerSourceFingerprint : BoundedText 64 := .blank
  baselineEstablished : Bool := false
  noProgressEvidence : BoundedText 80 := .blank
  busyAttempts : ℕ := 0
  recoveryRung : RecoveryRung := .none
  recoveryAttemptedAt : ℕ := 0
  recoveryResponseDeadline : ℕ := 0
  recoveryAttempts : ℕ := 0
  recoveryResumeUsed : Bool := false
  terminalOutcome : BoundedText 80 := .blank
  sourceRejected : Bool := false
  legacyBusyAttempts : ℕ := 0
  deriving DecidableEq

/-- Provider evidence that is a mapping: the texts of its fields. -/
structure Evidence where
  state : String := ""
  source : String := ""
  continuationCondition : String := ""
  admission : String := ""
  headRunId : String := ""
  headRunFingerprint : String := ""
  sourceFingerprint : String := ""
  cursor : String := ""
  reason : String := ""

/-- What `observe_provider` answers. -/
inductive Observation
  | unknown
  | unavailable
  | legacyUnbound
  | baseline
  | stalled
  | progressed
  deriving DecidableEq

/-! ### Transitions -/

namespace Liveness

def unknown (reason : String) (legacyBusyAttempts : ℕ := 0) : Liveness where
  reason := .clip 240 reason
  legacyBusyAttempts := legacyBusyAttempts

def begin (headRun : Option HeadBinding) : Liveness :=
  match headRun with
  | none => unknown "retained HeadRun is unavailable or malformed"
  | some binding => {
      state := .baselinePending
      reason := .clip 240 "awaiting exact run-bound provider source baseline"
      headRunId := binding.runId
      headRunFingerprint := binding.fingerprint }

variable (liveness : Liveness)

def bound : Bool := liveness.headRunId ≠ "" ∧ liveness.headRunFingerprint ≠ ""

def admitted : Bool :=
  liveness.bound ∧ liveness.baselineEstablished = true ∧ liveness.state ≠ .unknown ∧ liveness.state ≠ .unavailable

def terminal : Bool := liveness.terminalOutcome.isPresent || liveness.recoveryRung = .terminal

def rejectAsUnknown (reason : String) : Liveness :=
  { liveness with state := .unknown, reason := .clip 240 reason, sourceRejected := true }

/-- The episode is bound to this head run. -/
def bindsTo (headRun : Option HeadBinding) : Bool :=
  match headRun with
  | none => false
  | some binding => liveness.bound ∧ liveness.headRunId = binding.runId ∧
      liveness.headRunFingerprint = binding.fingerprint

section

variable (evidence : Evidence) (now : ℕ)

/-- The first observation is stamped. -/
def stamped : Liveness :=
  if liveness.firstObservedAt = 0 then { liveness with firstObservedAt := now } else liveness

/-- An observation that is no admission. -/
def withdrawn (reason : String) (now : ℕ) : Liveness :=
  { liveness with
    state := .unavailable
    reason := .clip 240 reason
    lastProviderObservedAt := now }

/-- An observation that moved the cursor. -/
def advanced (cursor : BoundedText 240) (now : ℕ) : Liveness :=
  { liveness with
    lastProviderObservedAt := now
    providerCursor := cursor
    state := .progressed
    reason := .blank
    lastProviderProgressAt := now
    busyAttempts := 0
    recoveryRung := if liveness.recoveryRung = .responseWindow then .responseWindow else .none
    recoveryAttemptedAt := 0
    recoveryResponseDeadline := 0
    recoveryAttempts := 0
    recoveryResumeUsed := false
    terminalOutcome := .blank
    noProgressEvidence := .blank }

/-- The first cursor of a pending episode is its baseline. -/
def baselined : Liveness :=
  { liveness with
    providerSource := .clip 80 evidence.source
    providerSourceFingerprint := .clip 64 evidence.sourceFingerprint
    providerCursor := .clip 240 evidence.cursor
    baselineEstablished := true
    state := .baselined
    reason := .blank
    lastProviderObservedAt := now }

/-- An admitted observation: a baseline, or a cursor of the same source. -/
def observeAdmitted : Liveness × Observation :=
  let source : BoundedText 80 := .clip 80 evidence.source
  let sourceFingerprint : BoundedText 64 := .clip 64 evidence.sourceFingerprint
  let cursor : BoundedText 240 := .clip 240 evidence.cursor
  if !source.isPresent || !isFingerprint sourceFingerprint.text || !cursor.isPresent then
    (liveness.withdrawn "provider source admission is incomplete" now, .unavailable)
  else if liveness.baselineEstablished = false then
    if liveness.state ≠ .baselinePending then
      (liveness.rejectAsUnknown "continuation liveness baseline is incoherent", .unknown)
    else (liveness.baselined evidence now, .baseline)
  else if source ≠ liveness.providerSource ∨ sourceFingerprint ≠ liveness.providerSourceFingerprint then
    (liveness.rejectAsUnknown "provider source does not match the persisted v1 baseline", .unknown)
  else if cursor = liveness.providerCursor then
    ({ liveness with
        lastProviderObservedAt := now
        state := .stalled
        reason := .clip 240 "provider cursor has not advanced" }, .stalled)
  else (liveness.advanced cursor now, .progressed)

/-- The evidence is admitted for the episode's head run. -/
def admits : Bool :=
  evidence.state = "observed" ∧ evidence.admission = "accepted" ∧ evidence.headRunId = liveness.headRunId ∧
    evidence.headRunFingerprint = liveness.headRunFingerprint

/-- An observation of the episode's own head run. -/
def observeOwn (evidence : Option Evidence) (now : ℕ) : Liveness × Observation :=
  match evidence with
  | none =>
    (liveness.withdrawn "provider-progress transport returned an invalid shape" now, .unavailable)
  | some evidence =>
    if evidence.state = "unavailable" ∧ evidence.source = "codex-session" ∧
        evidence.continuationCondition = "legacy_unbound_v1" then
      (liveness.withdrawn "Codex provider source remains legacy-unbound for v1 progress" now, .legacyUnbound)
    else if liveness.admits evidence = false then
      if evidence.state = "identity_mismatch" then
        ({ liveness.rejectAsUnknown
            (if evidence.reason = "" then "provider progress names another HeadRun" else evidence.reason)
            with lastProviderObservedAt := now }, .unknown)
      else
        (liveness.withdrawn
          (if evidence.reason = "" then "provider source was not admitted" else evidence.reason) now,
          .unavailable)
    else liveness.observeAdmitted evidence now

def observeProvider (evidence : Option Evidence) (now : ℕ) (headRun : Option HeadBinding) :
    Liveness × Observation :=
  if liveness.sourceRejected then (liveness, .unknown)
  else if liveness.bindsTo headRun = false then
    (liveness.rejectAsUnknown "continuation liveness episode is not bound to the retained HeadRun", .unknown)
  else (liveness.stamped now).observeOwn evidence now

def noteBusy : Liveness :=
  if liveness.admitted = false ∨ liveness.state ≠ .stalled then liveness
  else { liveness with
    firstBusyAt := if liveness.firstBusyAt = 0 then now else liveness.firstBusyAt
    busyAttempts := liveness.busyAttempts + 1 }

def beginSafeRecovery : Liveness :=
  { liveness with
    recoveryRung := .pending
    recoveryAttemptedAt := now
    recoveryAttempts := liveness.recoveryAttempts + 1 }

end

def safeRecoveryResponseWindow (now seconds : ℕ) : Liveness :=
  { liveness with recoveryRung := .responseWindow, recoveryResponseDeadline := now + seconds }

/-- `allow_safe_recovery_resume_once`: the record with the resume spent, if it may be. -/
def allowSafeRecoveryResumeOnce : Option Liveness :=
  if liveness.recoveryRung ≠ .resumeOnce ∨ liveness.recoveryResumeUsed = true then none
  else some { liveness with recoveryResumeUsed := true }

def terminalize (outcome : TerminalOutcome) (reason : String) : Liveness :=
  { liveness with
    recoveryRung := .terminal
    terminalOutcome := .clip 80 outcome.value
    reason := .clip 240 reason }

end Liveness

/-! ### The saved form -/

/-- The object `to_json` writes. -/
structure LivenessJson where
  version : ℤ
  state : String
  reason : String
  headRunId : String
  headRunFingerprint : String
  firstObservedAt : ℤ
  firstBusyAt : ℤ
  lastProviderProgressAt : ℤ
  lastProviderObservedAt : ℤ
  providerCursor : String
  providerSource : String
  providerSourceFingerprint : String
  baselineEstablished : Bool
  noProgressEvidence : String
  busyAttempts : ℤ
  recoveryRung : String
  recoveryAttemptedAt : ℤ
  recoveryResponseDeadline : ℤ
  recoveryAttempts : ℤ
  recoveryResumeUsed : Bool
  terminalOutcome : String
  sourceRejected : Bool
  legacyBusyAttempts : ℤ
  deriving DecidableEq

namespace Liveness

def toJson (liveness : Liveness) : LivenessJson where
  version := 1
  state := liveness.state.value
  reason := liveness.reason.text
  headRunId := liveness.headRunId
  headRunFingerprint := liveness.headRunFingerprint
  firstObservedAt := liveness.firstObservedAt
  firstBusyAt := liveness.firstBusyAt
  lastProviderProgressAt := liveness.lastProviderProgressAt
  lastProviderObservedAt := liveness.lastProviderObservedAt
  providerCursor := liveness.providerCursor.text
  providerSource := liveness.providerSource.text
  providerSourceFingerprint := liveness.providerSourceFingerprint.text
  baselineEstablished := liveness.baselineEstablished
  noProgressEvidence := liveness.noProgressEvidence.text
  busyAttempts := liveness.busyAttempts
  recoveryRung := liveness.recoveryRung.value
  recoveryAttemptedAt := liveness.recoveryAttemptedAt
  recoveryResponseDeadline := liveness.recoveryResponseDeadline
  recoveryAttempts := liveness.recoveryAttempts
  recoveryResumeUsed := liveness.recoveryResumeUsed
  terminalOutcome := liveness.terminalOutcome.text
  sourceRejected := liveness.sourceRejected
  legacyBusyAttempts := liveness.legacyBusyAttempts

/-- The fields of a saved record, or why they cannot be read. -/
def readFields (value : LivenessJson) : Except String Liveness :=
  if value.version ≠ 1 then .error "unsupported version"
  else
    match LivenessState.parse value.state, RecoveryRung.parse value.recoveryRung with
    | some state, some rung =>
      if value.firstObservedAt < 0 ∨ value.firstBusyAt < 0 ∨ value.lastProviderProgressAt < 0 ∨
          value.lastProviderObservedAt < 0 ∨ value.recoveryAttemptedAt < 0 ∨
          value.recoveryResponseDeadline < 0 then
        .error "malformed liveness timestamp"
      else if value.busyAttempts < 0 ∨ value.recoveryAttempts < 0 then
        .error "malformed liveness attempts"
      else if value.legacyBusyAttempts < 0 then .error "malformed legacy busy attempts"
      else .ok {
        state
        reason := .clip 240 value.reason
        headRunId := value.headRunId
        headRunFingerprint := value.headRunFingerprint
        firstObservedAt := value.firstObservedAt.toNat
        firstBusyAt := value.firstBusyAt.toNat
        lastProviderProgressAt := value.lastProviderProgressAt.toNat
        lastProviderObservedAt := value.lastProviderObservedAt.toNat
        providerCursor := .clip 240 value.providerCursor
        providerSource := .clip 80 value.providerSource
        providerSourceFingerprint := .clip 64 value.providerSourceFingerprint
        baselineEstablished := value.baselineEstablished
        noProgressEvidence := .clip 80 value.noProgressEvidence
        busyAttempts := value.busyAttempts.toNat
        recoveryRung := rung
        recoveryAttemptedAt := value.recoveryAttemptedAt.toNat
        recoveryResponseDeadline := value.recoveryResponseDeadline.toNat
        recoveryAttempts := value.recoveryAttempts.toNat
        recoveryResumeUsed := value.recoveryResumeUsed
        terminalOutcome := .clip 80 value.terminalOutcome
        sourceRejected := value.sourceRejected
        legacyBusyAttempts := value.legacyBusyAttempts.toNat }
    | _, _ => .error "malformed"

section Coherence

variable (liveness : Liveness)

def explicitUnknown : Bool :=
  liveness.state = .unknown ∧ liveness.headRunId = "" ∧ liveness.headRunFingerprint = "" ∧
    liveness.providerSource.isPresent = false ∧ liveness.providerSourceFingerprint.isPresent = false ∧
    liveness.providerCursor.isPresent = false ∧ liveness.baselineEstablished = false ∧
    liveness.busyAttempts = 0 ∧ liveness.recoveryRung = .none ∧
    liveness.terminalOutcome.isPresent = false ∧ liveness.firstObservedAt = 0 ∧ liveness.firstBusyAt = 0 ∧
    liveness.lastProviderProgressAt = 0 ∧ liveness.lastProviderObservedAt = 0 ∧
    liveness.recoveryAttemptedAt = 0 ∧ liveness.recoveryResponseDeadline = 0

/-- The record names a source, its fingerprint and a cursor. -/
def sourced : Bool :=
  liveness.providerSource.isPresent ∧ liveness.providerCursor.isPresent ∧
    isFingerprint liveness.providerSourceFingerprint.text

/-- What no record without a baseline may carry. -/
def traced : Bool :=
  liveness.providerSource.isPresent ∨ liveness.providerSourceFingerprint.isPresent ∨
    liveness.providerCursor.isPresent ∨ liveness.busyAttempts ≠ 0 ∨ liveness.firstBusyAt ≠ 0 ∨
    liveness.lastProviderProgressAt ≠ 0 ∨ liveness.recoveryAttemptedAt ≠ 0 ∨
    liveness.recoveryResponseDeadline ≠ 0 ∨ liveness.recoveryAttempts ≠ 0 ∨
    liveness.recoveryResumeUsed = true

/-- Why the rung of a record is not coherent. -/
def rungIncoherence : Option String :=
  if liveness.recoveryRung = .terminal then
    if liveness.terminalOutcome.isPresent then none else some "terminal liveness outcome is missing"
  else if liveness.terminalOutcome.isPresent then
    some "non-terminal liveness carries a terminal outcome"
  else if liveness.recoveryRung ≠ .none ∧ liveness.state ≠ .stalled ∧ liveness.state ≠ .progressed ∧
      liveness.state ≠ .unavailable then
    some "recovery rung lacks verified no-progress episode"
  else if liveness.recoveryRung = .responseWindow ∧
      (liveness.recoveryAttempts ≠ 1 ∨ liveness.recoveryResponseDeadline ≤ liveness.recoveryAttemptedAt) then
    some "safe recovery response window is incoherent"
  else if liveness.recoveryRung = .resumeOnce ∧ liveness.recoveryAttempts ≠ 1 then
    some "safe recovery resume is incoherent"
  else none

/-- Why a bound record is not coherent. -/
def incoherence : Option String :=
  match liveness.state with
  | .unknown =>
    if liveness.sourceRejected = false then
      some "unknown liveness episode lacks a source-rejection fence"
    else if liveness.baselineEstablished then
      if liveness.sourced then none else some "incoherent source-rejected liveness baseline"
    else if liveness.traced ∨ liveness.recoveryRung ≠ .none ∨ liveness.terminalOutcome.isPresent then
      some "incoherent source-rejected pending baseline"
    else none
  | .baselinePending =>
    if liveness.baselineEstablished = true ∨ liveness.traced ∨ liveness.recoveryRung ≠ .none ∨
        liveness.terminalOutcome.isPresent ∨ liveness.firstObservedAt ≠ 0 ∨
        liveness.lastProviderObservedAt ≠ 0 then
      some "incoherent pending liveness baseline"
    else liveness.rungIncoherence
  | .unavailable =>
    if liveness.sourceRejected then some "unavailable liveness carries a source-rejection fence"
    else if liveness.baselineEstablished then
      if liveness.sourced then liveness.rungIncoherence
      else some "incoherent unavailable liveness baseline"
    else if liveness.traced ∨ liveness.recoveryRung ≠ .none ∧ liveness.recoveryRung ≠ .terminal then
      some "incoherent unavailable pending baseline"
    else liveness.rungIncoherence
  | _ =>
    if liveness.baselineEstablished = true ∧ liveness.sourced then liveness.rungIncoherence
    else some "incoherent bound liveness baseline"

/-- What the reader makes of the fields. -/
def checked : Liveness :=
  if liveness.explicitUnknown ∧ liveness.sourceRejected = false then
    unknown (if liveness.reason.isPresent then liveness.reason.text else "unknown") liveness.legacyBusyAttempts
  else if liveness.headRunId = "" ∨ isFingerprint liveness.headRunFingerprint = false then
    unknown "malformed HeadRun binding" liveness.legacyBusyAttempts
  else
    match liveness.incoherence with
    | some reason => unknown reason liveness.legacyBusyAttempts
    | none => { liveness with sourceRejected := liveness.state = .unknown }

end Coherence

def fromJson (value : Option LivenessJson) : Liveness :=
  match value with
  | none => unknown "missing"
  | some value =>
    match readFields value with
    | .error reason => unknown reason
    | .ok liveness => liveness.checked

/-- A record after a restart of the dispatcher. -/
def reload (liveness : Liveness) : Liveness := fromJson (some liveness.toJson)

end Liveness

/-! ### Reading what was written -/

theorem readFields_toJson (liveness : Liveness) : Liveness.readFields liveness.toJson = .ok liveness := by
  have hnat : ∀ n : ℕ, ¬ (n : ℤ) < 0 := fun n ↦ Int.not_lt.mpr (Int.natCast_nonneg n)
  simp [Liveness.readFields, Liveness.toJson, LivenessState.parse_value, RecoveryRung.parse_value, hnat]

/-- A restart checks the record, and reads no field otherwise than it was. -/
theorem reload_eq_checked (liveness : Liveness) : liveness.reload = liveness.checked := by
  rw [Liveness.reload, Liveness.fromJson, readFields_toJson]

end Ummanu.Continuation
