import Ummanu.Library.Texts

/-!
# What one phase cost

A provider journal describes a session, and a session may serve several phases of a card. When a phase is
accepted, the dispatcher reads the session's totals and subtracts what the phase before it on the same
session had already made durable. `causalPredecessor` finds that phase among the card's usage occurrences
by the keys they carry, `phaseInterval` is the subtraction, dimension by dimension, and `account` is the
whole acceptance: the payload that is published, or the reason it is refused.

Scope. Token counts are natural numbers, as the readers of the journals give them. The fields of a payload
that no attribution reads (the head, the models, the launch) are left out with their checks.
-/

set_option autoImplicit false

namespace Ummanu.Usage

/-! ### Accounts -/

/-- `TOKEN_DIMENSIONS`. -/
inductive Dimension
  | input
  | cacheInput
  | cacheReadInput
  | output
  | reasoning
  deriving DecidableEq

def tokenDimensions : List Dimension := [.input, .cacheInput, .cacheReadInput, .output, .reasoning]

theorem mem_tokenDimensions (dimension : Dimension) : dimension ∈ tokenDimensions := by
  cases dimension <;> decide

def Dimension.name : Dimension → String
  | .input => "input"
  | .cacheInput => "cache_input"
  | .cacheReadInput => "cache_read_input"
  | .output => "output"
  | .reasoning => "reasoning"

/-- `TokenTotals` and `TokenAccount`: one account, with `none` for a dimension that is not known. -/
structure TokenTotals where
  input : Option ℕ := none
  cacheInput : Option ℕ := none
  cacheReadInput : Option ℕ := none
  output : Option ℕ := none
  reasoning : Option ℕ := none
  deriving DecidableEq

namespace TokenTotals

section

variable (totals : TokenTotals)

/-- `getattr`. -/
def get : Dimension → Option ℕ
  | .input => totals.input
  | .cacheInput => totals.cacheInput
  | .cacheReadInput => totals.cacheReadInput
  | .output => totals.output
  | .reasoning => totals.reasoning

/-- The account with given values. -/
def of (value : Dimension → Option ℕ) : TokenTotals where
  input := value .input
  cacheInput := value .cacheInput
  cacheReadInput := value .cacheReadInput
  output := value .output
  reasoning := value .reasoning

@[simp] theorem get_of (value : Dimension → Option ℕ) (dimension : Dimension) :
    (of value).get dimension = value dimension := by
  cases dimension <;> rfl

def empty : Bool := tokenDimensions.all fun dimension ↦ totals.get dimension = none

/-- Reasoning is part of the output, where both are known. -/
def Contained : Prop :=
  ∀ output ∈ totals.output, ∀ reasoning ∈ totals.reasoning, reasoning ≤ output

/-- The account's reasoning escapes its output. -/
def uncontained : Bool :=
  match totals.output, totals.reasoning with
  | some output, some reasoning => output < reasoning
  | _, _ => false

theorem get_of_empty {totals : TokenTotals} (hnil : totals.empty = true) (dimension : Dimension) :
    totals.get dimension = none := by
  have hall := List.all_eq_true.mp hnil dimension (mem_tokenDimensions dimension)
  simpa using hall

theorem contained_iff : totals.Contained ↔ totals.uncontained = false := by
  cases hout : totals.output <;> cases hreasoning : totals.reasoning <;>
    simp [Contained, uncontained, hout, hreasoning]

end

end TokenTotals

/-! ### Occurrences -/

/-- `AttemptUsagePhase`. -/
inductive UsagePhase
  | worker
  | review
  deriving DecidableEq

/-- `phase_order`. -/
def UsagePhase.order : UsagePhase → ℕ
  | .worker => 0
  | .review => 1

/-- The roles a usage occurrence may have. -/
inductive UsageRole
  | worker
  | reviewer
  deriving DecidableEq

/-- `AttemptUsageOutcome`. -/
inductive UsageOutcome
  | collected
  | arithmeticContradiction
  | adapterUnsupported
  | sessionUnavailable
  | sourceUnavailable
  | sourceUnreadable
  | recordsMalformed
  | usageAbsent
  deriving DecidableEq

/-- `AttemptUsagePayload`. -/
structure UsagePayload where
  attempt : ℕ
  attemptId : String
  phase : UsagePhase
  role : UsageRole
  reportGeneration : ℕ
  adapter : String
  sessionId : Option String
  sessionIdReason : String
  outcome : UsageOutcome
  detail : String
  records : ℕ
  skippedRecords : ℕ
  tokens : TokenTotals
  sessionTotals : TokenTotals
  phaseBaseline : TokenTotals
  deriving DecidableEq

/-- The key occurrences are ordered by. -/
abbrev PhaseKey := ℕ ×ₗ ℕ ×ₗ ℕ

def phaseKey (attempt reportGeneration : ℕ) (phase : UsagePhase) : PhaseKey :=
  toLex (attempt, toLex (reportGeneration, phase.order))

def UsagePayload.key (payload : UsagePayload) : PhaseKey :=
  phaseKey payload.attempt payload.reportGeneration payload.phase

/-- A finished phase that is to be accounted for. -/
structure PhaseRead where
  attempt : ℕ
  attemptId : String
  reportGeneration : ℕ
  phase : UsagePhase
  role : UsageRole
  adapter : String
  sessionId : Option String
  sessionIdReason : String
  deriving DecidableEq

def PhaseRead.key (read : PhaseRead) : PhaseKey := phaseKey read.attempt read.reportGeneration read.phase

structure UsageCollection where
  outcome : UsageOutcome
  detail : String := ""
  records : ℕ := 0
  skippedRecords : ℕ := 0
  tokens : TokenTotals := {}
  sessionTotals : TokenTotals := {}
  baseline : TokenTotals := {}
  deriving DecidableEq

/-! ### The predecessor -/

section Predecessor

variable (read : PhaseRead)

/-- The occurrences of the phase's kind and role. -/
def sameKind (payload : UsagePayload) : Bool := payload.role = read.role ∧ payload.phase = read.phase

/-- The occurrence holds the phase's place for another attempt. -/
def conflicting (payload : UsagePayload) : Bool :=
  sameKind read payload ∧ payload.key = read.key ∧ payload.attemptId ≠ read.attemptId

/-- An earlier occurrence on the same session. -/
def precedes (sessionId : String) (payload : UsagePayload) : Bool :=
  sameKind read payload ∧ payload.key < read.key ∧ payload.adapter = read.adapter ∧ payload.sessionId = some sessionId

/-- The first of the occurrences with the greatest key. -/
def latest : List UsagePayload → Option UsagePayload
  | [] => none
  | first :: rest => some (rest.foldl (fun best other ↦ if best.key < other.key then other else best) first)

def causalPredecessor (occurrences : List UsagePayload) : Except String (Option UsagePayload) :=
  match read.sessionId with
  | none => .ok none
  | some sessionId =>
    if sessionId = "" then .ok none
    else if occurrences.any (conflicting read) then
      .error "current attempt usage phase belongs to a conflicting attempt id"
    else .ok (latest (occurrences.filter (precedes read sessionId)))

end Predecessor

def predecessorBoundary (predecessor : Option UsagePayload) : Except String (Option TokenTotals) :=
  match predecessor with
  | none => .ok none
  | some payload =>
    if payload.sessionTotals.empty then
      .error ("causal attempt usage predecessor has no readable session-total boundary (attempt " ++
        toString payload.attempt ++ ", generation " ++ toString payload.reportGeneration ++ ")")
    else .ok (some payload.sessionTotals)

/-! ### Attribution -/

structure PhaseAttribution where
  tokens : TokenTotals
  phaseBaseline : TokenTotals
  sessionTotals : TokenTotals
  contradiction : String := ""

/-- The interval of one dimension: what the phase owns, and where it started. -/
def dimensionInterval (baseline : Option TokenTotals) (current : Option ℕ) (dimension : Dimension) :
    Option ℕ × Option ℕ :=
  match current, baseline with
  | none, _ => (none, none)
  | some current, none => (some current, some 0)
  | some current, some baseline =>
    match baseline.get dimension with
    | none => (none, none)
    | some previous => if current < previous then (none, none) else (some (current - previous), some previous)

/-- The dimension fell below the boundary. -/
def dimensionFell (baseline : Option TokenTotals) (current : Option ℕ) (dimension : Dimension) : Bool :=
  match current, baseline.bind (·.get dimension) with
  | some current, some previous => current < previous
  | _, _ => false

def uncontainedReasoning (attribution : PhaseAttribution) : String :=
  if attribution.tokens.uncontained then
    "the tokens reasoning is not contained in its own output total"
  else if attribution.phaseBaseline.uncontained then
    "the phase_baseline reasoning is not contained in its own output total"
  else if attribution.sessionTotals.uncontained then
    "the session_totals reasoning is not contained in its own output total"
  else ""

def phaseInterval (sessionTotals : TokenTotals) (baseline : Option TokenTotals) : PhaseAttribution :=
  let interval dimension := dimensionInterval baseline (sessionTotals.get dimension) dimension
  let attribution : PhaseAttribution := {
    tokens := .of fun dimension ↦ (interval dimension).1
    phaseBaseline := .of fun dimension ↦ (interval dimension).2
    sessionTotals }
  match tokenDimensions.filter fun dimension ↦
      dimensionFell baseline (sessionTotals.get dimension) dimension with
  | [] => { attribution with contradiction := uncontainedReasoning attribution }
  | decreased => { attribution with
      contradiction := "the provider session total fell below the authoritative boundary of an earlier " ++
        "phase in " ++ ", ".intercalate (decreased.map Dimension.name) }

def applyPhaseBoundary (collection : UsageCollection) (baseline : Option TokenTotals) :
    UsageCollection :=
  if collection.outcome ≠ .collected then collection
  else
    let attribution := phaseInterval collection.sessionTotals baseline
    if attribution.contradiction ≠ "" then { collection with
      outcome := .arithmeticContradiction
      detail := attribution.contradiction
      tokens := {}
      sessionTotals := {}
      baseline := {} }
    else { collection with
      tokens := attribution.tokens
      sessionTotals := attribution.sessionTotals
      baseline := attribution.phaseBaseline }

def attributePhase (collection : UsageCollection) (predecessor : Option UsagePayload) :
    Except String UsageCollection := do
  if collection.outcome ≠ .collected then pure collection
  else
    let baseline ← predecessorBoundary predecessor
    pure (applyPhaseBoundary collection baseline)

/-! ### Publication -/

/-- The check a refused value fails. -/
def refuseIf (refused : Bool) (message : String) : Except String Unit :=
  if refused then .error message else .ok ()

/-- `TokenAccount.__post_init__`. -/
def checkAccount (account : TokenTotals) : Except String Unit :=
  refuseIf account.uncontained "attempt usage reasoning must be contained in output"

/-- One dimension of a collected payload. -/
def checkDimension (payload : UsagePayload) (dimension : Dimension) : Except String Unit :=
  match payload.tokens.get dimension, payload.phaseBaseline.get dimension,
      payload.sessionTotals.get dimension with
  | none, none, _ => .ok ()
  | some owned, some start, some total => do
    refuseIf (total < start)
      ("attempt usage dimension " ++ dimension.name ++ " has a session total below its baseline")
    refuseIf (owned ≠ total - start)
      ("attempt usage dimension " ++ dimension.name ++ " does not match its session-total interval")
  | some _, some _, none =>
    .error ("attempt usage dimension " ++ dimension.name ++ " attributes an interval with no session total")
  | _, _, _ =>
    .error ("attempt usage dimension " ++ dimension.name ++ " attributes its interval and its baseline together")

/-- `AttemptUsagePayload.__post_init__`. -/
def checkPayload (payload : UsagePayload) : Except String Unit := do
  refuseIf (payload.attempt < 1) "attempt usage requires a positive attempt"
  refuseIf (payload.reportGeneration < 1) "attempt usage requires a positive report generation"
  refuseIf (Library.isBlankText payload.attemptId) "attempt usage requires a non-empty attempt_id"
  refuseIf (Library.isBlankText payload.adapter) "attempt usage requires a non-empty adapter"
  refuseIf (payload.sessionId.any Library.isBlankText) "attempt usage session id must be a non-empty string or null"
  refuseIf (payload.sessionId = none ∧ Library.isBlankText payload.sessionIdReason)
    "an absent attempt usage session id must record why it is absent"
  if payload.outcome = .collected then do
    refuseIf payload.sessionTotals.empty "a collected attempt usage outcome reports at least one session total"
    tokenDimensions.forM (checkDimension payload)
  else
    refuseIf (!payload.tokens.empty || !payload.sessionTotals.empty || !payload.phaseBaseline.empty)
      "a degraded attempt usage outcome reports no token totals"

/-- `attempt_usage_data`. -/
def usagePayload (read : PhaseRead) (collection : UsageCollection) : UsagePayload where
  attempt := read.attempt
  attemptId := read.attemptId
  phase := read.phase
  role := read.role
  reportGeneration := read.reportGeneration
  adapter := if read.adapter = "" then "unknown" else read.adapter
  sessionId := read.sessionId.filter (· ≠ "")
  sessionIdReason := read.sessionIdReason
  outcome := collection.outcome
  detail := collection.detail
  records := collection.records
  skippedRecords := collection.skippedRecords
  tokens := collection.tokens
  sessionTotals := collection.sessionTotals
  phaseBaseline := collection.baseline

/-- `_write_attempt_usage`: the payload a finished phase publishes, with what its provider read gave. -/
def account (occurrences : List UsagePayload) (read : PhaseRead) (collection : UsageCollection) :
    Except String UsagePayload := do
  let predecessor ← causalPredecessor read occurrences
  let collection ← attributePhase collection predecessor
  let payload := usagePayload read collection
  checkAccount payload.tokens
  checkAccount payload.sessionTotals
  checkAccount payload.phaseBaseline
  checkPayload payload
  pure payload

end Ummanu.Usage
