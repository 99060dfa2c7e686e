import Ummanu.Library.Json
import Ummanu.Library.KeyedTable

/-!
# The request ledger

`SqlTaskAudit` keeps one row per request id in the table `requests`: the record that owns the id, and whether
it is staged, committed or discarded. A request id is a claim. `pendingOwner` decides who owns it; `stage` and
`claim` write a staged record, `append` the committed one, `discard` removes a staged record, and settlement
commits or refuses the records that stayed staged too long, each in a transaction of its own.

Every operation is a function on the ledger that answers a new ledger or raises, in which case its
transaction is rolled back and the ledger is the one it was called on. The moment of the call is an argument,
and so is what settlement reads of the tables that hold effects.

Scope. A record is a JSON document as the store returns it. The columns that no operation reads back
(operation, protocol, entity kind) are left out, and so is the mirror of typed records in `board_events`. A
time is a number of seconds and is written into a document as its digits.
-/

set_option autoImplicit false

namespace Ummanu.Ledger

open Library

/-! ### Records and rows -/

inductive Status
  | staged
  | committed
  | discarded
  deriving DecidableEq

/-- A row of `requests`. -/
structure Row where
  requestId : String
  intent : Json
  status : Status
  ref : Option String
  createdAt : ℕ
  settledAt : Option ℕ
  deriving DecidableEq

/-- The table `requests`. -/
abbrev Requests := KeyedTable Row.requestId

/-- What an operation raises. -/
inductive Raised
  | task (code message : String) (exitStatus : ℕ)
  | value (message : String)
  | assertion (message : String)
  deriving DecidableEq

def protocolEventRecordType : String := "board.protocol_event"

def isProtocolEvent (record : Json) : Bool := record.get "record_type" = .str protocolEventRecordType

def foreignClaim : Raised := .task "validation" "request id belongs to another operation or payload" 2

def refusalKey : String := "stale_refusal"

section Reads

variable (requests : Requests) (requestId : String)

def record (status : Status) : Option Json :=
  match requests.find requestId with
  | some row => if row.status = status then some row.intent else none
  | none => none

def committedEvent : Option Json := record requests requestId .committed

def pendingEvent : Option Json := record requests requestId .staged

def event : Option Json := (committedEvent requests requestId).orElse fun _ ↦ pendingEvent requests requestId

/-- `refusal`, as far as it is read. -/
def refusalReason : String :=
  match record requests requestId .discarded with
  | some refused =>
    let reason := ((refused.get refusalKey).get "reason").textOr
    if reason = "" then "no reason recorded" else reason
  | none => "no reason recorded"

end Reads

/-- The order by `created_at, request_id`. -/
def createdOrder (first second : Row) : Prop :=
  first.createdAt < second.createdAt ∨ first.createdAt = second.createdAt ∧ first.requestId ≤ second.requestId

/-- `_CLAIM_ORDER`, on settled rows. -/
def claimOrder (first second : Row) : Prop :=
  first.settledAt.getD 0 < second.settledAt.getD 0 ∨
    first.settledAt.getD 0 = second.settledAt.getD 0 ∧ createdOrder first second

instance : DecidableRel createdOrder := fun _ _ ↦ inferInstanceAs (Decidable (_ ∨ _))

instance : DecidableRel claimOrder := fun _ _ ↦ inferInstanceAs (Decidable (_ ∨ _))

/-- `events`, narrowed by reference unless the reference is empty. -/
def events (requests : Requests) (reference : String) : List Json :=
  let rows := requests.rows.filter fun row ↦
    row.status = .committed ∧ (reference = "" ∨ row.ref = some reference)
  (rows.insertionSort claimOrder).map (·.intent)

def eventIdOwner (requests : Requests) (eventId : String) : Option String :=
  let rows := requests.rows.filter fun row ↦ (row.intent.get "event_id").text = some eventId
  (rows.insertionSort createdOrder).head?.map (·.requestId)

/-! ### Ownership -/

/-- The operation that asks for the owner. -/
inductive Operation
  | stage
  | claim
  | append
  | discard
  | reconcile
  deriving DecidableEq

/-- The committed record, the staged record, and whether it may be replaced. -/
structure Owner where
  committed : Option Json := none
  pending : Option Json := none
  replace : Bool := false

def requireSameEvent (existing offered : Json) : Except Raised Unit :=
  if existing.same offered then .ok () else .error foreignClaim

/-- A reconciliation never takes a protocol record over. -/
def checkReconcile (pending : Json) (operation : Operation) : Except Raised Unit :=
  if operation = .reconcile ∧ isProtocolEvent pending = true then requireSameEvent pending (.obj []) else .ok ()

/-- The record stays generic: a generic one is offered in its place. -/
def staysGeneric (pending : Json) (offered : Option Json) : Bool :=
  match offered with
  | some offered => isProtocolEvent pending = false ∧ isProtocolEvent offered = false
  | none => false

/-- `_pending_owner`, for an id with a staged record. -/
def stagedOwner (pending : Json) (offered : Option Json) (operation : Operation) : Except Raised Owner := do
  checkReconcile pending operation
  if offered.any pending.same then return { pending := some pending }
  else if operation = .stage ∧ staysGeneric pending offered = true then
    return { pending := some pending, replace := true }
  else if operation = .discard ∧ offered = none ∧ isProtocolEvent pending = false then
    return { pending := some pending }
  else
    requireSameEvent pending (offered.getD (.obj []))
    throw (.assertion "unreachable")

def pendingOwner (requests : Requests) (requestId : String) (offered : Option Json) (operation : Operation) :
    Except Raised Owner :=
  match committedEvent requests requestId with
  | some committed =>
    match offered with
    | some offered => do
      requireSameEvent committed offered
      return { committed := some committed }
    | none => .ok { committed := some committed }
  | none =>
    match pendingEvent requests requestId with
    | some pending => stagedOwner pending offered operation
    | none =>
      if (record requests requestId .discarded).isSome = true ∧ operation ≠ .discard then
        .error (.task "validation" ("request id was refused when its stale staged record was settled: " ++
          refusalReason requests requestId) 2)
      else .ok {}

/-- `require_claim`: a replay has to mean the recorded operation. -/
def requireClaim (existing : Json) (kind : String) (reference : Option String) (identity : List (String × Json)) :
    Except Raised Unit :=
  if (existing.get "kind").textOr ≠ kind then .error foreignClaim
  else if reference.any (· ≠ (existing.get "ref").textOr) then .error foreignClaim
  else if identity.any fun member ↦ (existing.get "payload").get member.1 ≠ member.2 then .error foreignClaim
  else .ok ()

/-! ### Writes -/

section

variable (requests : Requests) (requestId : String) (event : Json) (now : ℕ)

def claimRow (status : Status) (now : ℕ) : Requests :=
  let ref := (event.get "ref").textOr
  let fresh : Row := {
    requestId
    intent := event
    status
    ref := if ref = "" then none else some ref
    createdAt := now
    settledAt := if status = .staged then none else some now }
  match requests.find requestId with
  | none => requests.put fresh
  | some old =>
    -- a staged record that replaces another one is as old as its own claim
    requests.put { fresh with
      createdAt := if old.status = .staged ∧ status = .staged ∧ old.intent ≠ event then now else old.createdAt }

def stage : Except Raised Requests := do
  let owner ← pendingOwner requests requestId (some event) .stage
  if owner.committed.isSome ∨ owner.pending.isSome ∧ owner.replace = false then return requests
  else return claimRow requests requestId event .staged now

/-- `claim`: the ledger, and the record that owned the id before. -/
def claim (verify : Requests → Json → Except Raised Unit := fun _ _ ↦ .ok ()) :
    Except Raised (Requests × Option Json) := do
  let owner ← pendingOwner requests requestId (some event) .claim
  match owner.committed, owner.pending with
  | some committed, _ => return (requests, some committed)
  | none, some pending => return (requests, some pending)
  | none, none =>
    verify requests event
    return (claimRow requests requestId event .staged now, none)

def append : Except Raised Requests := do
  let owner ← pendingOwner requests requestId (some event) .append
  if owner.committed.isSome then return requests
  else return claimRow requests requestId event .committed now

def discard (event : Option Json) : Except Raised Requests := do
  let owner ← pendingOwner requests requestId event .discard
  if owner.committed.isSome ∨ owner.pending.isNone then return requests
  else return requests.erase requestId

end

/-! ### Settlement -/

/-- `_CLAIMING_EFFECT_TABLES`. -/
inductive EffectTable
  | sprintBudgetEvents
  | sprintComments
  | sprintDecisions
  | taskComments
  | issueComments
  | productComments
  deriving DecidableEq

def EffectTable.value : EffectTable → String
  | .sprintBudgetEvents => "sprint_budget_events"
  | .sprintComments => "sprint_comments"
  | .sprintDecisions => "sprint_decisions"
  | .taskComments => "task_comments"
  | .issueComments => "issue_comments"
  | .productComments => "product_comments"

def recordOnlyTyped : List String := ["attempt.usage", "attempt.outcome"]

def recordOnlyGeneric : List String :=
  ["sprint_guard_denied", "sprint_guard_override", "outcome_round_context", "routing"]

/-- The staged record is its own effect. -/
def recordOnly (record : Json) : Bool :=
  let kind := (record.get "kind").textOr
  if isProtocolEvent record then kind ∈ recordOnlyTyped
  else kind ∈ recordOnlyGeneric ∨ (record.get "backend").get "revision" = .str "not_written"

/-- A hard-limit budget charge, which also stops its sprint. -/
def compoundCharge (record : Json) : Bool :=
  (record.get "kind").textOr = "budget_recorded" ∧ ((record.get "payload").get "hard_limit_stop").truthy = true

/-- `_stale_verdict`: whether the effect is present, and why; `claimed` are the tables with a row of the
request. -/
def staleVerdict (requestId : String) (record : Json) (claimed : List EffectTable) : Bool × String :=
  let kind := (record.get "kind").textOr
  if recordOnly record then
    (true, kind ++ " is a record-only " ++ (if isProtocolEvent record then "occurrence" else "audit record") ++
      ": the staged record is its whole effect")
  else if claimed ≠ [] ∧ compoundCharge record = false then
    (true, "its effect is present: " ++ ", ".intercalate (claimed.map (·.value)) ++ " holds a row claiming " ++
      requestId)
  else if kind = "budget_recorded" ∧ compoundCharge record = false then
    (false, "its effect is absent: a budget charge writes exactly one sprint_budget_events row claiming its " ++
      "request, and none claims " ++ requestId)
  else if compoundCharge record then
    (false, "its effect cannot be verified: a hard-limit budget charge also stops the sprint, and the store " ++
      "holds no row proving that half; refused rather than guessed")
  else
    (false, "its effect cannot be verified: no row in the store claims " ++ requestId ++ " and a " ++
      (if kind = "" then "record" else kind) ++ " effect is not provable from its record; refused rather " ++
      "than guessed")

/-- The row that `_refuse` leaves: discarded, with the reason on it. -/
def refusedRow (row : Row) (reason : String) (now : ℕ) : Row :=
  { row with
    status := .discarded
    settledAt := some now
    intent := row.intent.set refusalKey (.obj [("reason", .str reason), ("settled_at", .str (toString now)),
      ("settled_by", .str "stale-audit-settlement"), ("staged_at", .str (toString row.createdAt))]) }

/-- One transaction of `settle_stale_staged`: the row is settled if it is still staged and old enough. -/
def settleRow (requests : Requests) (requestId : String) (grace now : ℕ) (claimed : List EffectTable) :
    Requests :=
  match requests.find requestId with
  | none => requests
  | some row =>
    if row.status = .staged ∧ row.createdAt + grace < now then
      let verdict := staleVerdict requestId row.intent claimed
      if verdict.1 then requests.put { row with status := .committed, settledAt := some now }
      else requests.put (refusedRow row verdict.2 now)
    else requests

/-- The rows that `settle_stale_staged` settles, oldest first. -/
def staleRequests (requests : Requests) (grace now : ℕ) : List String :=
  let rows := requests.rows.filter fun row ↦ row.status = .staged ∧ row.createdAt + grace < now
  (rows.insertionSort createdOrder).map (·.requestId)

def settleStaleStaged (requests : Requests) (grace now : ℕ) (claimed : String → List EffectTable) : Requests :=
  (staleRequests requests grace now).foldl
    (fun requests requestId ↦ settleRow requests requestId grace now (claimed requestId)) requests

end Ummanu.Ledger
