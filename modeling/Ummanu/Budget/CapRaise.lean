import Ummanu.Budget.Decision

/-!
# Raising the cap of a card

`raise_e2e_cap` raises the e2e cap of one code card outside every open sprint, on an owner's comment. The
raise goes through `_write`, which lets a request id be used once: a committed record of the id is replayed if
it is one of the same operation on the same card, and refused otherwise. Without an explicit request id the id
is made from the comment's event id alone.

Scope. A call runs in one transaction, so one that raises leaves the board as it was. The field of a card that
holds its raises is a list here, in the place of its JSON text; a failing store is left out.
-/

set_option autoImplicit false

namespace Ummanu.Budget

open Library Ledger

/-! ### The board -/

/-- An entry of a card's `e2e_cap`. -/
structure CapRaise where
  add : ℕ
  authorizedBy : String
  decision : String
  raisedAt : String

/-- A card, as `show` answers it. -/
structure Card where
  number : ℕ
  recordType : String := ""
  type : String := "code"
  sprint : String := ""
  updatedAt : String
  capRaises : List CapRaise := []
  comments : List Comment := []

structure Board where
  requests : Requests
  cards : String → Option Card
  openSprints : List String

def cardE2eCap : ℕ := 3

def cardCap (card : Card) : ℕ := cardE2eCap + (card.capRaises.map (·.add)).sum

/-- `entity_id` of a card. -/
def Card.id (card : Card) : String := "task_postgres_" ++ toString card.number

def Card.revision (card : Card) : String :=
  "updated_at:" ++ if card.updatedAt = "" then "unknown" else card.updatedAt

def Board.show (board : Board) (reference : String) : Except Raised Card :=
  match board.cards reference with
  | some card => .ok card
  | none => .error (.task "not_found" "task was not found" 2)

/-- The comments of a card, none if there is no card. -/
def Board.comments (board : Board) (reference : String) : List Comment :=
  ((board.cards reference).map (·.comments)).getD []

def Board.sprintOpen (board : Board) (sprint : String) : Bool := sprint ∈ board.openSprints

/-! ### Writes -/

/-- `admit_role` for operations of the product owner. -/
def admitPo (role actor : String) : Except Raised Unit :=
  if role = "po" ∧ strip actor.toList = "observer".toList then
    .error (.task "role_masquerade"
      "the observer writes in its own name: use --role observer --actor observer, not --role po" 3)
  else if role ≠ "po" then .error (.task "role_forbidden" "role is not permitted for this operation" 3)
  else .ok ()

/-- What a write answers besides the card. -/
structure Reply where
  eventId : String
  replayed : Bool

/-- A write: the operation, who asks for it, and the ids and times it is made with. -/
structure Write where
  kind : String
  role : String
  actor : String
  reference : String
  requestId : String
  identity : List (String × Json)
  eventId : String
  occurredAt : String
  now : ℕ

/-- The record that `_write_effect` stages. -/
def Write.record (write : Write) (card : Card) (revision : String) (payload : Json) : Json :=
  .obj [("ref", .str write.reference), ("kind", .str write.kind),
    ("actor", .obj [("id", .str write.actor), ("role", .str write.role)]),
    ("backend", .obj [("kind", .str "postgres"), ("task_id", .num (toString card.number)),
      ("revision", .str revision)]),
    ("outcome", .str "success"), ("payload", payload), ("task_id", .str card.id),
    ("event_id", .str write.eventId), ("request_id", .str write.requestId),
    ("occurred_at", .str write.occurredAt), ("schema_version", .num "1")]

/-- What is raised when a staged record is left behind. -/
def auditPending : Raised := .task "audit_pending" "backend write committed; audit repair is required" 4

section Write

variable (payload : Card → Except Raised Json) (mutation : Board → Card → Board)

/-- `_write_effect`: the record is staged, the effect applied, and the record committed with the revision after
it. -/
def writeEffect (board : Board) (write : Write) : Except Raised (Board × Reply) := do
  let card ← board.show write.reference
  let eventPayload ← payload card
  let staged ← stage board.requests write.requestId (write.record card card.revision eventPayload) write.now
  let mutated := mutation { board with requests := staged } card
  let after ← (mutated.show write.reference).mapError fun _ ↦ auditPending
  let event := write.record card after.revision eventPayload
  let restaged ← stage mutated.requests write.requestId event write.now
  let requests ← append restaged write.requestId event write.now
  return ({ mutated with requests }, ⟨write.eventId, false⟩)

/-- A staged record is committed with the revision of its card. -/
def finishPending (board : Board) (write : Write) (pending : Json) : Except Raised Requests := do
  let card ← board.show (pending.get "ref").textOr
  let event := (pending.set "task_id" (.str card.id)).set "backend"
    ((pending.get "backend").set "revision" (.str card.revision))
  let restaged ← stage board.requests write.requestId event write.now
  append restaged write.requestId event write.now

def write (board : Board) (write : Write) : Except Raised (Board × Reply) :=
  match committedEvent board.requests write.requestId with
  | some committed => do
    requireClaim committed write.kind (some write.reference) write.identity
    let requests ← append board.requests write.requestId committed write.now
    let _ ← board.show write.reference
    return ({ board with requests }, ⟨(committed.get "event_id").textOr, true⟩)
  | none =>
    match pendingEvent board.requests write.requestId with
    | some pending => do
      requireClaim pending write.kind (some write.reference) write.identity
      let requests ← (finishPending board write pending).mapError fun _ ↦ auditPending
      let _ ← board.show write.reference
      return ({ board with requests }, ⟨(pending.get "event_id").textOr, true⟩)
    | none => writeEffect payload mutation board write

end Write

/-! ### The raise -/

def cardCapRaised : String := "e2e_cap_raised"

/-- A call of `raise_e2e_cap`, with the id of its record and the time. -/
structure RaiseCall where
  role : String
  actor : String
  reference : String
  authorizedBy : String
  add : Option ℤ
  requestId : Option String
  eventId : String
  raisedAt : String
  now : ℕ

section

variable (board : Board) (call : RaiseCall)

/-- The comment that the call names. -/
def RaiseCall.comment : String := String.ofList (strip call.authorizedBy.toList)

/-- The request id of the call, made from the comment unless it is given. -/
def RaiseCall.request : String :=
  match call.requestId with
  | some requestId => if requestId = "" then "e2e-cap-raise-" ++ call.comment else requestId
  | none => "e2e-cap-raise-" ++ call.comment

/-- The checks of a call that read the card alone. -/
def checkCard : Except Raised Unit := do
  let card ← board.show call.reference
  if card.type ≠ "" ∧ card.type ≠ "code" then
    throw (.task "validation" (call.reference ++ " is not a code card; it has no e2e cap") 2)
  else if card.sprint ≠ "" ∧ board.sprintOpen card.sprint = true then
    throw (.task "validation" (call.reference ++ " belongs to " ++ card.sprint ++
      ", whose e2e budget it spends: raise that with `sprint e2e-budget`") 2)
  else return ()

/-- The record of a raise of the card's cap by a comment. -/
def earlierRaise (reference comment : String) : Option Json :=
  (events board.requests reference).find? fun event ↦
    event.get "kind" = .str cardCapRaised ∧ (event.get "payload").get "authorized_by" = .str comment

/-- A comment raises a card's cap once, under whichever request id. -/
def checkRaisedOnce : Except Raised Unit :=
  match event board.requests call.request, earlierRaise board call.reference call.comment with
  | none, some earlier => .error (.task "authorization_refused" ("the owner's comment " ++ call.comment ++
      " already authorized a raise of " ++ call.reference ++ "'s e2e cap (" ++
      (earlier.get "request_id").textOr ++ "); each answer raises once") 3)
  | _, _ => .ok ()

def checkAdd (add : Option ℤ) : Except Raised Unit :=
  match add with
  | some runs =>
    if runs < 1 then
      .error (.task "validation" ("--add is a whole number of runs, 1 or more; not " ++ toString runs) 2)
    else .ok ()
  | none => .ok ()

def checkExecutionRecord (card : Card) : Except Raised Unit :=
  if card.recordType = "issue" ∨ card.recordType = "product" then
    .error (.task "transition_forbidden" "Product issues and products cannot enter execution task columns" 3)
  else .ok ()

/-- What the request id of a raise stands for. -/
def raiseIdentity (runs : ℕ) (comment : String) : List (String × Json) :=
  [("add", .num (toString runs)), ("authorized_by", .str comment)]

def raisePayload (runs : ℕ) (comment decision : String) (card : Card) : Except Raised Json := do
  checkExecutionRecord card
  return .obj [("add", .num (toString runs)), ("cap", .num (toString (cardCap card + runs))),
    ("decision", .str decision), ("authorized_by", .str comment)]

/-- The raise is added to the card's own. -/
def raiseMutation (runs : ℕ) (decision : String) (board : Board) (card : Card) : Board :=
  { board with
    cards := Function.update board.cards call.reference (some { card with
      updatedAt := call.raisedAt
      capRaises := card.capRaises ++ [⟨runs, call.comment, decision, call.raisedAt⟩] }) }

end

variable (digest : String ↪ String)

def raiseE2eCap (board : Board) (call : RaiseCall) : Except Raised (Board × Reply) := do
  admitPo call.role call.actor
  checkAdd call.add
  checkCard board call
  let (decision, runs) ← authorizedRaise digest board.requests board.comments call.comment call.reference
    (call.add.map Int.toNat)
  checkRaisedOnce board call
  write (raisePayload runs call.comment decision) (raiseMutation call runs decision) board
    { kind := cardCapRaised
      role := call.role
      actor := call.actor
      reference := call.reference
      requestId := call.request
      identity := raiseIdentity runs call.comment
      eventId := call.eventId
      occurredAt := call.raisedAt
      now := call.now }

/-- The board after a call: one that raised left it as it was. -/
def afterRaise (board : Board) (call : RaiseCall) : Board :=
  match raiseE2eCap digest board call with
  | .ok (after, _) => after
  | .error _ => board

/-- The board after a sequence of calls. -/
def raiseRun (board : Board) (calls : List RaiseCall) : Board := calls.foldl (afterRaise digest) board

end Ummanu.Budget
