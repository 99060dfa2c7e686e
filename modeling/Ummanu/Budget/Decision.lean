import Ummanu.Ledger.RequestToken
import Ummanu.Ledger.Requests

/-!
# Decisions on a spent e2e budget

When a sprint, or a card outside every sprint, has spent its e2e runs, the dispatcher cuts a decision card
under a request id that names the scope, and a raise is authorized by an owner's comment on that card. An
after-merge batch cuts one decision for all its spent cards. Whether a decision is one of a scope is read off
the id it was cut under: `decisionPrefix` and digits, or a batch that names the card.

Scope. The ledger answers which record an event id names and what happened on the decision card; the board
answers the card's comments. `digest` is the hash by which a comment's record names its text.
-/

set_option autoImplicit false

namespace Ummanu.Budget

open Library Ledger

/-! ### Request ids -/

/-- `scope_ref.startswith("sprint:")`. -/
def isSprintRef (scopeRef : String) : Bool := "sprint:".toList.isPrefixOf scopeRef.toList

/-- `SPRINT_DECISION_ACTION` or `CARD_DECISION_ACTION`. -/
def decisionAction (scopeRef : String) : String := if isSprintRef scopeRef then "e2e-budget" else "e2e-cap"

def decisionPrefix (scopeRef : String) : String :=
  joinedTokens ["dispatcher", decisionAction scopeRef, scopeRef] ++ "-"

def decisionRequestId (scopeRef : String) (generation : ℕ) : String :=
  decisionPrefix scopeRef ++ toString generation

/-- The text before the generation of a batch decision. -/
def batchPrefix : String := "dispatcher-e2e-caps-"

def batchDecisionRequestId (spent : List String) (generation : ℕ) : String :=
  batchPrefix ++ toString generation ++ "-" ++ ".".intercalate (spent.map requestToken)

/-- The cards behind the generation of a batch id: digits, a dash, and a text on one line. -/
def batchTail (tail : List Char) : Option (List Char) :=
  match tail.dropWhile Char.isDigit with
  | '-' :: cards =>
    if tail.takeWhile Char.isDigit ≠ [] ∧ cards ≠ [] ∧ '\n' ∉ cards then some cards else none
  | _ => none

def batchDecisionCards (requestId : String) : List String :=
  match batchPrefix.toList.isPrefixOf? requestId.toList with
  | some tail =>
    match batchTail tail with
    | some cards => (cards.splitOn '.').map String.ofList
    | none => []
  | none => []

/-- The id is one of the scope's own decisions: its prefix, and digits. -/
def isDecisionOf (scopeRef requestId : String) : Bool :=
  match (decisionPrefix scopeRef).toList.isPrefixOf? requestId.toList with
  | some generation => isDigits generation
  | none => false

/-! ### The owner's answer -/

def ownerRole : String := "owner"

def handedToOwner : String := "handed_to_owner"

/-- `owner_answers_after_handover`, from a point of the history on; `handed` is whether the card was handed
over before. -/
def ownerAnswersAfterHandover (handed : Bool) : List Json → List String
  | [] => []
  | event :: rest =>
    let kind := (event.get "kind").textOr
    if kind = handedToOwner then ownerAnswersAfterHandover true rest
    else if handed = true ∧ kind = "commented" ∧ (event.get "payload").get "marker" = .str ownerRole ∧
        (event.get "event_id").truthy = true then
      (event.get "event_id").textOr :: ownerAnswersAfterHandover handed rest
    else ownerAnswersAfterHandover handed rest

/-- What an answer line says. -/
inductive Answer
  | raise (runs : ℕ)
  | no
  deriving DecidableEq

/-- `_RAISE` on a whole line. -/
def raiseLine (line : List Char) : Option ℕ := do
  let rest ← afterWord "e2e budget:".toList line
  let rest ← afterWord "raise".toList (rest.dropWhile isSpace)
  let digits := rest.dropWhile isSpace
  if digits ≠ rest ∧ isDigits digits = true then some (digitsValue digits) else none

/-- `_NO` on a whole line. -/
def noLine (line : List Char) : Bool :=
  match afterWord "e2e budget:".toList line with
  | some rest => afterWord "no".toList (rest.dropWhile isSpace) = some []
  | none => false

/-- The answer a line gives, if it is an answer line. -/
def lineAnswer (line : List Char) : Option Answer :=
  match raiseLine (strip line) with
  | some runs => some (.raise runs)
  | none => if noLine (strip line) then some .no else none

def ownerAnswer (body : String) : Option Answer :=
  match (splitLines [] body.toList).filterMap lineAnswer with
  | [.no] => some .no
  | [.raise runs] => if 0 < runs then some (.raise runs) else none
  | _ => none

/-! ### Authorization -/

/-- A comment on a card, as the board shows it. -/
structure Comment where
  marker : String
  body : String

/-- The body below the marker's line. -/
def Comment.text (comment : Comment) : String :=
  let head := comment.body.toList.takeWhile (· ≠ '\n')
  match comment.body.toList.dropWhile (· ≠ '\n') with
  | _ :: rest => if strip head = "[owner]".toList then String.ofList rest else ""
  | [] => ""

section Authorize

variable (digest : String ↪ String)

def commentBody (comments : List Comment) (recorded : String) : Option String :=
  (comments.find? fun comment ↦ comment.marker = ownerRole ∧ digest comment.text = recorded).map (·.text)

def refused (message : String) : Raised := .task "authorization_refused" message 3

/-- The record that an event id names. -/
def namedEvent (requests : Requests) (eventId : String) : Option Json :=
  match (eventIdOwner requests eventId).bind (committedEvent requests) with
  | some event => if (event.get "event_id").textOr = eventId then some event else none
  | none => none

/-- The id a card was created under. -/
def createdId (history : List Json) : Option String :=
  (history.find? (·.get "kind" = .str "created")).map fun created ↦ (created.get "request_id").textOr

/-- The decision card was cut for the scope, or for a batch that names it. -/
def isBudgetDecision (scopeRef : String) (history : List Json) : Bool :=
  match createdId history with
  | some requestId =>
    isDecisionOf scopeRef requestId ∨ isSprintRef scopeRef = false ∧ scopeRef ∈ batchDecisionCards requestId
  | none => false

/-- What the owner's comment says, once it is known to count. -/
def answeredRaise (eventId : String) (answer : Option Answer) (add : Option ℕ) : Except Raised ℕ :=
  match answer with
  | none => .error (refused ("the owner's comment " ++ eventId ++ " carries no single answer line (" ++
      "`e2e budget: raise <N>` or `e2e budget: no`), so it authorizes nothing"))
  | some .no => .error (refused ("the owner's comment " ++ eventId ++
      " answers `e2e budget: no`: it authorizes no raise"))
  | some (.raise runs) =>
    if add = none ∨ add = some runs then .ok runs
    else .error (refused ("--add " ++ toString (add.getD 0) ++ " is not what the owner recorded: the comment " ++
      eventId ++ " says `e2e budget: raise " ++ toString runs ++ "`"))

/-- `authorized_raise`: the decision card, and the runs the comment raises by. -/
def authorizedRaise (requests : Requests) (comments : String → List Comment) (authorizedBy : String)
    (scopeRef : String) (add : Option ℕ) : Except Raised (String × ℕ) :=
  let eventId := String.ofList (strip authorizedBy.toList)
  if eventId = "" then
    .error (refused
      "a raise needs --authorized-by: the event id of the owner's comment on the budget decision card")
  else
    match namedEvent requests eventId with
    | none => .error (refused ("--authorized-by " ++ eventId ++ " names no committed event"))
    | some event =>
      let payload := event.get "payload"
      let decision := (event.get "ref").textOr
      let history := events requests decision
      if event.get "kind" ≠ .str "commented" ∨ payload.get "marker" ≠ .str ownerRole then
        .error (refused ("--authorized-by " ++ eventId ++
          " is not an owner comment; only the owner raises an e2e budget"))
      else if isBudgetDecision scopeRef history = false then
        .error (refused ("--authorized-by " ++ eventId ++ " is a comment on " ++
          (if decision = "" then "no card" else decision) ++ ", which is not an e2e budget decision card of " ++
          scopeRef))
      else if eventId ∉ ownerAnswersAfterHandover false history then
        .error (refused ("--authorized-by " ++ eventId ++ " was not made after " ++ decision ++
          " was handed to the owner (`task handover`)"))
      else do
        let body := commentBody digest (comments decision) (payload.get "body_sha256").textOr
        let runs ← answeredRaise eventId (body.bind ownerAnswer) add
        return (decision, runs)

end Authorize

end Ummanu.Budget
