import Ummanu.Ledger.Requests

/-!
# Closing a sprint

A close is planned from explicit decisions, one for every issue the sprint declared and one for every card of
it that is not Done, and then performed step by step: the issues are closed with their verdicts, the Done cards
archived, the other cards moved to their disposition's column and archived, and the sprint closed. Each step
has a request id derived from the close's own and is done once its record is committed. The whole close is one
transaction.

Scope. The board holds what a close reads and writes: cards, issues, the state of the sprint, the records of
closes and of their steps, and the document of a close that is staged. The reasons for which a step may refuse
beside the ones that are modelled, and a crash, are answers of `Env.refuse`; a call that raises is rolled back.
The observer's handover, the closeout document and the comments of steps are outside the board.
-/

set_option autoImplicit false

namespace Ummanu.Sprint

open Library
open Ledger (Raised)

/-! ### The board -/

/-- `CardState`. -/
inductive Column
  | issues
  | ready
  | inProgress
  | validate
  | assessment
  | blocked
  | done
  deriving DecidableEq

def Column.value : Column → String
  | .issues => "issues"
  | .ready => "ready"
  | .inProgress => "in_progress"
  | .validate => "validate"
  | .assessment => "assessment"
  | .blocked => "blocked"
  | .done => "done"

inductive SprintState
  | opened
  | closed
  | stopped
  deriving DecidableEq

/-- A card; `typed` is whether it is the record of a product or of an issue. -/
structure Card where
  ref : String
  state : Column
  sprint : String
  typed : Bool := false
  archived : Bool := false
  deriving DecidableEq

/-- An issue, with the reason it was closed for. -/
structure Issue where
  ref : String
  closeReason : Option String := none
  deriving DecidableEq

/-- `SprintCloseDecision`. -/
structure Decision where
  ref : String
  verdict : String
  reason : String
  actual : Option String := none
  deriving DecidableEq

/-- `SprintCloseDecisions`. -/
structure Decisions where
  issues : List Decision := []
  cards : List Decision := []
  deriving DecidableEq

/-- `SprintCloseTargets`. -/
structure Targets where
  archive : List String := []
  remaining : List String := []
  remainingStates : List (String × Column) := []
  deriving DecidableEq

/-- The part of a decisions document that a conflict is about. -/
inductive Section
  | issues
  | cards
  deriving DecidableEq

/-- `SprintCloseConflict`. -/
structure Conflict where
  part : Section
  ref : String
  verdict : String
  actual : String
  deriving DecidableEq

/-- The document of a close: its plan, its frozen targets and its progress. -/
structure Document where
  targets : Targets
  decisions : Decisions
  closedIssues : List String := []
  archivedTasks : List String := []
  movedTasks : List String := []
  disposedTasks : List String := []
  conflicts : List Conflict := []
  deriving DecidableEq

/-- A committed record of a close or of one of its steps. -/
structure Record where
  requestId : String
  document : Option Document
  deriving DecidableEq

/-- What a close reads and writes. -/
structure Board where
  sprint : String
  state : SprintState
  declared : List String
  reserving : Bool
  cards : KeyedTable Card.ref
  issues : KeyedTable Issue.ref
  records : List Record := []
  staged : Option (String × Document) := none

/-- The steps of a close that may refuse. -/
inductive Step
  | issue (ref : String)
  | archive (ref : String)
  | move (ref : String)
  | disposeArchive (ref : String)
  | handover
  | closeout
  | transition
  deriving DecidableEq

/-- What a call of close runs in: its role, whether it has the instance directory, the edges its role may move a card
along, the cards with live dispatcher work, and the steps that fail. -/
structure Env where
  role : String
  hasInstance : Bool
  admits : Column → Column → Bool
  live : String → Bool
  refuse : Step → Option Raised

def Env.check (env : Env) (step : Step) : Except Raised Unit :=
  match env.refuse step with
  | some raised => .error raised
  | none => .ok ()

/-! ### Planning -/

def keepOpen : String := "open"
def alreadyClosed : String := "already_closed"
def alreadyMoved : String := "already_moved"

def issueCloseReasons : List String := ["resolved", "invalid", "duplicate", "wont_do"]

def dispositionTargets : String → Option Column
  | "done" => some .done
  | "drop" => some .ready
  | _ => none

def Targets.fromCards (cards : List Card) : Targets :=
  let tasks := cards.filter (·.typed = false)
  let remaining := tasks.filter (·.state ≠ .done)
  { archive := ((tasks.filter (·.state = .done)).map (·.ref)).insertionSort (· ≤ ·)
    remaining := (remaining.map (·.ref)).insertionSort (· ≤ ·)
    remainingStates := remaining.map fun card ↦ (card.ref, card.state) }

/-- `remaining_state_map`. -/
def Targets.stateOf (targets : Targets) (ref : String) : Option Column :=
  (targets.remainingStates.find? (·.1 = ref)).map (·.2)

/-- The cards that `list` answers for the sprint. -/
def Board.linked (board : Board) : List Card :=
  board.cards.rows.filter fun card ↦ card.archived = false ∧ card.sprint = board.sprint

def closeTargets (board : Board) : Targets :=
  if board.reserving then Targets.fromCards board.linked else {}

/-- A message that lists references. -/
def listing (message : String) (refs : List String) : Raised := .task "validation" (message ++ ", ".intercalate refs) 2

/-- References in the order of a sorted set. -/
def sortedSet (refs : List String) : List String := refs.dedup.insertionSort (· ≤ ·)

/-- Decisions in the order of their references. -/
def sortedDecisions (entries : List Decision) : List Decision :=
  entries.insertionSort fun first second ↦ first.ref ≤ second.ref

/-- The decisions name exactly the references they are asked for. -/
def checkNamed (entries : List Decision) (asked : List String) (unknown missing : String)
    (describe : String → String) : Except Raised Unit :=
  let refs := entries.map (·.ref)
  if refs.filter (· ∉ asked) ≠ [] then .error (listing unknown (sortedSet (refs.filter (· ∉ asked))))
  else if asked.filter (· ∉ refs) ≠ [] then .error (listing missing ((asked.filter (· ∉ refs)).map describe))
  else .ok ()

/-- The reason an issue carries, or that it is unknown. -/
def carriedText (carried : Option String) : String :=
  match carried with
  | some text => if text = "" then "unknown" else text
  | none => "unknown"

/-- A confirmation has to name what the issue carries. -/
def checkIssueConfirmation (entry : Decision) (issue : Issue) : Except Raised Unit :=
  match issue.closeReason with
  | none => .error (.task "validation" ("issue " ++ entry.ref ++ " is open, so there is nothing to confirm; " ++
      "decide it with a closing verdict or leave it open") 2)
  | some carried =>
    if entry.actual ≠ some carried then
      .error (.task "validation" ("issue " ++ entry.ref ++ " is closed as " ++ carriedText (some carried) ++
        ", not as " ++ entry.actual.getD "None") 2)
    else .ok ()

/-- `_check_issue_decisions_match_reality`. -/
def checkIssueDecisions (entries : List Decision) (issueState : String → Option Issue) : Except Raised Unit := do
  entries.forM fun entry ↦
    match issueState entry.ref with
    | some issue => if entry.verdict = alreadyClosed then checkIssueConfirmation entry issue else .ok ()
    | none => .ok ()
  let conflicting := entries.filter fun entry ↦
    entry.verdict ≠ alreadyClosed ∧ ((issueState entry.ref).bind (·.closeReason)).isSome
  if conflicting ≠ [] then
    throw (listing ("sprint close cannot decide issue(s) somebody else has already closed; confirm each " ++
      "with already_closed naming the reason it carries: ") ((conflicting.map fun entry ↦
        entry.ref ++ " (" ++ carriedText ((issueState entry.ref).bind (·.closeReason)) ++ ")").insertionSort (· ≤ ·)))
  else return ()

/-- `_check_card_confirmations_match_reality`. -/
def checkCardConfirmations (entries : List Decision) (stateOf : String → Option Column) : Except Raised Unit :=
  entries.forM fun entry ↦
    let carried := ((stateOf entry.ref).map (·.value)).getD "unknown"
    if entry.verdict = alreadyMoved ∧ entry.actual ≠ some carried then
      .error (.task "validation" ("card " ++ entry.ref ++ " is in " ++ carried ++ ", not in " ++
        entry.actual.getD "None") 2)
    else .ok ()

def planCloseDecisions (decisions : Decisions) (declared : List String) (targets : Targets)
    (issueState : String → Option Issue) : Except Raised Decisions := do
  checkNamed decisions.issues declared "sprint close was given a decision for issue(s) the sprint did not declare: "
    "sprint close needs an explicit decision for every declared issue; none was given for: " id
  checkNamed decisions.cards targets.remaining
    "sprint close was given a disposition for card(s) that are not open work of this sprint: "
    "sprint close refuses to leave cards on a closed contract; dispose of each of them: "
    fun ref ↦ ref ++ " (" ++ ((targets.stateOf ref).map (·.value)).getD "unknown" ++ ")"
  checkIssueDecisions decisions.issues issueState
  checkCardConfirmations decisions.cards targets.stateOf
  return { issues := sortedDecisions decisions.issues, cards := sortedDecisions decisions.cards }

/-- The issue is closed by the decision. -/
def closes (entry : Decision) : Bool := entry.verdict ≠ keepOpen ∧ entry.verdict ≠ alreadyClosed

/-- The column that a disposition moves its card to, if it moves it. -/
def moveTarget (targets : Targets) (entry : Decision) : Except Raised (Option Column) :=
  if entry.verdict = alreadyMoved then .ok none
  else
    match dispositionTargets entry.verdict with
    | some target => .ok (if targets.stateOf entry.ref = some target then none else some target)
    | none => .error (.value entry.verdict)

/-- `_check_close_decisions_are_writable`. -/
def checkWritable (env : Env) (plan : Decisions) (targets : Targets) : Except Raised Unit := do
  if plan.issues.any closes ∧ env.hasInstance = false then
    throw (.task "validation" "closing an issue with the sprint needs the instance directory; pass --instance" 2)
  else
    let moves ← plan.cards.mapM fun entry ↦ return (entry, ← moveTarget targets entry)
    let forbidden := moves.filter fun (entry, target) ↦
      target.any fun column ↦ !(targets.stateOf entry.ref).any (env.admits · column)
    if forbidden ≠ [] then
      throw (.task "close_plan_forbidden" ("a " ++ env.role ++ " close cannot move " ++
        ", ".intercalate (forbidden.map fun (entry, _) ↦ entry.ref ++ " (in " ++
          ((targets.stateOf entry.ref).map (·.value)).getD "an unknown column" ++ ", " ++
          entry.verdict ++ ")") ++ "; decide it with `task decide` (or move it) before closing") 3)
    else if (plan.cards.filter (env.live ·.ref)) ≠ [] then
      throw (.task "live_work" ("sprint close cannot dispose of card(s) whose dispatcher work is still live; " ++
        "settle them first: " ++ ", ".intercalate ((plan.cards.filter (env.live ·.ref)).map (·.ref))) 3)
    else return ()

/-! ### Steps -/

section

variable (env : Env) (board : Board) (entry : Decision) (requestId : String)

/-- The request id of a step is committed. -/
def Board.isCommitted : Bool := board.records.any (·.requestId = requestId)

/-- `committed_event` of a close. -/
def Board.closeDocument : Option Document :=
  (board.records.find? (·.requestId = requestId)).bind (·.document)

def notFound : Raised := .task "not_found" "task was not found" 2

def Board.card (ref : String) : Except Raised Card :=
  match board.cards.find ref with
  | some card => .ok card
  | none => .error notFound

def Board.issue (ref : String) : Except Raised Issue :=
  match board.issues.find ref with
  | some issue => .ok issue
  | none => .error notFound

/-- The effect of a step and its record. -/
def Board.putCard (card : Card) (requestId : String) : Board :=
  { board with cards := board.cards.put card, records := ⟨requestId, none⟩ :: board.records }

def Board.putIssue (issue : Issue) (requestId : String) : Board :=
  { board with issues := board.issues.put issue, records := ⟨requestId, none⟩ :: board.records }

/-- `archive`, as a step of a close. -/
def archiveCard (step : Step) (ref requestId : String) : Except Raised Board := do
  let card ← board.card ref
  if card.typed then
    throw (.task "transition_forbidden"
      "Product issues must be closed with ummanu issue close; products cannot be archived" 3)
  else if card.state = .inProgress ∨ card.state = .validate ∨ card.state = .assessment then
    throw (.task "live_work" ("archive refuses a card with live worker or reviewer work, or one parked in " ++
      "Assessment holding a retained worker") 3)
  else
    env.check step
    return board.putCard { card with archived := true } requestId

/-- `move`, as a step of a close. -/
def moveCard (ref : String) (target : Column) (requestId : String) :
    Except Raised Board := do
  let card ← board.card ref
  if card.typed then
    throw (.task "transition_forbidden" "Product issues and products cannot enter execution task columns" 3)
  else if env.admits card.state target = false then
    throw (.task "transition_forbidden"
      (env.role ++ " may not move " ++ card.state.value ++ " to " ++ target.value) 3)
  else
    env.check (.move ref)
    return board.putCard { card with state := target } requestId

/-- `close_issue`, as a step of a close. -/
def closeIssue : Except Raised Board := do
  if entry.verdict ∉ issueCloseReasons then
    throw (.task "validation" "close reason must be one of: resolved, invalid, duplicate, wont_do" 2)
  else
    let issue ← board.issue entry.ref
    if issue.closeReason.isSome then throw (.task "closed" "issue is already closed" 3)
    else
      env.check (.issue entry.ref)
      return board.putIssue { issue with closeReason := some entry.verdict } requestId

end

/-- `_close_conflict`: the conflict goes into the staged document, and the close stops. -/
def closeConflict {α : Type} (message : String) : Except Raised α := .error (.task "close_conflict" message 3)

/-- A row of `sprint_decisions` meets the constraints of its table. -/
def decisionRowOk (verdicts : List String) (entry : Decision) : Bool :=
  entry.verdict ∈ verdicts ∧
    (entry.actual.isSome ↔ entry.verdict = alreadyClosed ∨ entry.verdict = alreadyMoved) ∧ entry.reason ≠ ""

/-- `save_close`: the rows of the decisions are written, the first one of a subject. -/
def saveClose (decisions : Decisions) : Except Raised Unit :=
  if decisions.issues.all (decisionRowOk (issueCloseReasons ++ [keepOpen, alreadyClosed])) ∧
      decisions.cards.all (decisionRowOk ["done", "drop", alreadyMoved]) then .ok ()
  else .error (.task "backend_error" "PostgreSQL Sprint transaction rolled back" 1)

/-- A close that is under way: its document and the board. -/
structure Progress where
  document : Document
  board : Board

section Run

variable (digest : String ↪ String) (env : Env) (requestId : String)

/-- `_close_step_request_id`, and `_close_archive_request_id` for the step `archive`. -/
def closeStepRequestId (step ref : String) : String :=
  requestId ++ ":sprint-close-" ++ step ++ ":" ++ digest ref

/-- One issue of `_close_declared_issues`. -/
def closeDeclaredIssue (progress : Progress) (entry : Decision) : Except Raised Progress := do
  let stepId := closeStepRequestId digest requestId "issue" entry.ref
  let document := { progress.document with closedIssues := progress.document.closedIssues ++ [entry.ref] }
  if progress.board.isCommitted stepId then return { progress with document }
  else
    let current ← progress.board.issue entry.ref
    if current.closeReason.isSome then
      closeConflict ("issue " ++ entry.ref ++ " was closed as " ++ carriedText current.closeReason ++
        " by somebody else, and this close states " ++ entry.verdict ++
        "; retry with that decision amended to already_closed naming " ++ carriedText current.closeReason)
    else
      let board ← closeIssue env progress.board entry stepId
      return { document, board }

def closeDeclaredIssues (progress : Progress) : Except Raised Progress :=
  let pending := progress.document.decisions.issues.filter fun entry ↦
    closes entry ∧ entry.ref ∉ progress.document.closedIssues
  if pending = [] then .ok progress
  else if env.hasInstance = false then
    .error (.task "validation" "closing an issue with the sprint needs the instance directory; pass --instance" 2)
  else pending.foldlM (closeDeclaredIssue digest env requestId) progress

/-- A reference is added to a progress list once. -/
def addOnce (refs : List String) (ref : String) : List String := if ref ∈ refs then refs else refs ++ [ref]

/-- One card that stood in Done. -/
def archiveDone (progress : Progress) (ref : String) : Except Raised Progress := do
  let stepId := closeStepRequestId digest requestId "archive" ref
  let document := { progress.document with archivedTasks := addOnce progress.document.archivedTasks ref }
  if progress.board.isCommitted stepId then return { progress with document }
  else
    let board ← archiveCard env progress.board (.archive ref) ref stepId
    return { document, board }

/-- The move of a disposition. -/
def disposeMove (board : Board) (entry : Decision) (target : Option Column) : Except Raised Board :=
  match target with
  | none => .ok board
  | some column =>
    let stepId := closeStepRequestId digest requestId "dispose-move" entry.ref
    if board.isCommitted stepId then .ok board
    else do
      let current ← board.card entry.ref
      if current.state = column then
        closeConflict ("card " ++ entry.ref ++ " was moved to " ++ column.value ++ " by somebody else, not by " ++
          "this close; retry with that disposition amended to already_moved naming " ++ column.value)
      else moveCard env board entry.ref column stepId

/-- One card of `_dispose_remaining_cards`. -/
def disposeCard (targets : Targets) (progress : Progress) (entry : Decision) : Except Raised Progress := do
  let target ← moveTarget targets entry
  let moved ← disposeMove digest env requestId progress.board entry target
  let stepId := closeStepRequestId digest requestId "dispose-archive" entry.ref
  let document := { progress.document with
    movedTasks := addOnce progress.document.movedTasks entry.ref
    disposedTasks := addOnce progress.document.disposedTasks entry.ref }
  if moved.isCommitted stepId then return { document, board := moved }
  else
    let board ← archiveCard env moved (.disposeArchive entry.ref) entry.ref stepId
    return { document, board }

/-- The sprint is closed, unless it is. -/
def transitionClosed (board : Board) : Except Raised Board := do
  if board.state = .closed then return board
  else
    env.check .transition
    return { board with
      state := .closed
      records := ⟨requestId ++ ":typed-close", none⟩ :: board.records }

/-- `save_close` and `_run_close`. -/
def runClose (document : Document) (board : Board) : Except Raised Board := do
  saveClose document.decisions
  let issues ← closeDeclaredIssues digest env requestId { document, board }
  let archived ← document.targets.archive.foldlM (archiveDone digest env requestId) issues
  let disposed ← document.decisions.cards.foldlM (disposeCard digest env requestId document.targets) archived
  env.check .handover
  env.check .closeout
  let closed ← transitionClosed env requestId disposed.board
  return { closed with
    records := ⟨requestId, some disposed.document⟩ :: closed.records
    staged := none }

end Run

/-! ### Calls -/

def refuseRestated : Raised :=
  .task "validation" "this request id was staged with other decisions; retry it with the same file" 2

/-- Decisions in the order in which plans are compared. -/
def Decisions.sorted (decisions : Decisions) : Decisions :=
  { issues := sortedDecisions decisions.issues, cards := sortedDecisions decisions.cards }

/-- The entry amends the plan by confirming a conflict that was recorded. -/
def isAmendment (conflicts : List Conflict) (part : Section) (was now : Decision) : Bool :=
  match conflicts.find? (·.ref = now.ref) with
  | some conflict => was.ref = now.ref ∧ conflict.part = part ∧
      now.verdict = (match part with | .issues => alreadyClosed | .cards => alreadyMoved) ∧
      now.actual = some conflict.actual
  | none => false

/-- The entries of a part are the plan's, or amend it. -/
def amends (conflicts : List Conflict) (part : Section) (current offered : List Decision) : Bool :=
  current.length = offered.length ∧
    (current.zip offered).all fun (was, now) ↦ was = now ∨ isAmendment conflicts part was now = true

/-- The references whose entries were amended. -/
def amendedRefs (current offered : List Decision) : List String :=
  ((current.zip offered).filter fun (was, now) ↦ was ≠ now).map (·.1.ref)

/-- `_check_staged_decisions`: the document, amended where conflicts were recorded. -/
def checkStagedDecisions (document : Document) (offered : Option Decisions) : Except Raised Document :=
  match offered with
  | none => .ok document
  | some decisions =>
    let current := document.decisions.sorted
    if decisions.sorted = current then .ok document
    else if amends document.conflicts .issues current.issues decisions.sorted.issues ∧
        amends document.conflicts .cards current.cards decisions.sorted.cards then
      .ok { document with
        decisions := decisions.sorted
        conflicts := document.conflicts.filter fun conflict ↦
          match conflict.part with
          | .issues => conflict.ref ∉ amendedRefs current.issues decisions.sorted.issues
          | .cards => conflict.ref ∉ amendedRefs current.cards decisions.sorted.cards }
    else .error refuseRestated

/-- `_check_completed_close`, as far as the decisions go. -/
def checkCompletedClose (document : Document) (offered : Option Decisions) : Except Raised Unit :=
  match offered with
  | none => .ok ()
  | some decisions => if decisions.sorted = document.decisions.sorted then .ok () else .error refuseRestated

section Close

variable (digest : String ↪ String) (env : Env) (requestId : String) (offered : Option Decisions)

/-- What the declared issues are, where they can be read. -/
def declaredIssueState (board : Board) (ref : String) : Option Issue :=
  if env.hasInstance then board.issues.find ref else none

/-- The document of a close that is not staged yet. -/
def planClose (board : Board) : Except Raised Document := do
  let targets := closeTargets board
  let plan ← planCloseDecisions (offered.getD {}) board.declared targets (declaredIssueState env board)
  checkWritable env plan targets
  return { targets, decisions := plan }

def closeAtomic (board : Board) : Except Raised Board :=
  match board.closeDocument requestId with
  | some document => do
    checkCompletedClose document offered
    return board
  | none =>
    match board.staged with
    | some (stagedId, staged) =>
      if stagedId = requestId then do
        let document ← checkStagedDecisions staged offered
        runClose digest env requestId document board
      else do
        let document ← planClose env offered board
        runClose digest env requestId document board
    | none => do
      let document ← planClose env offered board
      runClose digest env requestId document board

/-- The board after a call of close: a call that raised, or that a crash cut, is rolled back. -/
def afterClose (board : Board) : Board :=
  match closeAtomic digest env requestId offered board with
  | .ok after => after
  | .error _ => board

end Close

/-- The board after a sequence of calls under one request id. -/
def closeRun (digest : String ↪ String) (requestId : String) (board : Board)
    (calls : List (Env × Option Decisions)) : Board :=
  calls.foldl (fun board call ↦ afterClose digest call.1 requestId call.2 board) board

end Ummanu.Sprint
