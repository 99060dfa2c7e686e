import Ummanu.Po.Store

/-!
# The PO service

`PoService.handle` turns one decoded request into one answer. A request that takes a request id runs inside
`_answer_id_operation`, which decides the answer from how far the request got: the operation says when it is
about to make the write that accepts it, and which answer it knows from then on. `submit` queues a message and
pumps the queue, `create_session` claims a session, and `sprint_session` answers the PO session of a sprint,
opening a fresh one if the recorded one is closed or missing.

Scope. The service lock is held through an operation. A launch is one call, which may leave its turn running or
settle it as failed; what the runner does with a turn afterwards is left out. The texts that a seed, a comment
and a production note consist of are parameters. Fields of a request that are made texts are given as texts.
-/

set_option autoImplicit false

namespace Ummanu.Po

open Library

/-- What the service is configured with: the efforts that are offered for a CLI, the CLI and model of a session
without a predecessor, and the texts that it writes. -/
structure Env where
  efforts : String → List String
  defaultChoice : Option (String × String)
  /-- `facts_problem`. -/
  factsProblem : Option Json → Option String
  /-- The production that an operation card's own input touches, and its sprint. -/
  operationOf : Option Json → Option (String × String)
  /-- `rights_note`. -/
  rightsNote : String → String → Option (List String) → String → String
  whyDocuments : String → List String
  /-- `seed_message`. -/
  seedMessage : String → Option String → String → List String → String

def clis : List String := ["claude", "codex"]

def noProduction : String := "none"

def stripped (text : String) : String := String.ofList (strip text.toList)

def required (value name : String) : Program String :=
  if stripped value = "" then throw (.refused "validation" (name ++ " is required")) else return stripped value

/-! ### Request ids -/

/-- What owns a request id. -/
inductive Owner
  | request (row : PoRequest)
  | queued (item : QueuedInput)

def reserve (requestId : String) (fingerprint : Fingerprint) : Program (Option Owner) := do
  match ← storeRequest requestId with
  | some row =>
    if row.fingerprint ≠ fingerprint then
      throw (.requestConflict ("request id '" ++ requestId ++ "' already belongs to another " ++
        row.fingerprint.operation ++ " request; a request id is repeated only with the same operation and inputs"))
    else return some (.request row)
  | none =>
    match ← queueFind requestId with
    | some item =>
      if ¬item.repeats fingerprint then
        throw (.requestConflict ("request id '" ++ requestId ++ "' already belongs to a message queued for PO session " ++
          item.sessionId ++ "; a request id is repeated only with the same operation and inputs"))
      else return some (.queued item)
    | none =>
      match ← queueFindRefused requestId with
      | some _ =>
        throw (.requestConflict ("request id '" ++ requestId ++
          "' belongs to a message the PO service set aside; send it again with a new form"))
      | none => return none

/-! ### The queue and the runner -/

section

variable (item : QueuedInput)

/-- The prompt of a turn: the text, and the note after it. -/
def promptOf : String :=
  match item.note with
  | some note =>
    if stripped note = "" then item.text
    else String.ofList (item.text.toList.rdropWhile isSpace) ++ "\n\n" ++ stripped note ++ "\n"
  | none => item.text

/-- A launch that fails leaves the turn running or settles it as failed. -/
def launch (sessionId : String) (seq : ℕ) : Program Unit := do
  match ← nextFault with
  | none => return ()
  | some (.before error) => throw error
  | some (.after error) =>
    Durable.commit fun store ↦ store.settleTurn sessionId seq .failed
    throw error

def sendRequest : Program Unit := do
  if stripped item.text = "" then throw (.runner "an empty message starts no turn")
  else
    let (seq, created) ← call (·.claimTurn item (promptOf item))
    if created then
      launch item.sessionId seq
      let _ ← ask (·.turn item.sessionId seq)
    return ()

/-- `_refuse`. -/
def refuseInput : Program Unit :=
  tryCatch (queueRefuse item) fun error ↦
    match error with
    | .queue _ => return ()
    | other => throw other

/-- The input of a turn that exists leaves the queue. -/
def removeInput : Program Unit :=
  tryCatch (queueRemove item) fun error ↦
    match error with
    | .queue _ => return ()
    | other => throw other

/-- The request row of an input whose hand-over failed, unless the store does not answer. -/
def knownAfterFailure : Program (Option (Option PoRequest)) :=
  tryCatch (do return some (← storeRequest item.requestId)) fun error ↦
    if error.isStoreError then return none else throw error

/-- The hand-over after `send_request` raised. -/
def handOverFailed (error : PoError) : Program Unit :=
  match error with
  | .turnInProgress _ => return ()
  | .sessionNotFound _ | .sessionClosed _ | .requestConflict _ => refuseInput item
  | error => do
    match ← knownAfterFailure item with
    | none => return ()
    | some none =>
      match error with
      | .runner _ => refuseInput item
      | _ => return ()
    | some (some _) => removeInput item

/-- What `send_request` came to. -/
def sendOutcome : Program (Option PoError) :=
  tryCatch (do sendRequest item; return none) fun error ↦ return some error

def handOver : Program Unit := do
  match ← sendOutcome item with
  | none => removeInput item
  | some error => handOverFailed item error

end

/-- The inputs that a pump hands over, none if the queue or the store does not answer. -/
def idleHeads : Program (List QueuedInput) :=
  tryCatch
    (do
      let heads ← queueHeads
      if heads = [] then return []
      else
        let turns ← ask fun store ↦ .ok store.turns
        return heads.filter fun item ↦ !turns.any fun turn ↦ turn.sessionId = item.sessionId ∧ turn.state = .running)
    fun error ↦
      match error with
      | .queue _ => return []
      | error => if error.isStoreError then return [] else throw error

/-- The inputs are handed over one after the other. -/
def handOverAll : List QueuedInput → Program Unit
  | [] => return ()
  | item :: rest => do
    handOver item
    handOverAll rest

def pump : Program Unit := do
  let marker ← ask fun store ↦ .ok store.marker
  if marker then return ()
  else
    let heads ← idleHeads
    handOverAll heads

/-! ### The operations -/

section Operations

variable (env : Env)

def effortList : Program (String → List String) := ask fun _ ↦ .ok env.efforts

def requireExplicitEffort (efforts : String → List String) (cli effort : String) : Program String :=
  if stripped effort ∈ efforts cli then return stripped effort
  else throw (.refused "validation" ("'" ++ stripped effort ++ "' is not an effort this installation offers for " ++
    cli ++ ": " ++ ", ".intercalate (efforts cli)))

def createSession (cli model effort requestId : String) : Program Reply := do
  let requestId ← required requestId "request_id"
  if cli ∉ clis then
    throw (.refused "validation" ("a PO session runs claude or codex, not '" ++ cli ++ "'"))
  else if stripped model = "" then throw (.refused "validation" "a PO session needs a model")
  else
    let efforts ← effortList env
    let effort ← requireExplicitEffort efforts cli effort
    match ← reserve requestId (.session cli (stripped model) effort) with
    | some (.request row) =>
      accepted (.session row.sessionId effort true)
      let session ← storeSession row.sessionId
      return .session session.id session.effort true
    | _ =>
      accepting
      let (session, created) ← call (·.claimSession cli (stripped model) effort none requestId
        (.session cli (stripped model) effort))
      accepted (.session session.id session.effort (!created))
      return .session session.id session.effort (!created)

def sent (sessionId requestId : String) (repeated : Bool) : Program Reply := do
  match ← storeRequest requestId with
  | some { sessionId := owner, seq := some seq, .. } =>
    let turn ← ask (·.turn owner seq)
    return .sent sessionId false (some turn.seq) (some turn.state) repeated
  | _ =>
    match ← queueFind requestId with
    | some _ => return .sent sessionId true none none repeated
    | none =>
      throw (.refused "unavailable" "the message was queued and then set aside; the service journal says why")

def knownAnswer (sessionId : String) : Owner → Reply
  | .request row => .sent sessionId false row.seq none true
  | .queued _ => .sent sessionId true none none true

/-- The sprint of an operation card, if it can be read. -/
def readableSprint (sprintRef : String) : Program (Option SprintRecord) :=
  tryCatch (sprintOf sprintRef) fun _ ↦ return none

def productionRule (card : Option Json) (requestId : String) : Program (Option String) := do
  match env.factsProblem card with
  | some problem =>
    throw (.refused "unavailable" (problem ++ "; a dispatcher input is executed only with its card's facts"))
  | none =>
    match env.operationOf card with
    | none => return none
    | some (production, sprintRef) =>
      if production = noProduction ∨ sprintRef = "" then
        return some (env.rightsNote production sprintRef none (requestId ++ ":allow-production"))
      else
        match ← readableSprint sprintRef with
        | none =>
          throw (.refused "unavailable" ("sprint " ++ sprintRef ++ " cannot be read for its allowed productions"))
        | some sprint =>
          return some (env.rightsNote production sprint.ref (some sprint.allowedProductions)
            (requestId ++ ":allow-production"))

/-- The note that an input is queued with. -/
def inputNote (source : Source) (card : Option Json) (requestId : String) : Program (Option String) :=
  if source = .dispatcher then productionRule env card requestId else return none

/-- `submit`; a text of another type than text is none. -/
def submit (sessionId : String) (text : Option String) (requestId : String) (source : Source) (card : Option Json) :
    Program Reply := do
  let requestId ← required requestId "request_id"
  let sessionId ← required sessionId "session_id"
  if text.any (stripped · = "") then throw (.refused "validation" "an empty message starts no turn")
  else if source = .poService then
    throw (.refused "validation" "a PO input comes from web or dispatcher, not 'po-service'")
  else if card.isSome ∧ source ≠ .dispatcher then
    throw (.refused "validation" "only a dispatcher input carries card facts")
  else if card.any (!·.isObject) then throw (.refused "validation" "card facts are a JSON object")
  else
    match text with
    | none => throw (.other "AttributeError")
    | some text =>
      match ← reserve requestId (.send sessionId text card) with
      | some owner =>
        accepted (knownAnswer sessionId owner)
        sent sessionId requestId true
      | none =>
        let session ← storeSession sessionId
        if session.state = .closed then
          throw (.sessionClosed ("PO session " ++ sessionId ++ " is closed; open a new session to continue"))
        else
          let note ← inputNote env source card requestId
          accepting
          queuePut sessionId text requestId source card note
          accepted (.sent sessionId true none none false)
          pump
          sent sessionId requestId false

def sessionOrNone (sessionId : Option String) : Program (Option Session) :=
  match sessionId with
  | none => return none
  | some sessionId =>
    if sessionId = "" then return none
    else tryCatch (do return some (← storeSession sessionId)) fun error ↦
      match error with
      | .sessionNotFound _ => return none
      | other => throw other

def successorChoice (efforts : String → List String) (previous : Option Session) : Option (String × String × String) :=
  let choice := match previous with
    | some session => some (session.cli, session.model, session.effort)
    | none => env.defaultChoice.map fun (cli, model) ↦ (cli, model, "")
  choice.map fun (cli, model, effort) ↦
    (cli, model, if effort ∈ efforts cli then effort else (efforts cli).head?.getD "")

/-- The seed of a session is somewhere. -/
def seeded (seedId : String) : Program Bool := do
  match ← storeRequest seedId with
  | some _ => return true
  | none =>
    match ← queueFind seedId with
    | some _ => return true
    | none =>
      match ← queueFindRefused seedId with
      | some _ => return true
      | none => return false

/-- The seed is queued as the first input of a session, unless it is somewhere. -/
def queueSeed (sessionId text seedId : String) : Program Unit := do
  let found ← seeded seedId
  if found then return () else queuePut sessionId text seedId .poService none none

/-- `_reseed`, from the point where the sprint's session is known not to be open. -/
def reseedSteps (sprint : SprintRecord) (current : Option Session) (sessionId requestId : String) : Program Unit := do
  let why := if current.isSome then "is closed" else "no longer exists"
  let documents ← ask fun _ ↦ .ok env.whyDocuments
  queueSeed sessionId (env.seedMessage sprint.ref sprint.poSession why (documents sprint.ref)) (requestId ++ ":seed")
  sprintWrite sprint.ref (requestId ++ ":comment") id
  sprintWrite sprint.ref (requestId ++ ":record") fun record ↦ { record with poSession := some sessionId }

def reseed (sprint : SprintRecord) (sessionId requestId : String) : Program Unit := do
  if sprint.poSession = some sessionId then return ()
  else
    let current ← sessionOrNone sprint.poSession
    if current.any (·.state = .opened) then return ()
    else reseedSteps env sprint current sessionId requestId

/-- `sprint_session`, for an id that owns nothing yet. -/
def resolveFresh (sprint : SprintRecord) (requestId : String) : Program Reply := do
  if sprint.status ≠ .opened then
    throw (.refused "validation" ("sprint " ++ sprint.ref ++ " is " ++ sprint.status.value ++
      "; its PO session is not resolved"))
  else
    let previous ← sessionOrNone sprint.poSession
    match previous.filter (·.state = .opened) with
    | some session => return .sprintSession session.id false false
    | none =>
      let efforts ← effortList env
      match successorChoice env efforts previous with
      | none => throw (.refused "validation" "this installation offers no model for a PO session")
      | some (cli, model, effort) =>
        let effort ← requireExplicitEffort efforts cli effort
        accepting
        let (session, _) ← call (·.claimSession cli model effort (some sprint.ref) requestId (.sprint sprint.ref))
        reseed env sprint session.id requestId
        accepted (.sprintSession session.id true false)
        pump
        return .sprintSession session.id true false

def sprintSession (sprintRef requestId : String) : Program Reply := do
  let requestId ← required requestId "request_id"
  let sprintRef ← required sprintRef "sprint_ref"
  let known ← reserve requestId (.sprint sprintRef)
  match ← sprintOf sprintRef with
  | none => throw (.refused "validation" ("there is no sprint " ++ sprintRef))
  | some sprint =>
    match known with
    | some (.request row) =>
      accepting
      reseed env sprint row.sessionId requestId
      accepted (.sprintSession row.sessionId true true)
      return .sprintSession row.sessionId true true
    | _ => resolveFresh env sprint requestId

def stopTurn (sessionId : String) (seq : ℕ) : Program Reply := do
  let sessionId ← required sessionId "session_id"
  let stopped ← call fun store ↦ .ok
    (store.turns.any (fun turn ↦ turn.sessionId = sessionId ∧ turn.seq = seq ∧ turn.state = .running),
      store.settleTurn sessionId seq .interrupted)
  return .stopped sessionId seq stopped

def closeSession (sessionId : String) : Program Reply := do
  let sessionId ← required sessionId "session_id"
  let pending ← queuePending
  let waiting := pending.filter (·.sessionId = sessionId)
  if waiting ≠ [] then
    throw (.turnInProgress (toString waiting.length ++ " message(s) queued in PO session " ++ sessionId ++
      " have not run yet; wait for their answers, then close"))
  else
    call fun store ↦ do
      let session ← store.session sessionId
      if session.state = .closed then return ((), store)
      else if store.busy sessionId then
        throw (.turnInProgress ("a turn is still running in PO session " ++ sessionId ++
          "; wait for its answer or stop it, then close"))
      else return ((), { store with sessions := store.sessions.put { session with state := .closed } })
    return .closed sessionId

/-- `rename_session`; what a title may be is the parameter's to say. -/
def renameSession (sessionTitle : String → Except PoError (Option String)) (sessionId title : String) :
    Program Reply := do
  let sessionId ← required sessionId "session_id"
  call fun store ↦ do
    let title ← sessionTitle title
    let session ← store.session sessionId
    return (.renamed sessionId title, { store with sessions := store.sessions.put { session with title } })

def status : Program Reply := do
  let pending ← queuePending
  let marker ← ask fun store ↦ .ok store.marker
  return .status pending.length marker

def requestRestart : Program Reply := do
  call fun store ↦ .ok ((), { store with marker := true })
  let running ← ask fun store ↦ .ok (store.turns.any (·.state = .running))
  return .restart running

end Operations

/-! ### The wire -/

/-- A decoded request. One without an operation, or whose fields do not fit it, is malformed. -/
inductive Request
  | malformed (message : String)
  | createSession (cli model effort requestId : String)
  | submit (sessionId : String) (text : Option String) (requestId : String) (source : Source) (card : Option Json)
  | sprintSession (sprintRef requestId : String)
  | stopTurn (sessionId : String) (seq : ℕ)
  | closeSession (sessionId : String)
  | renameSession (sessionId title : String)
  | status
  | restart

/-- The answer document. -/
inductive Answer
  | ok (reply : Reply)
  | error (code message : String) (nothingWritten : Bool)
  deriving DecidableEq

/-- `_DEFINITE_REFUSALS`, with the code that a definite refusal has. -/
def PoError.definite : PoError → Bool
  | .refused code _ => code = "validation"
  | .requestConflict _ | .sessionClosed _ | .sessionNotFound _ | .runner _ => true
  | _ => false

def refusal (error : PoError) (nothingWritten : Bool) : Answer :=
  match error with
  | .refused code message => .error code message nothingWritten
  | .sessionNotFound message => .error "session_not_found" message nothingWritten
  | .titleRefused message => .error "validation" message nothingWritten
  | .sessionClosed message => .error "session_closed" message nothingWritten
  | .requestConflict message => .error "request_conflict" message nothingWritten
  | .turnInProgress message => .error "turn_in_progress" message nothingWritten
  | .runner message => .error "validation" message nothingWritten
  | .store message | .queue message => .error "unavailable" message false
  | .other message => .error "unavailable" ("the PO service failed: " ++ message) false

/-- The answer to an operation that raised. -/
def raisedAnswer (acceptance : Acceptance) (error : PoError) : Answer :=
  match acceptance.answer with
  | some reply => .ok reply
  | none =>
    if acceptance.accepting then
      .error "outcome_unknown" ("the PO service may have accepted this request (" ++ error.message ++
        "); repeat it with the same request id") false
    else refusal error error.definite

def answerIdOperation (method : Program Reply) : Program Answer :=
  tryCatch (do return .ok (← method)) fun error ↦ do
    let memory ← Durable.remembered
    return raisedAnswer memory.acceptance error

/-- The answer to an operation that takes no request id. -/
def answerOther (method : Program Reply) : Program Answer :=
  tryCatch (do return .ok (← method)) fun error ↦ return refusal error false

def handle (env : Env) (sessionTitle : String → Except PoError (Option String)) : Request → Program Answer
  | .malformed message => return .error "validation" message true
  | .createSession cli model effort requestId => answerIdOperation (Po.createSession env cli model effort requestId)
  | .submit sessionId text requestId source card =>
    answerIdOperation (Po.submit env sessionId text requestId source card)
  | .sprintSession sprintRef requestId => answerIdOperation (Po.sprintSession env sprintRef requestId)
  | .stopTurn sessionId seq => answerOther (Po.stopTurn sessionId seq)
  | .closeSession sessionId => answerOther (Po.closeSession sessionId)
  | .renameSession sessionId title => answerOther (Po.renameSession sessionTitle sessionId title)
  | .status => answerOther Po.status
  | .restart => answerOther requestRestart

/-! ### Histories -/

/-- Something that happens to the service: a request, a pump of its loop, a turn that the runner settles, or a
sprint that others write. -/
inductive Event
  | request (request : Request)
  | pump
  | settle (sessionId : String) (seq : ℕ) (state : TurnState)
  | sprint (record : SprintRecord)

section

variable (env : Env) (sessionTitle : String → Except PoError (Option String))

def Event.program : Event → Program Unit
  | .request asked => do
    let _ ← handle env sessionTitle asked
    return ()
  | .pump => Po.pump
  | .settle sessionId seq state => call fun store ↦ .ok ((), store.settleTurn sessionId seq state)
  | .sprint record => call fun store ↦ .ok ((), { store with sprints := store.sprints.put record })

/-- A request or another program starts with what will go wrong. -/
def Memory.start (mishaps : Mishaps) : Memory := { mishaps with }

/-- The program of an event, with what goes wrong. -/
def tick (input : Event × Mishaps) : Program Unit :=
  fun store _ ↦ input.1.program env sessionTitle store (Memory.start input.2)

/-- The store after a history, each event of which a crash may have cut short. -/
def storeAfter (start : Store) (history : List ((Event × Mishaps) × Option ℕ)) : Store :=
  history.foldl (crashStep (tick env sessionTitle) fun _ ↦ Memory.start {}) start

end

/-- The store of an installation that has not served a request. -/
def Store.initial (sprints : KeyedTable SprintRecord.ref) : Store where
  sessions := KeyedTable.empty Session.id
  requests := KeyedTable.empty PoRequest.requestId
  sprints := sprints

end Ummanu.Po
