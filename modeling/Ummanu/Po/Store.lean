import Ummanu.Library.Durable
import Ummanu.Library.Json
import Ummanu.Library.KeyedTable
import Ummanu.Library.Texts

/-!
# What the PO service writes

The service keeps its work in three places that share no transaction: the board store with the sessions, the
turns and the request ids, a directory with one file for each queued input and one for those that were set
aside, and the sprints. Every call of the service reads or writes one of them, and may fail, before its durable
effect or after it.

Scope. A call is one durable step. A fingerprint is the inputs it is the digest of. Queue files carry numbers
in the place of names that sort in the order of submission; the ids of new sessions are numbers that were not
used before. A file that cannot be read is skipped, as in `pending` and `find_refused`.
-/

set_option autoImplicit false

namespace Ummanu.Po

open Library

/-! ### The durable state -/

inductive SessionState
  | opened
  | closed
  deriving DecidableEq

structure Session where
  id : String
  cli : String
  model : String
  effort : String
  title : Option String
  state : SessionState
  deriving DecidableEq

inductive TurnState
  | running
  | completed
  | failed
  | interrupted
  deriving DecidableEq

/-- `Turn`, with the prompt that it was started with. -/
structure Turn where
  sessionId : String
  seq : ℕ
  prompt : String
  state : TurnState
  deriving DecidableEq

/-- What a request id is bound to: an operation and its inputs. -/
inductive Fingerprint
  | session (cli model effort : String)
  | send (sessionId text : String) (card : Option Json)
  | sprint (sprintRef : String)
  deriving DecidableEq

def Fingerprint.operation : Fingerprint → String
  | .session .. => "po_session_create"
  | .send .. => "po_send"
  | .sprint .. => "po_sprint_session"

structure PoRequest where
  requestId : String
  fingerprint : Fingerprint
  sessionId : String
  seq : Option ℕ
  deriving DecidableEq

inductive Source
  | web
  | dispatcher
  | poService
  deriving DecidableEq

structure QueuedInput where
  name : ℕ
  sessionId : String
  text : String
  requestId : String
  source : Source
  card : Option Json
  note : Option String
  deriving DecidableEq

/-- What the request id of an input is bound to. -/
def QueuedInput.fingerprint (item : QueuedInput) : Fingerprint := .send item.sessionId item.text item.card

/-- Card facts are compared as values of the language. -/
def sameCard : Option Json → Option Json → Bool
  | none, none => true
  | some first, some second => first.same second
  | _, _ => false

/-- A queued input is a message with these inputs. -/
def QueuedInput.repeats (item : QueuedInput) : Fingerprint → Bool
  | .send sessionId text card => item.sessionId = sessionId ∧ item.text = text ∧ sameCard item.card card
  | _ => false

inductive SprintStatus
  | opened
  | closed
  | stopped
  deriving DecidableEq

def SprintStatus.value : SprintStatus → String
  | .opened => "open"
  | .closed => "closed"
  | .stopped => "stopped"

structure SprintRecord where
  ref : String
  status : SprintStatus
  poSession : Option String
  allowedProductions : List String := []
  deriving DecidableEq

/-- The board store, the queue directory with `refused/`, the sprints and the restart marker. -/
structure Store where
  sessions : KeyedTable Session.id
  requests : KeyedTable PoRequest.requestId
  turns : List Turn := []
  queue : List QueuedInput := []
  refused : List QueuedInput := []
  sprints : KeyedTable SprintRecord.ref
  /-- The request ids under which sprints were commented or written. -/
  sprintWrites : List String := []
  marker : Bool := false
  nextSession : ℕ := 0
  nextName : ℕ := 0

/-! ### Calls that fail -/

/-- What a call raises. -/
inductive PoError
  | refused (code message : String)
  | store (message : String)
  | sessionNotFound (message : String)
  | sessionClosed (message : String)
  | requestConflict (message : String)
  | turnInProgress (message : String)
  | titleRefused (message : String)
  | queue (message : String)
  | runner (message : String)
  | other (message : String)
  deriving DecidableEq

/-- `PoStoreError`, with its subclasses. -/
def PoError.isStoreError : PoError → Bool
  | .store _ | .sessionNotFound _ | .sessionClosed _ | .requestConflict _ | .turnInProgress _
  | .titleRefused _ => true
  | _ => false

def PoError.message : PoError → String
  | .refused _ message | .store message | .sessionNotFound message | .sessionClosed message
  | .requestConflict message | .turnInProgress message | .titleRefused message | .queue message
  | .runner message | .other message => message

/-- A failure of a call, before its durable effect or after it. -/
inductive Fault
  | before (error : PoError)
  | after (error : PoError)

/-- The result of an operation. -/
inductive Reply
  | session (sessionId effort : String) (repeated : Bool)
  | sent (sessionId : String) (queued : Bool) (seq : Option ℕ) (state : Option TurnState) (repeated : Bool)
  | sprintSession (sessionId : String) (created repeated : Bool)
  | stopped (sessionId : String) (seq : ℕ) (stopped : Bool)
  | closed (sessionId : String)
  | renamed (sessionId : String) (title : Option String)
  | status (queued : ℕ) (restartPending : Bool)
  | restart (deferred : Bool)
  deriving DecidableEq

/-- `_Acceptance`: how far a request got. -/
structure Acceptance where
  accepting : Bool := false
  answer : Option Reply := none

/-- The files that cannot be read, in the queue and in `refused/`. -/
structure Unreadable where
  queued : ℕ → Bool := fun _ ↦ false
  refused : ℕ → Bool := fun _ ↦ false

/-- What goes wrong while a program runs: the faults of its calls in their order, and the files that it cannot
read. -/
structure Mishaps where
  faults : List (Option Fault) := []
  unreadable : Unreadable := {}

/-- What a request works with in memory: what goes wrong, and its acceptance. -/
structure Memory extends Mishaps where
  acceptance : Acceptance := {}

/-- A program of the service. -/
abbrev Program := Durable Store Memory PoError

section Calls

variable {α : Type}

/-- The fault of the next call. -/
def nextFault : Program (Option Fault) := do
  let memory ← Durable.remembered
  Durable.remember fun memory ↦ { memory with faults := memory.faults.tail }
  return memory.faults.head?.join

/-- A call that only reads. -/
def ask (read : Store → Except PoError α) : Program α := do
  match ← nextFault with
  | some (.before error) | some (.after error) => throw error
  | none =>
    match read (← Durable.stored) with
    | .ok a => return a
    | .error error => throw error

/-- A call with a durable effect. -/
def call (run : Store → Except PoError (α × Store)) : Program α := do
  let fault ← nextFault
  match fault with
  | some (.before error) => throw error
  | _ =>
    match run (← Durable.stored) with
    | .error error => throw error
    | .ok (a, next) =>
      Durable.commit fun _ ↦ next
      match fault with
      | some (.after error) => throw error
      | _ => return a

end Calls

/-- The request is about to make the write that accepts it. -/
def accepting : Program Unit :=
  Durable.remember fun memory ↦ { memory with acceptance := { memory.acceptance with accepting := true } }

/-- The request is accepted, with the answer known by then. -/
def accepted (reply : Reply) : Program Unit :=
  Durable.remember fun memory ↦ { memory with acceptance := ⟨true, some reply⟩ }

/-! ### The board store -/

/-- `PoStore.request`. -/
def storeRequest (requestId : String) : Program (Option PoRequest) := ask fun store ↦ .ok (store.requests.find requestId)

section

variable (store : Store) (cli model effort : String) (title : Option String)

/-- A session, or the error that there is none. -/
def Store.session (sessionId : String) : Except PoError Session :=
  match store.sessions.find sessionId with
  | some session => .ok session
  | none => .error (.sessionNotFound ("there is no PO session " ++ sessionId))

/-- `PoStore.session`. -/
def storeSession (sessionId : String) : Program Session := ask (·.session sessionId)

def Store.knownRequest (requestId : String) (fingerprint : Fingerprint) :
    Except PoError (Option PoRequest) :=
  match store.requests.find requestId with
  | none => .ok none
  | some row =>
    if row.fingerprint ≠ fingerprint then
      .error (.requestConflict ("request id '" ++ requestId ++ "' already belongs to another " ++
        row.fingerprint.operation ++ " request; a request id is repeated only with the same operation and inputs"))
    else .ok (some row)

/-- A new session, under an id that was not used before. -/
def Store.newSession : Session :=
  { id := "po-" ++ toString store.nextSession, cli, model, effort, title, state := .opened }

/-- The store with a new session and the request row of it. -/
def Store.withSession (session : Session) (requestId : String) (fingerprint : Fingerprint) : Store :=
  { store with
    sessions := store.sessions.put session
    requests := store.requests.put { requestId, fingerprint, sessionId := session.id, seq := none }
    nextSession := store.nextSession + 1 }

/-- `claim_session`: the session, and whether it is new. -/
def Store.claimSession (requestId : String) (fingerprint : Fingerprint) :
    Except PoError ((Session × Bool) × Store) := do
  match ← store.knownRequest requestId fingerprint with
  | some row =>
    let session ← store.session row.sessionId
    return ((session, false), store)
  | none =>
    let session := store.newSession cli model effort title
    return ((session, true), store.withSession session requestId fingerprint)

/-- The turn of a session under a number. -/
def Store.turn (sessionId : String) (seq : ℕ) : Except PoError Turn :=
  match store.turns.find? fun turn ↦ turn.sessionId = sessionId ∧ turn.seq = seq with
  | some turn => .ok turn
  | none => .error (.other "KeyError")

/-- The session runs a turn. -/
def Store.busy (sessionId : String) : Bool :=
  store.turns.any fun turn ↦ turn.sessionId = sessionId ∧ turn.state = .running

/-- The number of the next turn of a session. -/
def Store.nextSeq (sessionId : String) : ℕ :=
  ((store.turns.filter (·.sessionId = sessionId)).map (·.seq)).foldr max 0 + 1

/-- `claim_turn`: the number of the turn, and whether it is new. -/
def Store.claimTurn (item : QueuedInput) (prompt : String) :
    Except PoError ((ℕ × Bool) × Store) := do
  match ← store.knownRequest item.requestId item.fingerprint with
  | some row => return ((row.seq.getD 0, false), store)
  | none =>
    let session ← store.session item.sessionId
    if session.state = .closed then
      throw (.sessionClosed ("PO session " ++ item.sessionId ++ " is closed; open a new session to continue"))
    else if store.busy item.sessionId then
      throw (.turnInProgress ("a turn is still running in PO session " ++ item.sessionId ++
        "; wait for its answer or stop it first"))
    else
      let seq := store.nextSeq item.sessionId
      return ((seq, true), { store with
        turns := store.turns ++ [⟨item.sessionId, seq, prompt, .running⟩]
        requests := store.requests.put {
          requestId := item.requestId, fingerprint := item.fingerprint, sessionId := item.sessionId, seq := some seq } })

/-- A running turn leaves its state. -/
def Store.settleTurn (sessionId : String) (seq : ℕ) (state : TurnState) : Store :=
  { store with turns := store.turns.map fun turn ↦
      if turn.sessionId = sessionId ∧ turn.seq = seq ∧ turn.state = .running then { turn with state } else turn }

end

/-! ### The queue -/

/-- `pending`, without the files that cannot be read. -/
def queuePending : Program (List QueuedInput) := do
  let queue ← ask fun store ↦ .ok store.queue
  let memory ← Durable.remembered
  return queue.filter fun item ↦ !memory.unreadable.queued item.name

/-- `find`. -/
def queueFind (requestId : String) : Program (Option QueuedInput) := do
  let pending ← queuePending
  return pending.find? (·.requestId = requestId)

/-- `find_refused`. -/
def queueFindRefused (requestId : String) : Program (Option QueuedInput) := do
  let refused ← ask fun store ↦ .ok store.refused
  let memory ← Durable.remembered
  return (refused.filter fun item ↦ !memory.unreadable.refused item.name).find? (·.requestId = requestId)

/-- The oldest input of every session that has one. -/
def headsOf : List String → List QueuedInput → List QueuedInput
  | _, [] => []
  | seen, item :: rest =>
    if item.sessionId ∈ seen then headsOf seen rest else item :: headsOf (item.sessionId :: seen) rest

/-- `heads`. -/
def queueHeads : Program (List QueuedInput) := do
  let pending ← queuePending
  return headsOf [] pending

/-- `put`. -/
def queuePut (sessionId text requestId : String) (source : Source) (card : Option Json) (note : Option String) :
    Program Unit :=
  call fun store ↦ .ok ((), { store with
    queue := store.queue ++ [{ name := store.nextName, sessionId, text, requestId, source, card, note }]
    nextName := store.nextName + 1 })

/-- The store without a queue file. -/
def Store.without (store : Store) (item : QueuedInput) : Store :=
  { store with queue := store.queue.filter (·.name ≠ item.name) }

/-- The store with an input in `refused/`. -/
def Store.setAside (store : Store) (item : QueuedInput) : Store :=
  { store with refused := store.refused.filter (·.name ≠ item.name) ++ [item] }

/-- `remove`. -/
def queueRemove (item : QueuedInput) : Program Unit := call fun store ↦ .ok ((), store.without item)

/-- `refuse`: the input is written to `refused/`, and then removed. -/
def queueRefuse (item : QueuedInput) : Program Unit := do
  call fun store ↦ .ok ((), store.setAside item)
  queueRemove item

/-! ### The sprints -/

/-- `SprintSessions.sprint`. -/
def sprintOf (sprintRef : String) : Program (Option SprintRecord) := ask fun store ↦ .ok (store.sprints.find sprintRef)

/-- A write of a sprint under a request id, which a repeat does not make again. -/
def sprintWrite (sprintRef requestId : String) (change : SprintRecord → SprintRecord) : Program Unit :=
  call fun store ↦
    if requestId ∈ store.sprintWrites then .ok ((), store)
    else
      match store.sprints.find sprintRef with
      | none => .error (.other "sprint was not found")
      | some sprint => .ok ((), { store with
          sprints := store.sprints.put (change sprint)
          sprintWrites := requestId :: store.sprintWrites })

end Ummanu.Po
