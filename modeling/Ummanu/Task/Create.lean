import Ummanu.Ledger.RequestsLaw
import Ummanu.Sprint.Close

/-!
# Creating a card

`_create` cuts a card. It first admits the call: the arguments are checked, a wait card's deadline is held
against the clock, the named sprint is read for its state, its reservations and its executor pins, the PO
sessions that a wait reports to are looked up, and the guard asks which open sprints reserve the project. From
what was admitted it builds the payload that the request id stands for. Only then is the ledger read: a
committed record of the id is replayed if it carries the same payload, and otherwise the card is written.

Scope. The checks that read the arguments alone are one parameter, and stand before the others; texts are
stripped and redacted. A reading that fails for the store's sake, the index of reservations as a cache, the
audit record of a denied write, and the revisions in a record are left out. A time is a number of seconds and is
written as its digits.
-/

set_option autoImplicit false

namespace Ummanu.Task

open Library Ledger
open Ummanu.Sprint (Column)

/-! ### The board and the call -/

inductive TaskType
  | code
  | research
  | infra
  | decision
  | operation
  | wait
  deriving DecidableEq

def TaskType.value : TaskType → String
  | .code => "code"
  | .research => "research"
  | .infra => "infra"
  | .decision => "decision"
  | .operation => "operation"
  | .wait => "wait"

/-- No head runs a card of the type: the PO service executes it, or the dispatcher. -/
def TaskType.headless : TaskType → Bool
  | .decision | .operation | .wait => true
  | .code | .research | .infra => false

/-- `TaskReview`. -/
inductive Review
  | required
  | skipped
  deriving DecidableEq

def Review.value : Review → String
  | .required => "required"
  | .skipped => "skipped"

/-- The column that a card is created in. -/
inductive Target
  | ready
  | issues
  | inProgress
  deriving DecidableEq

def Target.value : Target → String
  | .ready => "ready"
  | .issues => "issues"
  | .inProgress => "in_progress"

def Target.column : Target → Column
  | .ready => .ready
  | .issues => .issues
  | .inProgress => .inProgress

inductive SprintStatus
  | opened
  | closed
  | stopped
  deriving DecidableEq

/-- What a sprint says about one of its executors. -/
inductive Executor
  | unset
  | pinned (profile : String)
  | unreadable
  deriving DecidableEq

/-- A sprint, as `SprintReader.show` answers it. -/
structure Sprint where
  status : SprintStatus
  reservations : List String
  worker : Executor := .unset
  reviewer : Executor := .unset

inductive SessionState
  | opened
  | closed
  deriving DecidableEq

/-- A card, as far as a create writes it and its moves change it. -/
structure Card where
  ref : String
  column : Column
  project : String
  type : TaskType
  sprint : String
  head : String
  reviewHead : String
  deriving DecidableEq

/-- Where a wait reports. -/
inductive Address
  | observer
  | dependents
  | poSession (session : String)
  | card (ref : String)
  deriving DecidableEq

/-- `--wait-deadline`: a moment, or a duration from now. -/
inductive Deadline
  | moment (time : ℕ)
  | duration (seconds : ℕ)
  deriving DecidableEq

/-- The flags of a wait card: as given, and what the flags that a create reads are parsed to. -/
structure WaitRequest where
  flags : Json
  waitUntil : Option ℕ := none
  deadline : Deadline
  returns : List Address := []

/-- The PO turn that a create runs in. -/
structure Origin where
  session : String
  request : String

/-- A call of `_create`; `declared` is the sprint that the caller's environment names. -/
structure Create where
  role : String
  actor : String
  declared : String := ""
  project : String
  type : TaskType
  title : String
  description : String := ""
  target : Target := .ready
  reference : String := ""
  blockedBy : String := ""
  head : String := ""
  reviewHead : String := ""
  slug : String := ""
  baseBranch : String := ""
  seedRef : String := ""
  supersedes : String := ""
  complexity : String := "standard"
  familyPreference : String := "auto"
  codexLaunchMode : String := ""
  sprint : String := ""
  budgetEvent : String := ""
  sprintOverride : Bool := false
  sprintOverrideReason : String := ""
  review : Review
  liveImpact : Bool := false
  touchesProduction : String := ""
  wait : Option WaitRequest := none
  origin : Option Origin := none
  requestId : String
  restoring : Bool := false
  stewardReport : Bool := false

/-- What a create reads. -/
structure World where
  requests : Requests
  cards : KeyedTable Card.ref
  sprints : String → Option Sprint
  sessions : String → Option SessionState
  activeSprintProjects : String → List String
  registeredProjects : List String
  now : ℕ

/-- What a create is built with: the digest of texts, the checks that read the arguments alone, and the
reference that a project's next card takes. -/
structure Env where
  digest : String ↪ String
  checkArguments : Create → Except Raised Unit
  nextProjectReference : KeyedTable Card.ref → String → String

/-! ### Admission -/

def parseDeadline (deadline : Deadline) (now : ℕ) : Except Raised ℕ :=
  let moment := match deadline with
    | .moment time => time
    | .duration seconds => now + seconds
  if moment ≤ now then
    .error (.task "validation" ("--wait-deadline " ++ toString moment ++ " has already passed (now " ++
      toString now ++ ")") 2)
  else .ok moment

structure WaitSpec where
  deadline : ℕ
  returns : List Address
  createdAt : ℕ

/-- `WaitSpec.text`, as far as it differs from the flags. -/
def WaitSpec.text (spec : WaitSpec) : Json :=
  .obj [("deadline", .num (toString spec.deadline)), ("created_at", .num (toString spec.createdAt))]

def buildWaitSpec (request : WaitRequest) (returns : List Address) (now : ℕ) : Except Raised WaitSpec := do
  let moment ← parseDeadline request.deadline now
  match request.waitUntil with
  | some time =>
    if moment < time then
      throw (.task "validation" ("--wait-until " ++ toString time ++ " lies after the deadline " ++
        toString moment) 2)
    else return ⟨moment, returns, now⟩
  | none => return ⟨moment, returns, now⟩

section

variable (world : World) (call : Create)

/-- Inside a PO turn a wait that names no address reports to the session of that turn. -/
def Create.returns (request : WaitRequest) : List Address :=
  if request.returns ≠ [] then request.returns
  else (call.origin.map fun origin ↦ Address.poSession origin.session).toList

/-- The spec of a wait card. -/
def admitWait : Except Raised (Option WaitSpec) :=
  match call.type, call.wait with
  | .wait, some request => do
    let spec ← buildWaitSpec request (call.returns request) world.now
    return some spec
  | .wait, none =>
    .error (.task "validation"
      "a wait card needs exactly one target: --wait-run, --wait-card or --wait-until" 2)
  | type, some _ =>
    .error (.task "validation" ("the --wait-* flags belong to a wait card; a " ++ type.value ++
      " card takes none") 2)
  | _, none => .ok none

def noProduction : String := "none"

/-- `production_create_refusal`, as far as it reads the registry. -/
def checkProduction : Except Raised Unit :=
  if call.type = .operation ∧ call.touchesProduction ≠ "" ∧ call.touchesProduction ≠ noProduction ∧
      call.touchesProduction ∉ world.registeredProjects then
    .error (.task "validation"
      ("--touches-production names unknown registered project: " ++ call.touchesProduction) 2)
  else .ok ()

/-- `show`, of a sprint. -/
def World.showSprint (ref : String) : Except Raised Sprint :=
  match world.sprints ref with
  | some sprint => .ok sprint
  | none => .error (.task "not_found" "sprint was not found" 2)

/-- The profile that a role of a card takes under its sprint's pin. -/
def executorPin (sprintRef role asked : String) (executor : Executor) : Except Raised String :=
  match executor with
  | .unset => .ok asked
  | .unreadable => .error (.task "sprint_executor_unreadable" ("sprint " ++ sprintRef ++ " carries a " ++ role ++
      " pin that is not a head profile; repair the sprint entity before writing its cards") 3)
  | .pinned profile =>
    if asked ≠ "" ∧ asked ≠ profile then
      .error (.task "sprint_executor_pinned" ("sprint " ++ sprintRef ++ " pins its " ++ role ++
        " to head profile '" ++ profile ++ "'; this card asks for '" ++ asked ++ "'") 3)
    else .ok profile

/-- `_sprint_executor_pins`, for a call that writes both fields. -/
def sprintExecutorPins (sprintRef : String) (sprint : Sprint) (head reviewHead : String) :
    Except Raised (String × String) := do
  let worker ← executorPin sprintRef "worker" head sprint.worker
  let reviewer ← executorPin sprintRef "reviewer" reviewHead sprint.reviewer
  return (worker, reviewer)

def refuseUnpinnedReviewerOnSkipped (sprintRef reviewHead : String) (sprint : Option Sprint) :
    Except Raised Unit :=
  if reviewHead = "" then .ok ()
  else do
    let pinned ← match sprint with
      | some sprint => executorPin sprintRef "reviewer" "" sprint.reviewer
      | none => .ok ""
    if reviewHead ≠ pinned then
      throw (.task "validation" ("--review-head '" ++ reviewHead ++
        "' names a reviewer for a card whose review is skipped") 2)
    else return ()

/-- The heads that a card linked to a sprint takes. -/
def admitLinked (sprint : Sprint) : Except Raised (String × String) := do
  if sprint.status ≠ .opened then
    throw (.task "closed" "cannot link a new card to a closed or stopped sprint" 3)
  else if call.project ∉ sprint.reservations ∧ call.type ≠ .wait then
    throw (.task "sprint_project_unreserved" ("project '" ++ call.project ++ "' is not reserved by sprint " ++
      call.sprint) 3)
  else
    let heads ← if call.restoring = false ∧ call.type.headless = false then
        sprintExecutorPins call.sprint sprint call.head call.reviewHead
      else .ok (call.head, call.reviewHead)
    if call.review = .skipped then
      refuseUnpinnedReviewerOnSkipped call.sprint call.reviewHead (some sprint)
    return heads

/-- The heads of the card. -/
def admitSprint : Except Raised (String × String) :=
  if call.sprint ≠ "" then do
    let sprint ← world.showSprint call.sprint
    admitLinked call sprint
  else do
    if call.review = .skipped then refuseUnpinnedReviewerOnSkipped "" call.reviewHead none
    return (call.head, call.reviewHead)

/-- `_refuse_unknown_po_sessions`. -/
def refuseUnknownPoSession (session : String) : Except Raised Unit :=
  match world.sessions session with
  | none => .error (.task "validation" ("--wait-return po-session:" ++ session ++ " names no PO session") 2)
  | some .closed => .error (.task "validation" ("--wait-return po-session:" ++ session ++
      " names a closed PO session; it takes no input") 2)
  | some .opened => .ok ()

/-- The sessions that a wait reports to, the one of the running turn apart. -/
def askedSessions (spec : WaitSpec) : List String :=
  spec.returns.filterMap fun address ↦
    match address with
    | .poSession session => if call.origin.any (·.session = session) then none else some session
    | _ => none

def checkSessions (spec : Option WaitSpec) : Except Raised Unit :=
  match spec with
  | some spec => (askedSessions call spec).forM (refuseUnknownPoSession world)
  | none => .ok ()

end

/-! ### The guard -/

section

variable (env : Env) (world : World) (call : Create)

/-- `open_sprints_reserving`, on the sprints of the index. -/
def openSprintsReserving (project : String) (refs : List String) : Except Raised (List String) :=
  refs.filterM fun ref ↦
    match world.sprints ref with
    | some sprint => .ok (sprint.status = .opened ∧ project ∈ sprint.reservations)
    | none => .error (.task "sprint_guard_unavailable" ("cannot verify sprint " ++ ref ++ " reserving project " ++
        project ++ "; write it through the sprint entity") 3)

/-- The sprints that the guard asks about, in order. -/
def guardedSprints : List String :=
  let indexed := world.activeSprintProjects call.project
  let linked := if call.sprint ≠ "" ∧
      (world.sprints call.sprint).any (call.project ∈ ·.reservations) then [call.sprint] else []
  (indexed ++ linked).dedup.insertionSort (· ≤ ·)

def guardObserverIdentity : Except Raised Unit :=
  if call.role ≠ "observer" then .ok ()
  else if call.declared = "" then
    .error (.task "observer_identity_unbound" ("this observer names no sprint, so its writes cannot be " ++
      "authenticated; it has to be launched by the dispatcher for one sprint") 3)
  else if call.sprint ≠ "" ∧ call.sprint ≠ call.declared then
    .error (.task "observer_sprint_mismatch" ("this observer belongs to sprint " ++ call.declared ++
      " and the card is linked to " ++ call.sprint ++ "; write it as that sprint's observer") 3)
  else .ok ()

/-- The write is not the holding sprints' to refuse. -/
def passesHolders (held : List String) : Bool :=
  (call.role = "po" ∧ call.sprint = "") ∨ (call.role = "po" ∧ call.type.headless = true) ∨
    (call.role = "observer" ∧ call.type.headless = true ∧ call.sprint ≠ "") ∨
    (call.role = "steward" ∧ call.stewardReport = true ∧ call.sprint = "") ∨
    (call.role = "observer" ∧ call.sprint ∈ held) ∨ call.role = "dispatcher"

/-- `_guard_sprint_write`: the sprint whose reservation an override was granted against, if one was. -/
def guardSprintWrite : Except Raised (Option String) := do
  guardObserverIdentity call
  let held ← openSprintsReserving world call.project (guardedSprints world call)
  match held with
  | [] => return none
  | first :: _ =>
    let sprintRef := if call.sprint ∈ held then call.sprint else first
    if call.role = "po" ∧ call.sprintOverride = true then
      if call.sprintOverrideReason = "" then
        throw (.task "validation" "sprint override requires a non-empty reason" 2)
      else return some sprintRef
    else if passesHolders call held then return none
    else throw (.task "sprint_write_forbidden" ("project " ++ call.project ++ " is reserved by open sprint " ++
      sprintRef ++ "; write it through the sprint entity " ++ sprintRef) 3)

/-- New work belongs to a sprint. -/
def checkNewWork (granted : Option String) : Except Raised Unit :=
  if call.target = .ready ∧ call.sprint = "" ∧ call.restoring = false ∧ granted = none ∧ call.role ≠ "po" ∧
      call.role ≠ "dispatcher" then
    .error (.task "validation" "task creation requires an open sprint" 2)
  else .ok ()

/-- What the readings of a create come to. -/
structure Admission where
  head : String
  reviewHead : String
  granted : Option String
  spec : Option WaitSpec

/-- The admission of a call. -/
def admitCreate : Except Raised Admission := do
  env.checkArguments call
  let spec ← admitWait world call
  checkProduction world call
  let (head, reviewHead) ← admitSprint world call
  checkSessions world call spec
  let granted ← guardSprintWrite world call
  checkNewWork call granted
  return { head, reviewHead, granted, spec }

end

/-! ### The payload -/

/-- The member of an argument that may be left empty. -/
def orNull (text : String) : Option Json := some (if text = "" then .null else .str text)

section

variable (env : Env) (call : Create) (admission : Admission)

/-- The members of the payload that are arguments of the call. -/
def Create.members (digest : String ↪ String) : List (String × Option Json) :=
  [("project", some (.str call.project)), ("task_type", some (.str call.type.value)),
    ("target", some (.str call.target.value)), ("reference", orNull call.reference),
    ("blocked_by", orNull call.blockedBy), ("slug", orNull call.slug), ("base_branch", orNull call.baseBranch),
    ("seed_ref", orNull call.seedRef), ("supersedes", orNull call.supersedes),
    ("complexity", some (.str call.complexity)), ("family_preference", some (.str call.familyPreference)),
    ("codex_launch_mode", orNull call.codexLaunchMode), ("sprint", orNull call.sprint),
    ("budget_event", orNull call.budgetEvent), ("review", some (.str call.review.value)),
    ("live_impact", if call.liveImpact then some (.bool true) else none),
    ("touches_production",
      if call.touchesProduction = "" then none else some (.str call.touchesProduction)),
    ("wait_request", call.wait.map (·.flags)),
    ("po_origin", call.origin.map fun origin ↦
      .obj [("request", .str origin.request), ("session", .str origin.session)]),
    ("steward_report", if call.stewardReport then some (.bool true) else none),
    ("title_sha256", some (.str (digest call.title))),
    ("description_sha256", some (.str (digest call.description)))]

/-- The members of the payload. The heads and the override's reason come from the readings. -/
def payload : List (String × Option Json) :=
  ("head", orNull admission.head) :: ("review_head", orNull admission.reviewHead) ::
    ("sprint_override_reason", admission.granted.map fun _ ↦ .str call.sprintOverrideReason) ::
    call.members env.digest

/-- What the request id stands for. -/
def identity : List (String × Json) :=
  Json.present (payload env call admission)

/-- The payload of the record, with the spec of a wait. -/
def recordedPayload : Json :=
  .obj (Json.present (("wait_spec", admission.spec.map (·.text)) :: payload env call admission))

end

/-! ### The write -/

section

variable (env : Env) (world : World) (call : Create) (admission : Admission)

/-- `show`, of a card. -/
def World.showCard (ref : String) : Except Raised Card :=
  match world.cards.find ref with
  | some card => .ok card
  | none => .error (.task "not_found" "task was not found" 2)

/-- What a create answers besides the card. -/
structure Reply where
  ref : String
  eventId : String
  replayed : Bool
  deriving DecidableEq

/-- `_sprint_guard_override_request_id`. -/
def overrideRequestId (requestId : String) : String :=
  "sprint-guard-override-" ++ env.digest requestId

/-- `_grant_sprint_override`, under an event id of its own. -/
def grantSprintOverride (sprintRef eventId : String) :
    Except Raised Requests :=
  let requestId := overrideRequestId env call.requestId
  match committedEvent world.requests requestId with
  | some _ => .ok world.requests
  | none => do
    let event := Json.obj [("event_id", .str eventId), ("kind", .str "sprint_guard_override"),
      ("actor", .obj [("id", .str call.actor), ("role", .str call.role)]), ("outcome", .str "granted"),
      ("ref", .str call.reference), ("backend", .obj [("revision", .str "not_written")]),
      ("request_id", .str requestId),
      ("payload", .obj [("project", .str call.project), ("sprint", .str sprintRef),
        ("sprint_override_reason", .str call.sprintOverrideReason),
        ("operation_request_id", .str call.requestId)])]
    let staged ← stage world.requests requestId event world.now
    append staged requestId event world.now

/-- The ledger with the override on it, if one was granted. -/
def recordOverride (eventId : String) :
    Except Raised Requests :=
  match admission.granted with
  | some sprintRef => grantSprintOverride env world call sprintRef eventId
  | none => .ok world.requests

/-- The record of a create. -/
def createdRecord (ref eventId : String) : Json :=
  .obj [("event_id", .str eventId), ("kind", .str "created"),
    ("actor", .obj [("id", .str call.actor), ("role", .str call.role)]), ("outcome", .str "success"),
    ("ref", .str ref), ("request_id", .str call.requestId), ("payload", recordedPayload env call admission)]

/-- The card of a create. -/
def createdCard (ref : String) : Card where
  ref := ref
  column := call.target.column
  project := call.project
  type := call.type
  sprint := call.sprint
  head := admission.head
  reviewHead := admission.reviewHead

/-- `_create_backend` between the claim and the committed record, in one transaction. -/
def createBackend (requests : Requests) (call : Create) (admission : Admission) (eventId : String) :
    Except Raised (World × Reply) := do
  let claimed ← stage requests call.requestId (createdRecord env call admission call.reference eventId) world.now
  let ref := if call.reference = "" then env.nextProjectReference world.cards call.project else call.reference
  if (world.cards.find ref).isSome then
    throw (.task "validation" ("task reference " ++ ref ++ " is already claimed") 2)
  else
    let event := createdRecord env call admission ref eventId
    let staged ← stage claimed call.requestId event world.now
    let requests ← append staged call.requestId event world.now
    return ({ world with requests, cards := world.cards.put (createdCard call admission ref) }, ⟨ref, eventId, false⟩)

/-- A record of the id is replayed if it means the same create. -/
def replayCreate (requests : Requests) (call : Create) (admission : Admission) (recorded : Json) :
    Except Raised (World × Reply) := do
  requireClaim recorded "created" none (identity env call admission)
  let requests ← append requests call.requestId recorded world.now
  let card ← world.showCard (recorded.get "ref").textOr
  return ({ world with requests }, ⟨card.ref, (recorded.get "event_id").textOr, true⟩)

/-- A create from its admission on. -/
def createAdmitted (eventId overrideEventId : String) : Except Raised (World × Reply) := do
  let requests ← recordOverride env world call admission overrideEventId
  match committedEvent requests call.requestId with
  | some committed => replayCreate env world requests call admission committed
  | none =>
    match pendingEvent requests call.requestId with
    | some pending => replayCreate env world requests call admission pending
    | none => createBackend env world requests call admission eventId

end

/-- `_create`, under fresh event ids. -/
def create (env : Env) (world : World) (call : Create) (eventId overrideEventId : String) :
    Except Raised (World × Reply) := do
  let admission ← admitCreate env world call
  createAdmitted env world call admission eventId overrideEventId

/-! ### Histories -/

/-- Something that happens on the board between two calls. -/
inductive Change
  | ledger (call : Ledger.Call)
  | card (written : Card)
  | sprint (ref : String) (written : Option Sprint)
  | session (id : String) (state : Option SessionState)
  | index (project : String) (refs : List String)
  | registry (projects : List String)
  | pass (seconds : ℕ)

def Change.apply (world : World) : Change → World
  | .ledger call => { world with requests := Ledger.step world.requests call }
  | .card written => { world with cards := world.cards.put written }
  | .sprint ref written => { world with sprints := Function.update world.sprints ref written }
  | .session id state => { world with sessions := Function.update world.sessions id state }
  | .index project refs =>
    { world with activeSprintProjects := Function.update world.activeSprintProjects project refs }
  | .registry projects => { world with registeredProjects := projects }
  | .pass seconds => { world with now := world.now + seconds }

/-- The world after a sequence of changes. -/
def World.after (world : World) (changes : List Change) : World := changes.foldl Change.apply world

end Ummanu.Task
