import Ummanu.E2e.Stage

/-!
# Watches, queues and the requests of the after-merge e2e

A project may run its e2e after the merge. Every merge that lands is watched until the CI of its merge
commit answers; a green one joins the project's pending set, and one run at a time covers what is
pending. The dispatcher keeps watches and queue in its production state (`Payload`), which it loads at
the start of a tick and saves at the places the source does. The rest is on the board: a card's record
holds its mark and the runs it carries, and comments, creates and moves are committed under request ids.

`AmWorld` is the durable state: the saved production state, the cards' records, the committed requests,
the sprint charges, and what GitHub was asked (the dispatch calls, and the comparisons that answered
`ahead` or `identical`). Two further fields are history only, and no program reads them: the merges whose
watch was saved with a green result, and the requests that were refused because their id belonged to
another payload. The memory of a tick is the loaded production state, and the carrier's record as
`_settle` holds it.

A record is kept on the board as what parsing makes of the written text, so that reading a card is
reading its field of `AmWorld.cards`.

Scope. One project's queue. Request ids are compared by what they name: the source joins the parts of a
name by dashes, and different names are taken to be different ids. The texts of a decision card, of the bell
and of the tick's outcomes are left out, as is publishing a CI result beyond whether it went through.
-/

set_option autoImplicit false

namespace Ummanu.E2e

open Library

/-! ### Watches -/

/-- The results of a post-merge watch. -/
inductive Verdict
  | green
  | red
  | absent
  | timeout
  deriving DecidableEq

/-- What a watch was resolved to, with the merge SHA of the fact. -/
structure WatchResult where
  verdict : Verdict
  mergeSha : String
  deriving DecidableEq

/-- A post-merge watch. -/
structure Watch where
  ref : String
  sprint : String
  base : String
  branch : String
  mergeSha : String
  startedAt : ℕ
  absentReason : String
  repo : String := ""
  result : Option WatchResult := none
  published : Bool := false
  deriving DecidableEq

/-- The merge SHA a watch is queued with: its result's, or its own. -/
def Watch.sha (watch : Watch) : String :=
  match watch.result with
  | some result => if result.mergeSha = "" then watch.mergeSha else result.mergeSha
  | none => watch.mergeSha

/-- A watch with a green result. -/
def Watch.green (watch : Watch) : Bool := watch.result.map WatchResult.verdict = some .green

/-- A merge that has landed, as `open_watch` is told. -/
structure Landing where
  ref : String
  ref_ne_empty : ref ≠ ""
  sha : String
  sprint : String
  base : String
  branch : String
  absentReason : String
  now : ℕ

/-- The watch a landing opens. -/
def Landing.watch (landing : Landing) : Watch where
  ref := landing.ref
  sprint := landing.sprint
  base := landing.base
  branch := landing.branch
  mergeSha := landing.sha
  startedAt := landing.now
  absentReason := landing.absentReason

/-! ### The queue -/

/-- A pending card. -/
structure Entry where
  ref : String
  mergeSha : String
  sprint : String
  mergedAt : ℕ
  repo : String
  base : String
  marked : Bool := false
  deriving DecidableEq

/-- A card and one of its merge SHAs. -/
def Entry.pair (entry : Entry) : Covered := ⟨entry.ref, entry.mergeSha⟩

/-- The run in flight. -/
structure InFlight where
  carrier : String
  dispatchId : String
  sha : String
  entries : List Entry
  deriving DecidableEq

/-- What a spent budget is a budget of. -/
inductive HoldScope
  | sprint
  | cards
  deriving DecidableEq

/-- An entry of `budget_waits`. -/
structure BudgetHold where
  decision : String
  generation : ℕ
  scope : HoldScope
  scopeRef : String
  spent : List String
  cards : List String
  deriving DecidableEq

/-- A dispatcher-owned branch that is to be deleted. -/
structure Cleanup where
  repo : String
  ref : String
  dispatchId : String
  carrier : String
  deriving DecidableEq

/-- The production state, as far as the after-merge e2e of one project reads it. -/
structure Payload where
  watches : List Watch := []
  pending : List Entry := []
  run : Option InFlight := none
  budgetWaits : List BudgetHold := []
  cleanup : List Cleanup := []
  deriving DecidableEq

namespace Payload

section

variable (payload : Payload)

def watch (ref : String) : Option Watch :=
  payload.watches.find? (·.ref = ref)

/-- `live[ref] = watch`. -/
def setWatch (watch : Watch) : Payload :=
  { payload with watches := payload.watches.filter (·.ref ≠ watch.ref) ++ [watch] }

/-- `del live[ref]`. -/
def dropWatch (ref : String) : Payload :=
  { payload with watches := payload.watches.filter (·.ref ≠ ref) }

/-- The entries of the run in flight. -/
def inFlight : List Entry := (payload.run.map InFlight.entries).getD []

/-- `known`: the cards that are pending or covered by the run in flight. -/
def knownRefs : List String :=
  (payload.pending ++ payload.inFlight).map Entry.ref

/-- Put back the entries whose card is not pending. -/
def putBack (entries : List Entry) : Payload :=
  let known := payload.pending.map Entry.ref
  { payload with
    pending := ((entries.filter (·.ref ∉ known)).map fun entry ↦ { entry with marked := true }) ++ payload.pending }

end

end Payload

/-! ### Requests -/

/-- What a request id names. -/
inductive RequestName
  | recovered (dispatchId : String)
  | wait (dispatchId : String)
  | green (ref dispatchId : String)
  | red (ref dispatchId : String)
  | requeued (ref dispatchId : String)
  | hotfix (dispatchId : String)
  | hotfixBlocked (dispatchId : String)
  | declined (ref under : String)
  | join (decision ref : String)
  | sprintDecision (sprint : String) (generation : ℕ)
  | batchDecision (spent : List String) (generation : ℕ)
  deriving DecidableEq

inductive RequestKind
  | commented
  | created
  | moved
  deriving DecidableEq

/-- A comment, a create or a move. `title`, `flags`, `sprint` and `origin` are a create's; `made` is the
card it made, which is not part of its identity. -/
structure Request where
  name : RequestName
  kind : RequestKind
  card : String
  body : String
  title : String := ""
  flags : List String := []
  sprint : String := ""
  origin : Bool := false
  made : String := ""
  deriving DecidableEq

/-- `require_claim`: a replay has to be the committed request's. -/
def Request.Same (known request : Request) : Prop :=
  known.kind = request.kind ∧ known.card = request.card ∧ known.body = request.body ∧
    known.title = request.title ∧ known.flags = request.flags ∧ known.sprint = request.sprint ∧
    known.origin = request.origin

instance (known request : Request) : Decidable (known.Same request) :=
  inferInstanceAs (Decidable (_ ∧ _))

/-! ### The durable state -/

/-- A comparison that answered `ahead` or `identical` when a run was started. -/
structure Compared where
  dispatchId : String
  mergeSha : String
  target : String
  deriving DecidableEq

structure AmWorld where
  saved : Payload := {}
  cards : String → E2eState := fun _ ↦ {}
  committed : List Request := []
  charges : List Charge := []
  dispatches : List Dispatch := []
  compared : List Compared := []
  /-- History: the merges whose watch was saved with a green result. -/
  answeredGreen : List Covered := []
  /-- History: the requests that were refused as another payload's. -/
  conflicts : List Request := []

/-- The merges whose watch has a green result. -/
def Payload.greens (payload : Payload) : List Covered :=
  (payload.watches.filter Watch.green).map fun watch ↦ ⟨watch.ref, watch.sha⟩

/-- `save_records`. -/
def AmWorld.save (world : AmWorld) (payload : Payload) : AmWorld :=
  { world with saved := payload, answeredGreen := world.answeredGreen ++ payload.greens }

/-- `record_e2e_state`: a card's record, as it will be read. -/
def AmWorld.writeCard (world : AmWorld) (ref : String) (state : E2eState) : AmWorld :=
  { world with cards := fun other ↦ if other = ref then state.reread else world.cards other }

/-- The memory of a tick. -/
structure AmMemory where
  payload : Payload
  state : E2eState := {}

/-- A program of the after-merge e2e. -/
abbrev AmProgram := Durable AmWorld AmMemory TaskError

/-! ### Answers of a tick -/

/-- The durable calls of a tick that the board may refuse. -/
inductive AmCall
  | publish (ref : String)
  | mark (ref : String)
  | intent
  | run (step : String) (dispatchId : String)
  | remark (step : String) (ref : String)
  | request (name : RequestName)
  deriving DecidableEq

/-- The reads of a tick that may fail. -/
inductive AmRead
  | enqueue (ref : String)
  | mark (ref : String)
  | settle
  | remark (ref : String)
  | start (ref : String)
  | hotfix
  | hotfixState
  | recheck (ref : String)
  | join (ref : String)
  | cleanup (dispatchId : String)
  deriving DecidableEq

/-- A random token: `secrets.token_hex(4)`. -/
structure HexToken where
  text : String
  no_dash : '-' ∉ text.toList
  ne_empty : text ≠ ""

/-- The ref of a card the board made. -/
structure BoardRef where
  text : String
  ne_empty : text ≠ ""

/-- One tick: every answer it gets. Answers about one run are given by its dispatch id, since a tick may
settle two. -/
structure AmTick where
  /-- `pr_merge_commit`, by card. -/
  mergeCommit : String → String
  /-- The repository of a watch that does not know it. -/
  watchRepo : String → Option String
  /-- The CI of a merge commit: green, red or pending. -/
  ci : String → Option Bool
  timedOut : String → Bool
  /-- `declared_e2e`, when a watch is queued, when a run is started, and when one is looked up. -/
  placement : String → Except String (Option E2eDeclaration)
  declaration : Except String (Option E2eDeclaration)
  lookupDeclaration : Except String (Option E2eDeclaration)
  isCode : String → Bool
  title : String → String
  sprintOf : String → String
  sprintOpen : String → Except TaskError Bool
  cap : String → ℕ
  hasOrigin : String → Bool
  repo : Except String String
  /-- `is_ancestor` of two different commits. -/
  compare : String → String → Except String Bool
  token : HexToken
  room : Bool
  budget : SprintBudget
  createRef : Except String Unit
  dispatch : DispatchAnswer
  intentNow : ℕ
  settleNow : String → ℕ
  windowNow : String → ℕ
  headSha : String → Except String String
  listedRuns : String → Except String (List FoundRun)
  createdWait : String → String
  wait : String → WaitRead
  redEvidence : String → String × String
  hotfixRef : String → BoardRef
  hotfixReady : String → Bool
  sprintBudget : String → Option SprintBudget
  decisionRead : String → DecisionRead
  decisionRef : RequestName → String
  decisionText : RequestName → String
  /-- Whether a decision's description lists a card. -/
  decisionLists : String → Except TaskError Bool
  deleteRef : String → Except String Unit
  refuse : AmCall → Option TaskError
  unreadable : AmRead → Option TaskError
  recoverySettle : ℕ
  identifyWindow : ℕ
  utcText : ℕ → String
  oneLine : ℕ → String → String

/-! ### Steps of a program -/

def recallPayload : AmProgram Payload := do
  let memory ← Durable.remembered
  pure memory.payload

def editPayload (f : Payload → Payload) : AmProgram Unit :=
  Durable.remember fun memory ↦ { memory with payload := f memory.payload }

/-- `save_records`. -/
def save : AmProgram Unit := do
  let payload ← recallPayload
  Durable.commit (·.save payload)

/-- Change the production state in memory, and save it. -/
def savePayload (f : Payload → Payload) : AmProgram Unit := do
  editPayload f
  save

section Steps

variable (tick : AmTick)

/-- A card of the board is read. -/
def showCard (read : AmRead) (ref : String) : AmProgram E2eState := do
  match tick.unreadable read with
  | some error => throw error
  | none =>
    let world ← Durable.stored
    pure (world.cards ref)

def foreignClaim : TaskError where
  code := "validation"
  message := "request id belongs to another operation or payload"

/-- A request is committed under its id, or is the one that is; the committed one is the answer. -/
def issue (request : Request) : AmProgram Request := do
  let world ← Durable.stored
  match world.committed.find? (·.name = request.name) with
  | some known =>
    if known.Same request then pure known
    else do
      Durable.commit fun world ↦ { world with conflicts := world.conflicts ++ [request] }
      throw foreignClaim
  | none =>
    Durable.attempt (tick.refuse (.request request.name)) fun world ↦
      { world with committed := world.committed ++ [request] }
    pure request

/-- A comment. -/
def comment (name : RequestName) (card body : String) : AmProgram Unit := do
  let _ ← issue tick { name, kind := .commented, card, body }
  pure ()

/-- `_remark` on a card that carries no run in hand. -/
def remarkOther (step ref : String) (f : AfterMergeMark → AfterMergeMark) : AmProgram Unit := do
  let state ← showCard tick (.remark ref) ref
  Durable.attempt (tick.refuse (.remark step ref)) fun world ↦
    world.writeCard ref { state with
      afterMerge := some (f (state.afterMerge.getD { mergeSha := "" })) }

end Steps

end Ummanu.E2e
