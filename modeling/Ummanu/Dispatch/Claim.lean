import Ummanu.Ledger.RequestToken

/-!
# Claiming a card

`_prepare_claim` takes a card out of Ready: it decides the heads and the preflights before anything is written,
claims the card, and then either blocks it for the refusal that was decided or hands it off to worker bring-up.
Which request ids the audit has committed under the attempt that it is called with says whether the card comes
back from a block, and a card that does is handed off with the demand that its workspace exists.

Scope. What a claim reads (the heads, the sprint index, the registry, the host, the board) are its `Readings`. A
record keeps what a later claim reads of it. The stages after the hand-off are events that may block the card
under any action, with its infrastructure form or without, and keep the record or drop it. A card that stands in
one of their columns without a record is adopted under the attempt of the tick that finds it.
-/

set_option autoImplicit false

namespace Ummanu.Dispatch

open Library Ledger

/-! ### Request ids -/

def infrastructureActionToken : String := "infrastructure"

def infrastructureAction (action : String) : String :=
  if ("-" ++ infrastructureActionToken ++ "-").toList <:+: ("-" ++ action ++ "-").toList then action
  else if "-blocked".toList <:+ action.toList then
    String.ofList (action.toList.take (action.length - "-blocked".length)) ++ "-" ++ infrastructureActionToken ++ "-blocked"
  else action ++ "-" ++ infrastructureActionToken

def bringUpBlockedAction (action : String) (infrastructure : Bool) : String :=
  if infrastructure then infrastructureAction action else action

/-- `_blocked_actions_and_their_infrastructure_twins`. -/
def blockedActionsAndTwins (actions : List String) : List String :=
  (actions.flatMap fun action ↦ [action, infrastructureAction action]).dedup

/-- The blocks after which a card comes back to its workspace. -/
def retryActions : List String :=
  ["bringup-blocked", "worker-result-blocked", "worker-blocked", "worker-respawn-blocked", "worker-wait-stall",
    "rework-blocked", "contract-preflight-blocked", "git-access-preflight-blocked", "gate-blocked", "gate-red-blocked",
    "gate-pending-stall", "merge-gate-blocked", "merge-gate-red-blocked", "merge-blocked", "release-drift-blocked",
    "release-failed-blocked", "review-blocked", "review-freeze-red-blocked", "review-inventory-blocked",
    "review-wait-stall", "stale-done-rework-blocked"]

/-- `SPRINT_RESERVATION_BLOCKED_ACTION` and `LIVE_ROOT_PROJECT_BLOCKED_ACTION`. -/
def admissionActions : List String := ["sprint-reservation-blocked", "live-root-project-blocked"]

/-! ### The card -/

inductive CardState
  | ready
  | inProgress
  | validate
  | assessment
  | blocked
  | done
  deriving DecidableEq

/-- What a claim reads of a `DispatcherRecord`: its attempt, and the heads that are still to be settled. -/
structure Record where
  attemptId : String
  ownsReview : Bool := false
  needsSettling : Bool := false
  deriving DecidableEq

/-- The card, the request ids that the audit has committed, and the dispatcher's record of the card. -/
structure World where
  state : CardState
  committed : List String := []
  record : Option Record := none

/-- A write under a request id, which a repeat does not make again. -/
def World.write (world : World) (requestId : String) (state : CardState) : World :=
  if requestId ∈ world.committed then world
  else { world with state, committed := requestId :: world.committed }

/-! ### The preflights -/

inductive SprintAdmission
  | admitted
  | unverifiable
  | reserved
  deriving DecidableEq

/-- The state of a `ContractVerdict`. -/
inductive ContractVerdict
  | fit
  | undecidable
  | refused
  | unreadable
  deriving DecidableEq

/-- The state of a `ProjectGitAccess`. -/
inductive GitAccess
  | granted
  | refused
  | unreachable
  deriving DecidableEq

/-- What a claim reads, and how its writes and stops end. -/
structure Readings where
  workerResolved : Bool := true
  collapses : Bool := false
  sprintAdmission : SprintAdmission := .admitted
  liveRootRefusal : Bool := false
  contractVerdict : ContractVerdict := .fit
  gitAccess : GitAccess := .granted
  reviewStopConfirmed : Bool := true
  workerStopConfirmed : Bool := true
  claimError : Option String := none
  substituted : Bool := false
  claimedReadable : Bool := true

section

variable (readings : Readings)

/-- The contract is asked about only a card that the sprints and the live root admit. -/
def Readings.contract : Option ContractVerdict :=
  if readings.sprintAdmission ≠ .admitted ∨ readings.liveRootRefusal then none else some readings.contractVerdict

/-- Git access is asked about only a card that the contract does not refuse. -/
def Readings.access : Option GitAccess :=
  match readings.contract with
  | none | some .refused => none
  | some _ => some readings.gitAccess

/-- The refusals that are written right after the claim. -/
inductive Preflight
  | sprintReservation
  | liveRootProject
  | contract
  | gitAccess
  deriving DecidableEq

def Preflight.action : Preflight → String
  | .sprintReservation => "sprint-reservation-blocked"
  | .liveRootProject => "live-root-project-blocked"
  | .contract => "contract-preflight-blocked"
  | .gitAccess => "git-access-preflight-blocked"

def Preflight.step : Preflight → String
  | .sprintReservation => "sprint-reservation-refused"
  | .liveRootProject => "live-root-project-refused"
  | .contract => "contract-preflight"
  | .gitAccess => "git-access-preflight"

/-- The skips: the card stays in Ready and nothing is written. -/
def Readings.skip : Option (String × String) :=
  if !readings.workerResolved then some ("head-preflight", "resource-not-ready")
  else if readings.collapses then some ("head-preflight", "failover-collapses-roles")
  else if readings.sprintAdmission = .unverifiable then some ("sprint-admission", "sprint-reservation-unverifiable")
  else if readings.access = some .unreachable then some ("git-access-preflight", "project-git-access-unreachable")
  else none

/-- `_contract_preflight_decision`: whether the verdict stops the card. -/
def Readings.contractStops : Except String Bool :=
  match readings.contract with
  | none | some .fit | some .undecidable => .ok false
  | some .refused => .ok true
  | some .unreadable => .error "unreadable broad-check contract verdict"

/-- The refusal of a card, in the order in which they are written. -/
def Readings.refusal (contractStops : Bool) : Option Preflight :=
  if readings.sprintAdmission ≠ .admitted then some .sprintReservation
  else if readings.liveRootRefusal then some .liveRootProject
  else if contractStops then some .contract
  else if readings.access = some .refused then some .gitAccess
  else none

end

/-! ### The claim -/

/-- What a claim comes to. -/
inductive Outcome
  | skipped (step action : String)
  | unconfirmed (role : String)
  | raised (message : String)
  | blocked (step attemptId : String)
  | handoff (record : Record) (requireExistingWorkspace : Bool)
  deriving DecidableEq

def Outcome.isHandoff : Outcome → Bool
  | .handoff .. => true
  | _ => false

section Claim

variable (ref : String)

section

variable (world : World) (readings : Readings) (attemptId : String)

/-- Some of the actions, in either form, is committed under the attempt. -/
def World.committedAny (actions : List String) : Bool :=
  (blockedActionsAndTwins actions).any fun action ↦ attemptRequestId attemptId action ref "" ∈ world.committed

def World.retryAfterBlock (resumeWorkspace : Bool) : Bool :=
  resumeWorkspace || world.committedAny ref attemptId retryActions

/-- The role whose head is preempted and would not stop. -/
def World.unstopped : Option String :=
  match world.record with
  | none => none
  | some active =>
    if active.ownsReview ∧ !readings.reviewStopConfirmed then some "review"
    else if active.needsSettling ∧ !readings.workerStopConfirmed then some "worker"
    else none

/-- The attempt that the card is claimed under: a card that comes back gets a fresh one. -/
def World.claimAttempt (attemptId freshId : String) (resumeWorkspace : Bool) : String :=
  if world.retryAfterBlock ref attemptId resumeWorkspace ∨ world.record.isSome ∨
      world.committedAny ref attemptId admissionActions then freshId
  else attemptId

/-- `_write_claim_preflight_block`; a refusal before the claim is an infrastructure outcome. -/
def World.preflightBlock (preflight : Preflight) : World :=
  { world.write (attemptRequestId attemptId (bringUpBlockedAction preflight.action true) ref "") .blocked with
    record := none }

/-- `_comment_head_failover`. -/
def World.commentFailover (substituted : Bool) : World :=
  if substituted then world.write (attemptRequestId attemptId "head-failover-comment" ref "") world.state else world

/-- `_prepare_claim`, from the claim on. -/
def claimUnder (contractStops requireExisting : Bool) :
    World × Outcome :=
  match readings.claimError with
  | some message => (world, .raised message)
  | none =>
    let claimed := world.write (attemptRequestId attemptId "claim" ref "") .inProgress
    match readings.refusal contractStops with
    | some preflight => (claimed.preflightBlock ref attemptId preflight, .blocked preflight.step attemptId)
    | none =>
      let commented := claimed.commentFailover ref attemptId readings.substituted
      if readings.claimedReadable then
        let record : Record := { attemptId }
        ({ commented with record := some record }, .handoff record requireExisting)
      else (commented, .raised "the claimed card could not be read")

def prepareClaim (attemptId freshId : String) (resumeWorkspace : Bool) :
    World × Outcome :=
  match readings.skip with
  | some (step, action) => (world, .skipped step action)
  | none =>
    match world.unstopped readings with
    | some role => (world, .unconfirmed role)
    | none =>
      match readings.contractStops with
      | .error message => (world, .raised message)
      | .ok contractStops =>
        claimUnder ref world readings (world.claimAttempt ref attemptId freshId resumeWorkspace) contractStops
          (world.retryAfterBlock ref attemptId resumeWorkspace)

end

/-! ### Histories -/

/-- Something that happens to the card: a claim, the adoption of a card without a record, a block of a later stage
under the record, another step of a later stage, the loss of the record, and a move on the board. -/
inductive Event
  | claim (attemptId freshId : String) (readings : Readings)
  | adopt (attemptId : String)
  | block (action suffix : String) (infrastructure keepsRecord : Bool)
  | advance (state : CardState) (ownsReview needsSettling : Bool)
  | drop
  | move (state : CardState)

def Event.isAdoption : Event → Bool
  | .adopt _ => true
  | _ => false

/-- The columns of the stages after the hand-off. -/
def CardState.isActive (state : CardState) : Bool :=
  state = .inProgress ∨ state = .validate ∨ state = .assessment

/-- `_adopt`: the record that a later stage works under, if it finds none. -/
def World.adopt (world : World) (attemptId : String) : World :=
  if world.record.isNone ∧ world.state.isActive then { world with record := some { attemptId } } else world

/-- The card after an event, and what a claim came to. -/
def Event.apply (world : World) : Event → World × Option Outcome
  | .claim attemptId freshId readings =>
    let (next, outcome) := prepareClaim ref world readings attemptId freshId false
    (next, some outcome)
  | .adopt attemptId => (world.adopt attemptId, none)
  | .block action suffix infrastructure keepsRecord =>
    match world.record with
    | none => (world, none)
    | some record =>
      let requestId := attemptRequestId record.attemptId (bringUpBlockedAction action infrastructure) ref suffix
      ({ world.write requestId .blocked with record := if keepsRecord then some record else none }, none)
  | .advance state ownsReview needsSettling =>
    match world.record with
    | none => (world, none)
    | some record => ({ world with state, record := some { record with ownsReview, needsSettling } }, none)
  | .drop => ({ world with record := none }, none)
  | .move state => ({ world with state }, none)

/-- The card after a history. -/
def worldAfter (world : World) (history : List Event) : World :=
  history.foldl (fun world event ↦ (event.apply ref world).1) world

/-- What the claims of a history came to. -/
def outcomes : World → List Event → List Outcome
  | _, [] => []
  | world, event :: rest => (event.apply ref world).2.toList ++ outcomes (event.apply ref world).1 rest

end Claim

/-- `production_adopt_attempt_id`: the attempt that a card without a record is ticked under. -/
def productionAdoptAttemptId (reference : String) : String := "production-adopt-" ++ requestToken reference

end Ummanu.Dispatch
