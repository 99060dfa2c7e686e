import Ummanu.Continuation.Liveness
import Ummanu.Ledger.RequestToken
import Ummanu.Library.Durable

/-!
# The driver of a red continuation

A red verdict sends a card back for rework. `beginRedTransition` writes the transition down with the round
it opens, `completeRedTransition` moves the board and assigns that round, and `deliverRedContinuation` hands
the work to the session that was kept or to one replacement. While a delivery is pending, every tick samples
the provider first and climbs the recovery ladder of the liveness record (`advanceNoProgress`). Here these
are programs over the card's dispatcher record: the durable state is the record as it was last saved, the
memory is the record the tick works on, and a tick ends by saving whatever its body left in memory, also
when the body raised.

The durable state also holds four histories that no program reads: the trail of the liveness record (when an
episode began, when progress was observed, when the recovery call was made, when a terminal record was
saved), the board moves of red transitions, the rounds that completions assigned, and, on the record, the
number of red transitions opened.

Scope. Everything a tick asks for is an answer: clocks, provider evidence, the host's and the board's
replies; any call may raise and any save may be refused. The record is one card's, from its claim until it is
dropped. Fields that no function here reads (gate state, wait clocks, pane handles, routing) are left out,
as are the fields of an outcome that repeat the card and the attempt. The reply to a bring-up stands for
what the launch did.
-/

set_option autoImplicit false

namespace Ummanu.Continuation

open Library
open Ledger (attemptRequestId)

/-! ### The continuation record -/

/-- `WorkerContinuationStage`. -/
inductive Stage
  | none
  | validationMovePending
  | retained
  | assessmentPending
  | assessmentParked
  | redTransitionPending
  | deliveryPending
  | deliveryConfirmed
  deriving DecidableEq

structure WorkerContinuation where
  stage : Stage := .none
  phase : String := ""
  retainedAt : ℕ := 0
  sentAt : ℕ := 0
  reportBaseline : ℕ := 0
  reservedGeneration : ℕ := 0
  moveReason : String := ""
  verdictOutcome : String := ""
  decision : String := ""
  decisionBody : String := ""
  decisionProtocolPrerequisites : List String := []
  sessionHeld : Bool := false
  busyAttempts : ℕ := 0
  busyNextAt : ℕ := 0
  deriving DecidableEq

/-- What a red verdict hands to `begin_red_transition`. -/
structure Opening where
  phase : String
  reportBaseline : ℕ
  moveReason : String
  verdictOutcome : String
  decision : String := ""
  decisionBody : String := ""
  decisionProtocolPrerequisites : List String := []

/-- An exception of the tick. -/
inductive Fault
  | stage
  | call (detail : String)
  deriving DecidableEq

namespace WorkerContinuation

variable (continuation : WorkerContinuation)

/-- `retained`. -/
def isRetained : Bool := continuation.sessionHeld ∧ continuation.stage ≠ .none

def beginRetention (now : ℕ) : WorkerContinuation :=
  { continuation with
    stage := .validationMovePending
    phase := ""
    retainedAt := now
    sentAt := 0
    sessionHeld := true }

def confirmValidationMove : Except Fault WorkerContinuation :=
  match continuation.stage with
  | .retained => .ok continuation
  | .validationMovePending => .ok { continuation with stage := .retained }
  | _ => .error .stage

def beginPark (phase : String) (reportBaseline : ℕ) (moveReason verdictOutcome : String) :
    Except Fault WorkerContinuation :=
  match continuation.stage with
  | .none | .validationMovePending | .retained | .assessmentPending =>
    .ok { continuation with stage := .assessmentPending, phase, reportBaseline, moveReason, verdictOutcome }
  | _ => .error .stage

def confirmPark : Except Fault WorkerContinuation :=
  match continuation.stage with
  | .assessmentParked => .ok continuation
  | .assessmentPending => .ok { continuation with stage := .assessmentParked }
  | _ => .error .stage

def beginRedTransition (opening : Opening) (reservedGeneration : ℕ) : Except Fault WorkerContinuation :=
  match continuation.stage with
  | .none | .validationMovePending | .retained | .assessmentParked =>
    .ok { continuation with
      stage := .redTransitionPending
      phase := opening.phase
      reportBaseline := opening.reportBaseline
      moveReason := opening.moveReason
      verdictOutcome := opening.verdictOutcome
      decision := opening.decision
      reservedGeneration
      decisionBody := opening.decisionBody
      decisionProtocolPrerequisites := opening.decisionProtocolPrerequisites }
  | _ => .error .stage

def beginDelivery (phase : String) (now : ℕ) : Except Fault WorkerContinuation :=
  match continuation.stage with
  | .deliveryPending => .ok { continuation with phase }
  | .retained | .redTransitionPending => .ok { continuation with stage := .deliveryPending, phase, sentAt := now }
  | _ => .error .stage

def confirmDelivery : Except Fault WorkerContinuation :=
  match continuation.stage with
  | .deliveryPending | .deliveryConfirmed =>
    .ok { continuation with stage := .deliveryConfirmed, busyAttempts := 0, busyNextAt := 0 }
  | _ => .error .stage

/-- The wait before the next try of a busy pane: `BUSY_RETRY_INITIAL_SECONDS` doubled, at most
`BUSY_RETRY_MAX_SECONDS`. -/
def busyDelay (attempts : ℕ) : ℕ := min (30 * 2 ^ min (attempts - 1) 4) 300

def deferBusy (now : ℕ) : WorkerContinuation :=
  { continuation with
    busyAttempts := continuation.busyAttempts + 1
    busyNextAt := now + busyDelay (continuation.busyAttempts + 1) }

def busyRetryDue (now : ℕ) : Bool := continuation.busyNextAt = 0 ∨ continuation.busyNextAt ≤ now

def clear (_continuation : WorkerContinuation) : WorkerContinuation := {}

def dropSession : WorkerContinuation :=
  match continuation.stage with
  | .validationMovePending | .retained => continuation.clear
  | _ => { continuation with sessionHeld := false }

/-- What a restart reads back: nothing of a continuation without a stage. -/
def reload : WorkerContinuation :=
  if continuation.stage = .none then {}
  else { continuation with
    decisionProtocolPrerequisites := continuation.decisionProtocolPrerequisites.filter (· ≠ "") }

/-- `continuation.phase or "gate"`. -/
def phaseOrGate : String := if continuation.phase = "" then "gate" else continuation.phase

end WorkerContinuation

/-! ### The card, and what is remembered of its history -/

/-- The fields of a `DispatcherRecord` that the continuation reads and writes. -/
structure Card where
  attemptId : String := ""
  attemptRound : ℕ := 0
  reportGeneration : ℕ := 0
  reportDecision : String := ""
  reportProtocolPrerequisites : List String := []
  commentBaseline : ℕ := 0
  reviewBaseline : ℕ := 0
  rejectedDoneReports : ℕ := 0
  workerHeadRun : Option HeadBinding := .none
  /-- The round a launch intent reserves. -/
  launchIntent : Option ℕ := .none
  continuation : WorkerContinuation := {}
  liveness : Liveness := .unknown "missing"
  /-- How many red transitions were opened. -/
  transition : ℕ := 0

/-- The record as the next tick reads it. -/
def Card.reload (card : Card) : Card :=
  { card with continuation := card.continuation.reload, liveness := card.liveness.reload }

/-- An event of the liveness record. -/
inductive Mark
  | began
  | progressed
  | recovered
  | ended
  deriving DecidableEq

/-- A board move of a red transition. -/
structure RedMove where
  transition : ℕ
  requestId : String
  deriving DecidableEq

/-- What a completion assigned. -/
structure Round where
  transition : ℕ
  generation : ℕ
  decisionBody : String
  deriving DecidableEq

/-- The saved record and its histories. -/
structure CardWorld where
  card : Card := {}
  trail : List Mark := []
  moves : List RedMove := []
  rounds : List Round := []

/-! ### Answers of a tick -/

/-- A visit of the provider probe. -/
inductive Probe
  | recovering
  | reentered
  | opening
  deriving DecidableEq

/-- A reading of the clock. -/
inductive Moment
  | probe (probe : Probe)
  | retryDue
  | sent
  | openedWindow
  | busyRetry
  | noteBusy
  | deferBusy
  | safeRecovery
  | recovered
  | retained
  deriving DecidableEq

/-- A call of the host or the board. -/
inductive CallPoint
  | probe (probe : Probe)
  | stop
  | verdictRouting
  | redMove
  | showMoved
  | snapshotSuccessor
  | confirmRetained
  | resume
  | blockMove
  | finishing
  | bringUp
  | restarting
  | verifyResult
  | staleComment
  | validateMove
  | parkMove
  deriving DecidableEq

/-- A save of the records; some calls of the host save them too. -/
inductive SavePoint
  | call (point : CallPoint)
  | opened
  | completed
  | observed
  | blocked
  | window (probe : Probe)
  | resumeOnce (probe : Probe)
  | windowEnded (probe : Probe)
  | resumeSpent
  | resumeAllowed
  | boundary
  | busyProgress
  | busyBaseline
  | busy
  | recoveryUnconfirmed
  | recoveryIntent
  | recovered
  | recoveryUnavailable
  | failed
  | reported
  | confirmed
  | finished
  | intent
  | launched
  | bringUpFailed
  | restarted
  | reportAccepted
  | validateMoved
  | moveConfirmed
  | parked
  | parkConfirmed
  | tickEnd
  deriving DecidableEq

/-- What `resume_worker` answered. -/
inductive ResumeReply
  | delivered
  | busy
  | refused (reason : String)

/-- What the safe recovery capability answered: a mapping, or something else. -/
inductive RecoveryReply
  | mapping (state : String) (safe : Bool) (headRunId reason : String)
  | other

/-- What bringing a replacement up did. -/
inductive BringUp
  | launched (headRun : Option HeadBinding)
  | aborted
  | blocked

/-- The composer and cursor around a delivery, as the host saw them. -/
structure DeliveryEvidence where
  composerBefore : String := ""
  composerAfter : String := ""
  cursorBefore : String := ""
  cursorAfter : String := ""

/-- What a done report is of: new work, or the commit that was already rejected, by the class of its failure. -/
inductive Reported
  | fresh
  | stale
  | staleInfrastructure

/-- What names a card to the board: its reference, and the attempt of a record that has none. -/
structure CardName where
  attemptId : String
  ref : String

/-- Every answer a tick gets. -/
structure Answers where
  clock : Moment → ℕ
  evidence : Probe → Option Evidence
  refuses : SavePoint → Option Fault
  /-- The worker's head run, if a call writes it. -/
  rebinds : CallPoint → Option (Option HeadBinding)
  flushes : CallPoint → Bool
  raises : CallPoint → Option Fault
  comments : ℕ
  retainedRefused : Option String
  stopRefused : Option String
  resume : ResumeReply
  deliveryEvidence : DeliveryEvidence
  recovery : RecoveryReply
  preflightRefused : Option String
  preflightRun : Option (Option HeadBinding)
  bringUp : BringUp
  retainRefused : Bool
  reported : Reported := .fresh

/-- What a tick answers. -/
inductive Reply
  | busyDeferred (attempts : ℕ) (wait : ℕ)
  | recoveryWindow (attempts : ℕ) (remaining : ℕ)
  | blocked (reason : String)
  | stopUnconfirmed (reason : String)
  | intentUnwritable (reason : String)
  | bringUpFailed
  | reused
  | restarted
  | validate

/-- A program of the driver. -/
abbrev CardProgram := Durable CardWorld Card Fault

/-! ### Requests -/

/-- `_continuation_no_progress_evidence`. -/
def noProgressEvidence (evidence : DeliveryEvidence) (state : LivenessState) : String :=
  if state = .unavailable then "provider_unavailable"
  else if state = .unknown then "provider_or_identity_unknown"
  else if evidence.composerBefore ≠ "" ∧ evidence.composerBefore = evidence.composerAfter ∧
      evidence.composerBefore ≠ "empty" ∧ evidence.composerBefore ≠ "unknown" ∧
      evidence.cursorBefore ≠ "" ∧ evidence.cursorBefore = evidence.cursorAfter then
    "completed_turn_residual_composer"
  else "active_or_unknown_turn"

/-- `CONTINUATION_NO_PROGRESS_BUSY_ATTEMPTS`. -/
def noProgressBusyAttempts : ℕ := 3

/-- The seconds a recovered provider has to respond. -/
def responseSeconds : ℕ := 30

/-! ### Steps of a program -/

/-- The world after a save. -/
def CardWorld.saved (world : CardWorld) (card : Card) : CardWorld :=
  { world with
    card
    trail := if card.liveness.terminal then world.trail ++ [.ended] else world.trail }

def mark (event : Mark) : CardProgram Unit :=
  Durable.commit fun world ↦ { world with trail := world.trail ++ [event] }

def editLiveness (f : Liveness → Liveness) : CardProgram Unit :=
  Durable.remember fun card ↦ { card with liveness := f card.liveness }

/-- A change of the continuation, which may refuse the stage it is in. -/
def editContinuation (f : WorkerContinuation → Except Fault WorkerContinuation) : CardProgram Unit := do
  let card ← Durable.remembered
  match f card.continuation with
  | .ok continuation => Durable.remember fun card ↦ { card with continuation }
  | .error fault => throw fault

/-- A step that is taken under a condition. -/
def provided (condition : Bool) (program : CardProgram Unit) : CardProgram Unit :=
  if condition then program else pure ()

section Programs

variable (answers : Answers)

/-- `save_records`. -/
def save (point : SavePoint) : CardProgram Unit := do
  let card ← Durable.remembered
  Durable.attempt (answers.refuses point) (·.saved card)

/-- A save whose refusal is swallowed. -/
def saveQuietly (point : SavePoint) : CardProgram Unit :=
  tryCatch (save answers point) fun _ ↦ pure ()

/-- The worker's run that a call wrote. -/
def rebind (point : CallPoint) : CardProgram Unit :=
  match answers.rebinds point with
  | some run => Durable.remember fun card ↦ { card with workerHeadRun := run }
  | none => pure ()

/-- The exception of a call. -/
def raise (point : CallPoint) : CardProgram Unit :=
  match answers.raises point with
  | some fault => throw fault
  | none => pure ()

/-- A call of the host or the board: it may write the worker's run, save the records, and raise. -/
def call (point : CallPoint) : CardProgram Unit := do
  rebind answers point
  provided (answers.flushes point) (save answers (.call point))
  raise answers point

/-- `_stop_worker_confirmed`: the refusal, or nothing once the session is gone. -/
def stopWorkerConfirmed : CardProgram (Option Reply) := do
  call answers .stop
  match answers.stopRefused with
  | some reason => pure (some (.stopUnconfirmed reason))
  | none =>
    editContinuation fun continuation ↦ .ok continuation.dropSession
    pure none

/-- `write_worker_relaunch_intent`: the failure, or nothing once the intent is written. -/
def writeWorkerRelaunchIntent (round : ℕ) : CardProgram (Option String) := do
  match answers.preflightRefused with
  | some reason => pure (some reason)
  | none =>
    let card ← Durable.remembered
    Durable.remember fun card ↦ { card with
      launchIntent := some round
      workerHeadRun := answers.preflightRun.getD card.workerHeadRun }
    tryCatch
      (do
        save answers .intent
        pure none)
      fun _ ↦ do
        Durable.remember fun current ↦ { current with launchIntent := card.launchIntent }
        pure (some "launch intent could not be persisted")

/-- `bring_up_worker_head` and what follows it. -/
def bringUpWorkerHead (round : ℕ) : CardProgram Reply := do
  call answers .bringUp
  match answers.bringUp with
  | .aborted =>
    save answers .bringUpFailed
    pure .bringUpFailed
  | .blocked =>
    Durable.remember fun card ↦ { card with launchIntent := none }
    call answers .blockMove
    save answers .bringUpFailed
    pure .bringUpFailed
  | .launched headRun =>
    Durable.remember fun card ↦ { card with workerHeadRun := headRun }
    save answers .launched
    Durable.remember fun card ↦ { card with attemptRound := round }
    call answers .restarting
    Durable.remember fun card ↦ { card with launchIntent := none }
    save answers .restarted
    pure .restarted

/-- `_restart_red_worker` once the worker is stopped: the transition is handed over to a launch intent, or
held. -/
def handOver : CardProgram Reply := do
  let card ← Durable.remembered
  editContinuation fun continuation ↦ .ok continuation.clear
  let failure ← writeWorkerRelaunchIntent answers (card.attemptRound + 1)
  match failure with
  | some reason =>
    editContinuation fun _ ↦ .ok card.continuation
    pure (.intentUnwritable reason)
  | none => bringUpWorkerHead answers (card.attemptRound + 1)

def restartRedWorker (reason : String) (workerStopped : Bool) : CardProgram Reply := do
  editLiveness fun liveness ↦
    if liveness.bound ∧ liveness.terminal = false then liveness.terminalize .replacement reason else liveness
  if workerStopped then handOver answers
  else
    let unconfirmed ← stopWorkerConfirmed answers
    match unconfirmed with
    | some reply => pure reply
    | none => handOver answers

def finishRetainedWorkerResume : CardProgram Reply := do
  editLiveness fun liveness ↦
    if liveness.bound then liveness.terminalize .reused "retained continuation delivery was confirmed"
    else liveness
  Durable.remember fun card ↦ { card with
    continuation := card.continuation.clear
    attemptRound := card.attemptRound + 1 }
  call answers .finishing
  save answers .finished
  pure .reused

/-! ### Progress of the provider -/

/-- The old busy count of an unbound record is kept beside it. -/
def Liveness.carryLegacy (liveness : Liveness) (busyAttempts : ℕ) : Liveness :=
  if liveness.bound = false ∧ busyAttempts ≠ 0 then
    { liveness with legacyBusyAttempts := max liveness.legacyBusyAttempts busyAttempts }
  else liveness

/-- What an observation leaves on the card. -/
def Card.observe (card : Card) (evidence : Option Evidence) (now : ℕ) : Card × Observation :=
  let observed := (card.liveness.carryLegacy card.continuation.busyAttempts).observeProvider evidence now
    card.workerHeadRun
  ({ card with
      liveness := observed.1
      continuation := { card.continuation with
        busyAttempts := if observed.1.admitted then observed.1.busyAttempts
          else card.continuation.busyAttempts
        busyNextAt := if observed.2 = .progressed then 0 else card.continuation.busyNextAt } }, observed.2)

def observeRetainedContinuationProgress (probe : Probe) : CardProgram Observation := do
  -- whatever the probe raises is evidence, a refused save of its own included
  rebind answers (.probe probe)
  provided (answers.flushes (.probe probe)) (saveQuietly answers (.call (.probe probe)))
  let card ← Durable.remembered
  let observed := card.observe (answers.evidence probe) (answers.clock (.probe probe))
  provided (observed.2 = .progressed) (mark .progressed)
  Durable.remember fun _ ↦ observed.1
  pure observed.2

def blockUnadmittedContinuationLiveness (observation : Observation) : CardProgram (Option Reply) := do
  let card ← Durable.remembered
  if (observation = .baseline ∨ observation = .stalled ∨ observation = .progressed) ∧
      card.liveness.admitted = true then
    pure none
  else if observation = .legacyUnbound then
    let reply ← restartRedWorker answers "Codex provider source remained legacy-unbound for v1 progress" false
    pure (some reply)
  else
    let reason := if card.liveness.reason.isPresent then card.liveness.reason.text
      else "provider source was not admitted"
    call answers .blockMove
    save answers .blocked
    pure (some (.blocked ("retained continuation liveness is unprovable; preserving the exact HeadRun " ++
      "without recovery: " ++ reason)))

def continuationRecoveryWindow (probe : Probe) (fresh : Bool) (now : ℕ) : CardProgram (Option Reply) := do
  let card ← Durable.remembered
  if card.liveness.terminalOutcome.text = "identity_fenced" then
    let reply ← restartRedWorker answers "continuation liveness HeadRun identity is fenced" false
    pure (some reply)
  else if card.liveness.recoveryRung ≠ .responseWindow then pure none
  else if now < card.liveness.recoveryResponseDeadline then
    save answers (.window probe)
    pure (some (.recoveryWindow card.liveness.busyAttempts (card.liveness.recoveryResponseDeadline - now)))
  else if fresh then
    editLiveness fun liveness ↦ { liveness with recoveryRung := .resumeOnce }
    save answers (.resumeOnce probe)
    pure none
  else
    editLiveness (·.terminalize .replacement "safe recovery response window showed no provider progress")
    save answers (.windowEnded probe)
    let reply ← restartRedWorker answers "safe recovery response window showed no provider progress" false
    pure (some reply)

/-- The answer is a recovery of this head run. -/
def RecoveryReply.valid (reply : RecoveryReply) (headRunId : String) : Bool :=
  match reply with
  | .mapping state safe runId _ => state = "recovered" ∧ safe = true ∧ runId = headRunId
  | .other => false

/-- Why the recovery is not available. -/
def RecoveryReply.refusal (reply : RecoveryReply) : String :=
  match reply with
  | .mapping _ _ _ reason => if reason = "" then "safe recovery capability is unavailable" else reason
  | .other => "safe recovery capability returned an invalid shape"

/-- The replacement at the end of the ladder. -/
def replaceStalledWorker : CardProgram Reply := do
  let card ← Durable.remembered
  restartRedWorker answers
    ("provider progress remained absent after bounded continuation recovery: " ++ card.liveness.reason.text)
    false

/-- The one call of the safe recovery, recorded before it is made. -/
def spendSafeRecovery : CardProgram Reply := do
  editLiveness (·.beginSafeRecovery (answers.clock .safeRecovery))
  save answers .recoveryIntent
  mark .recovered
  let card ← Durable.remembered
  if answers.recovery.valid card.liveness.headRunId then
    editLiveness (·.safeRecoveryResponseWindow (answers.clock .recovered) responseSeconds)
    save answers .recovered
    pure (.recoveryWindow card.liveness.busyAttempts responseSeconds)
  else
    editLiveness fun liveness ↦
      { liveness with recoveryRung := .unavailable }.terminalize .replacement
        ("safe recovery unavailable: " ++ answers.recovery.refusal)
    save answers .recoveryUnavailable
    replaceStalledWorker answers

def advanceNoProgressContinuation : CardProgram (Option Reply) := do
  let card ← Durable.remembered
  let liveness := card.liveness
  if liveness.admitted = false ∨ liveness.state ≠ .stalled then
    blockUnadmittedContinuationLiveness answers
      (match liveness.state with
        | .stalled => .stalled
        | .progressed => .progressed
        | .unavailable => .unavailable
        | _ => .unknown)
  else if liveness.busyAttempts < noProgressBusyAttempts then pure none
  else if liveness.recoveryRung = .responseWindow then pure none
  else if liveness.recoveryRung = .resumeOnce then
    if liveness.recoveryResumeUsed then
      editLiveness (·.terminalize .replacement "safe recovery resume was already spent")
      let reply ← replaceStalledWorker answers
      pure (some reply)
    else pure none
  else if liveness.recoveryRung = .pending then
    editLiveness (·.terminalize .replacement "safe recovery response was unconfirmed after dispatcher recovery")
    save answers .recoveryUnconfirmed
    let reply ← replaceStalledWorker answers
    pure (some reply)
  else if liveness.terminal then
    let reply ← replaceStalledWorker answers
    pure (some reply)
  else
    let reply ← spendSafeRecovery answers
    pure (some reply)

/-! ### Delivery -/

/-- The pane was busy before anything was sent. -/
def deferBusyDelivery (fresh : Bool) : CardProgram Reply := do
  let card ← Durable.remembered
  if fresh then
    Durable.remember fun card ↦ { card with continuation := { card.continuation with
      busyAttempts := card.liveness.busyAttempts
      busyNextAt := answers.clock .busyRetry + 30 } }
    save answers .busyProgress
    pure (.busyDeferred card.liveness.busyAttempts 30)
  else if card.liveness.state ≠ .stalled then
    Durable.remember fun card ↦ { card with continuation := { card.continuation with
      busyNextAt := answers.clock .busyRetry + 30 } }
    save answers .busyBaseline
    pure (.busyDeferred card.continuation.busyAttempts 30)
  else
    editLiveness fun liveness ↦ { liveness with
      noProgressEvidence := .clip 80 (noProgressEvidence answers.deliveryEvidence liveness.state) }
    editLiveness (·.noteBusy (answers.clock .noteBusy))
    Durable.remember fun card ↦ { card with continuation :=
      { ({ card.continuation with busyAttempts := card.liveness.busyAttempts - 1 }).deferBusy
          (answers.clock .deferBusy) with busyAttempts := card.liveness.busyAttempts } }
    save answers .busy
    let bounded ← advanceNoProgressContinuation answers
    match bounded with
    | some reply => pure reply
    | none =>
      let card ← Durable.remembered
      pure (.busyDeferred card.continuation.busyAttempts
        (WorkerContinuation.busyDelay (card.liveness.busyAttempts - 1 + 1)))

/-- The continuation is sent to the retained session. -/
def resumeRetainedWorker (fresh : Bool) : CardProgram Reply := do
  call answers .resume
  match answers.resume with
  | .busy => deferBusyDelivery answers fresh
  | .refused reason =>
    save answers .failed
    restartRedWorker answers reason false
  | .delivered =>
    editContinuation (·.confirmDelivery)
    save answers .confirmed
    finishRetainedWorkerResume answers

/-- The delivery boundary is opened: a new episode, with its first observation. -/
def openDelivery (phase : String) : CardProgram Reply := do
  editContinuation (·.beginDelivery phase (answers.clock .sent))
  mark .began
  Durable.remember fun card ↦ { card with liveness := .begin card.workerHeadRun }
  let observation ← observeRetainedContinuationProgress answers .opening
  let blocked ← blockUnadmittedContinuationLiveness answers observation
  match blocked with
  | some reply => pure reply
  | none =>
    save answers .boundary
    let pending ← continuationRecoveryWindow answers .opening (observation = .progressed)
      (answers.clock .openedWindow)
    match pending with
    | some reply => pure reply
    | none => resumeRetainedWorker answers (observation = .progressed)

/-- The rest of a delivery: to the retained session, or to a replacement. -/
def deliverTo (phase : String) (opening fresh : Bool) : CardProgram Reply := do
  let card ← Durable.remembered
  if card.continuation.isRetained then
    call answers .confirmRetained
    match answers.retainedRefused with
    | some reason =>
      let unconfirmed ← stopWorkerConfirmed answers
      match unconfirmed with
      | some reply => pure reply
      | none => restartRedWorker answers reason true
    | none =>
      if opening then openDelivery answers phase
      else
        save answers .boundary
        resumeRetainedWorker answers fresh
  else restartRedWorker answers "no retained worker session was available" false

/-- The single resume of a recovered provider is spent before the pane is touched. -/
def spendResume (phase : String) (fresh : Bool) : CardProgram Reply := do
  let card ← Durable.remembered
  if card.liveness.recoveryRung = .resumeOnce then
    match card.liveness.allowSafeRecoveryResumeOnce with
    | none =>
      editLiveness (·.terminalize .replacement "safe recovery resume was already spent")
      save answers .resumeSpent
      restartRedWorker answers "safe recovery resume was already spent" false
    | some spent =>
      editLiveness fun _ ↦ spent
      save answers .resumeAllowed
      deliverTo answers phase false fresh
  else deliverTo answers phase false fresh

def deliverRedContinuation (phase : String) : CardProgram Reply := do
  let card ← Durable.remembered
  if card.continuation.stage = .deliveryPending then
    let observation ← observeRetainedContinuationProgress answers .reentered
    let blocked ← blockUnadmittedContinuationLiveness answers observation
    match blocked with
    | some reply => pure reply
    | none =>
      let pending ← continuationRecoveryWindow answers .reentered (observation = .progressed)
        (answers.clock (.probe .reentered))
      match pending with
      | some reply => pure reply
      | none => spendResume answers phase (observation = .progressed)
  else deliverTo answers phase true false

/-! ### Transitions -/

/-- What a completion leaves on the card. -/
def Card.completed (card : Card) (comments : ℕ) : Card :=
  { card with
    commentBaseline := max comments card.continuation.reportBaseline
    reviewBaseline := max comments card.continuation.reportBaseline
    reportGeneration := if card.continuation.reservedGeneration = 0 then card.reportGeneration + 1
      else card.continuation.reservedGeneration }

/-- The round a completion assigned. -/
def Card.round (card : Card) : Round where
  transition := card.transition
  generation := card.reportGeneration
  decisionBody := card.reportDecision

/-- The request of the board move. -/
def Card.redMove (card : Card) (name : CardName) : RedMove where
  transition := card.transition
  requestId := attemptRequestId (if card.attemptId = "" then name.attemptId else card.attemptId)
    (card.continuation.phaseOrGate ++ "-red") name.ref (toString card.continuation.reportBaseline)

variable (name : CardName)

def completeRedTransition : CardProgram Reply := do
  let card ← Durable.remembered
  let phase := card.continuation.phaseOrGate
  provided (card.continuation.decision = "") (call answers .verdictRouting)
  Durable.commit fun world ↦
    { world with moves := world.moves ++ [card.redMove name] }
  call answers .redMove
  call answers .showMoved
  Durable.remember (·.completed answers.comments)
  provided card.continuation.isRetained (call answers .snapshotSuccessor)
  Durable.remember fun card ↦ { card with
    reportDecision := card.continuation.decisionBody
    reportProtocolPrerequisites := card.continuation.decisionProtocolPrerequisites }
  let assigned ← Durable.remembered
  Durable.commit fun world ↦ { world with rounds := world.rounds ++ [assigned.round] }
  save answers .completed
  deliverRedContinuation answers phase

/-- The transition is opened on the record, with the generation it reserves. -/
def openRedTransition (opening : Opening) : CardProgram Unit := do
  let card ← Durable.remembered
  match card.continuation.beginRedTransition opening (card.reportGeneration + 1) with
  | .ok continuation =>
    Durable.remember fun card ↦ { card with continuation, transition := card.transition + 1 }
  | .error fault => throw fault

def beginRedTransition (opening : Opening) : CardProgram Reply := do
  openRedTransition opening
  save answers .opened
  completeRedTransition answers name

/-- The delivery that a tick found pending, unless a report proves it. -/
def recoverDelivery : CardProgram Reply := do
  let observation ← observeRetainedContinuationProgress answers .recovering
  let blocked ← blockUnadmittedContinuationLiveness answers observation
  match blocked with
  | some reply => pure reply
  | none =>
    let pending ← continuationRecoveryWindow answers .recovering (observation = .progressed)
      (answers.clock (.probe .recovering))
    match pending with
    | some reply => pure reply
    | none =>
      save answers .observed
      let card ← Durable.remembered
      if observation = .progressed ∧ card.liveness.recoveryRung ≠ .resumeOnce then
        Durable.remember fun card ↦ { card with continuation := { card.continuation with
          busyNextAt := answers.clock (.probe .recovering) + 30 } }
        pure (.busyDeferred card.continuation.busyAttempts 30)
      else if card.continuation.busyRetryDue (answers.clock .retryDue) = false then
        pure (.busyDeferred card.continuation.busyAttempts (card.continuation.busyNextAt - answers.clock .retryDue))
      else deliverRedContinuation answers card.continuation.phaseOrGate

/-- The marker of a report. -/
inductive ReportMarker
  | done
  | blocked
  | none
  deriving DecidableEq

def recoverWorkerContinuation (marker : ReportMarker) : CardProgram (Option Reply) := do
  let card ← Durable.remembered
  if card.continuation.stage = .deliveryPending then
    if marker = .none then
      let reply ← recoverDelivery answers
      pure (some reply)
    else
      editContinuation (·.confirmDelivery)
      save answers .reported
      let reply ← finishRetainedWorkerResume answers
      pure (some reply)
  else if card.continuation.stage = .deliveryConfirmed then
    let reply ← finishRetainedWorkerResume answers
    pure (some reply)
  else pure none

/-- The worker is frozen with its session, or stopped. -/
def freezeWorker : CardProgram (Option Reply) :=
  if answers.retainRefused then stopWorkerConfirmed answers
  else do
    editContinuation fun continuation ↦ .ok (continuation.beginRetention (answers.clock .retained))
    pure none

/-- The comments that were seen when a stale report was answered. -/
def Card.answered (card : Card) (comments : ℕ) : Card :=
  { card with commentBaseline := comments, reviewBaseline := comments }

/-- The report round that a bounced report opens in its attempt. -/
def Card.bounced (card : Card) (comments : ℕ) : Card :=
  { card.answered comments with
    reportGeneration := card.reportGeneration + 1
    reportDecision := ""
    reportProtocolPrerequisites := [] }

/-- A second stale report: the card waits for a human. -/
def blockRepeatedDone (reason : String) : CardProgram (Option Reply) := do
  call answers .blockMove
  save answers .blocked
  pure (some (.blocked reason))

/-- The bounce of a first stale report, once its worker is stopped. -/
def bounceStaleDone (attemptRound : ℕ) : CardProgram (Option Reply) := do
  call answers .staleComment
  Durable.remember (·.bounced answers.comments)
  let failure ← writeWorkerRelaunchIntent answers attemptRound
  match failure with
  | some reason => pure (some (.intentUnwritable reason))
  | none =>
    let reply ← bringUpWorkerHead answers attemptRound
    pure (some reply)

def rejectStaleDone : CardProgram (Option Reply) := do
  let card ← Durable.remembered
  let unconfirmed ← stopWorkerConfirmed answers
  match unconfirmed with
  | some reply => pure (some reply)
  | none =>
    Durable.remember fun current ↦ { current with rejectedDoneReports := card.rejectedDoneReports + 1 }
    if card.rejectedDoneReports ≠ 0 then blockRepeatedDone answers "worker repeatedly reported rejected SHA"
    else bounceStaleDone answers card.attemptRound

def blockRepeatedInfrastructureDone : CardProgram (Option Reply) := do
  let unconfirmed ← stopWorkerConfirmed answers
  match unconfirmed with
  | some reply => pure (some reply)
  | none => blockRepeatedDone answers ""

def acceptStaleInfrastructureDone : CardProgram (Option Reply) := do
  let card ← Durable.remembered
  if card.rejectedDoneReports ≠ 0 then blockRepeatedInfrastructureDone answers
  else
    let unconfirmed ← freezeWorker answers
    match unconfirmed with
    | some reply => pure (some reply)
    | none =>
      Durable.remember fun card ↦ { card with rejectedDoneReports := 1 }
      call answers .staleComment
      Durable.remember (·.answered answers.comments)
      save answers .reportAccepted
      call answers .validateMove
      save answers .validateMoved
      pure (some .validate)

/-- A report of new work is accepted. -/
def acceptDone : CardProgram (Option Reply) := do
  Durable.remember fun card ↦ { card with rejectedDoneReports := 0, reviewBaseline := answers.comments }
  let unconfirmed ← freezeWorker answers
  match unconfirmed with
  | some reply => pure (some reply)
  | none =>
    save answers .reportAccepted
    call answers .validateMove
    let card ← Durable.remembered
    provided (card.continuation.stage = .validationMovePending) (editContinuation (·.confirmValidationMove))
    save answers .validateMoved
    pure (some .validate)

/-- The part of `handle_worker_report` that touches the continuation: an accepted report freezes the worker
before the card moves to Validate. -/
def handleWorkerReport (marker : ReportMarker) : CardProgram (Option Reply) := do
  let card ← Durable.remembered
  if marker = .done then
    if card.continuation.stage = .validationMovePending then
      call answers .validateMove
      save answers .validateMoved
      pure (some .validate)
    else
      call answers .verifyResult
      match answers.reported with
      | .fresh => acceptDone answers
      | .stale => rejectStaleDone answers
      | .staleInfrastructure => acceptStaleInfrastructureDone answers
  else pure none

/-- `_advance_worker`, as far as it reaches the continuation. -/
def advanceWorker (marker : ReportMarker) : CardProgram (Option Reply) := do
  let card ← Durable.remembered
  if card.continuation.stage = .redTransitionPending then
    let reply ← completeRedTransition answers name
    pure (some reply)
  else
    let recovered ← recoverWorkerContinuation answers marker
    match recovered with
    | some reply => pure (some reply)
    | none => handleWorkerReport answers marker

end Programs

/-! ### Ticks -/

/-- What a tick does with the card. -/
inductive Entry
  /-- The worker is waited for. -/
  | advance (marker : ReportMarker)
  /-- A red transition is finished from Validate or Assessment. -/
  | finish
  /-- The gate finds the Validate move landed. -/
  | confirmMove
  /-- A red verdict. -/
  | verdict (opening : Opening)
  /-- A verdict parks the card. -/
  | park (phase : String) (reportBaseline : ℕ) (moveReason verdictOutcome : String)
  | confirmPark
  /-- The worker is stopped for a reason of its own. -/
  | stop
  /-- A launch of another kind writes the worker's run and the intent. -/
  | relaunch (headRun : Option HeadBinding) (launchIntent : Option ℕ) (attemptRound : ℕ)

/-- The body of a tick. -/
def Entry.run (name : CardName) (answers : Answers) : Entry → CardProgram (Option Reply)
  | .advance marker => advanceWorker answers name marker
  | .finish => do
    let card ← Durable.remembered
    if card.continuation.stage = .redTransitionPending then
      let reply ← completeRedTransition answers name
      pure (some reply)
    else pure none
  | .confirmMove => do
    let card ← Durable.remembered
    if card.continuation.stage = .validationMovePending then
      editContinuation (·.confirmValidationMove)
      save answers .moveConfirmed
      pure none
    else pure none
  | .verdict opening => do
    let reply ← beginRedTransition answers name opening
    pure (some reply)
  | .park phase reportBaseline moveReason verdictOutcome => do
    editContinuation (·.beginPark phase reportBaseline moveReason verdictOutcome)
    save answers .parked
    pure none
  | .confirmPark => do
    call answers .parkMove
    editContinuation (·.confirmPark)
    save answers .parkConfirmed
    pure none
  | .stop => stopWorkerConfirmed answers
  | .relaunch headRun launchIntent attemptRound => do
    Durable.remember fun card ↦ { card with workerHeadRun := headRun, launchIntent, attemptRound }
    pure none

/-- One tick: whatever its body leaves in memory is saved at its end. -/
def cardTick (name : CardName) (input : Entry × Answers) : CardProgram Unit := do
  tryCatch
    (do
      let _ ← input.1.run name input.2
      pure ())
    fun _ ↦ pure ()
  save input.2 .tickEnd

/-- The memory a tick starts with. -/
def loadCard (world : CardWorld) : Card := world.card.reload

end Ummanu.Continuation
