import Ummanu.Budget.Decision
import Ummanu.E2e.Record
import Ummanu.Library.BoundedText
import Ummanu.Library.Durable

/-!
# The e2e stage before the merge

`run_stage` takes a code card's e2e stage one tick further. It reads the card's record, takes the
newest run as far as it goes (identification, the wait for its result, what the result does to the
card), rechecks a spent budget, reads the merge gate, and only then starts a run for the SHA the gate
validated. Here it is a program over the durable state the stage works on: the card's record, the
requests committed in the audit, the sprint charges, and the dispatch calls that GitHub received. The
program's memory is the record as it was parsed at the start of the tick.

Everything the stage asks for is an answer of the tick (`StageTick`): GitHub's, the board's, the
clock's. A durable call the board refuses raises, and an answer may be anything, so that lost and
refused calls, transport failures and concurrent changes are all covered. Answers about one run are
given by its dispatch id, because a tick may settle two runs.

Scope. The effects of a rework round, of stopping the heads and of the owner's bell do not touch this
state and are left out, as are the fields of an outcome that only repeat the card and the attempt. The
texts of a decision card are an answer of the board.
-/

set_option autoImplicit false

namespace Ummanu.E2e

open Library
open Budget (decisionRequestId)
open Ledger (attemptRequestId joinedTokens)

/-! ### Answers of a tick -/

/-- A refusal of the task board. -/
structure TaskError where
  code : String
  message : String
  deriving DecidableEq

/-- Where a tick asks for the stage. -/
inductive StageStep
  | review
  | assessment
  deriving DecidableEq

/-- The fields of the card a tick reads, the e2e record apart. -/
structure StageTask where
  hasCandidate : Bool
  isCode : Bool
  sprint : String
  cap : ℕ
  hasOrigin : Bool

/-- The fields of a declaration the stage reads. -/
structure E2eDeclaration where
  workflow : String
  deadline : String
  dispatchIdInput : String
  afterMerge : Bool

/-- A workflow run of GitHub's listing. -/
structure FoundRun where
  id : ℕ
  event : String
  headBranch : String
  headSha : String
  createdText : String
  createdAt : Option ℕ
  title : String
  htmlUrl : String

/-- What the dispatch call answered. -/
inductive DispatchAnswer
  | accepted (runId : ℕ)
  | refused (detail : String)
  | unanswered (detail : String)

/-- What reading the wait card answered. A frozen result has an outcome. -/
inductive WaitRead
  | missing
  | failed (error : TaskError)
  | pending
  | frozen (result : RunResult) (named : result.outcome ≠ "")

/-- What reading the merge gate answered: an outcome of its own, or a green result. -/
inductive GateRead
  | outcome
  | green (result : Release.GateResult)

/-- A sprint's e2e budget as a tick reads it. -/
structure SprintBudget where
  budget : ℕ
  used : ℕ

/-- What reading the decision card answered. -/
inductive DecisionRead
  | missing
  | failed (error : TaskError)
  | opened
  | done
  deriving DecidableEq

/-- The durable calls of a tick, each of which the board may refuse. A call about a run names it by
its dispatch id. -/
inductive StageCall
  | intent
  | dispatched
  | ambiguous (run : String)
  | recovered (run : String)
  | recoveredComment (run : String)
  | unidentified (run : String)
  | identified (run : String)
  | createWait (run : String)
  | waitNamed (run : String)
  | waitRefused (run : String)
  | waitGone (run : String)
  | result (run : String)
  | greenComment (run : String)
  | acted (run : String)
  | closed (run : String)
  | move (requestId : String)
  | reconciled
  | budgetCleared
  | decision
  | budgetWait
  deriving DecidableEq

/-- One tick of the stage: the card, the limits, and every answer the tick gets. -/
structure StageTick where
  task : StageTask
  attemptId : String
  step : StageStep
  declaration : Except String (Option E2eDeclaration)
  gate : GateRead
  /-- `reconcile_reviewed_base_move` from a reviewed commit to a current one. -/
  reconcile : String → String → Option Release.BaseMove
  repo : Except String String
  /-- `secrets.token_hex(4)`. -/
  token : String
  /-- Whether the sprint has a run left when the intent is charged, with its budget and use. -/
  room : Bool
  budget : SprintBudget
  dispatch : DispatchAnswer
  intentNow : ℕ
  settleNow : String → ℕ
  windowNow : String → ℕ
  waitNow : ℕ
  headSha : String → Except String String
  listedRuns : String → Except String (List FoundRun)
  createdWait : String → String
  wait : String → WaitRead
  /-- `_red_evidence`: the summary and the log fragment. -/
  redEvidence : String → String × String
  sprintBudget : Option SprintBudget
  decisionRead : DecisionRead
  decisionRef : String
  /-- Whether the decision's description already lists this card. -/
  decisionLists : Except TaskError Bool
  refuse : StageCall → Option TaskError
  recoverySettle : ℕ
  identifyWindow : ℕ
  utcText : ℕ → String
  oneLine : ℕ → String → String

/-! ### State and outcomes -/

/-- A call of `dispatch_workflow` that reached GitHub, with the sprint of the card at that tick. -/
structure Dispatch where
  dispatchId : String
  sha : String
  sprint : String
  deriving DecidableEq

/-- A run charged to a sprint. -/
structure Charge where
  sprint : String
  dispatchId : String
  deriving DecidableEq

/-- The durable state the stage of one card works on. -/
structure StageWorld where
  record : E2eState := {}
  committed : List String := []
  charges : List Charge := []
  dispatches : List Dispatch := []

/-- The outcome of a tick that neither skips the stage nor proceeds. -/
inductive StageOutcome
  | blocked (reason : String)
  | gate
  | rework (summary : String)
  | identifying (sha dispatchId : String)
  | waiting (sha waitCard : String)
  | dispatching (sha : String)
  | unnamedRepository (sha detail : String)
  | budgetWaiting (decision sha : String)
  deriving DecidableEq

/-- What `run_stage` answers: nothing, an outcome, or `E2eProceed`. -/
inductive StageReply
  | notApplicable
  | outcome (outcome : StageOutcome)
  | proceed (result : Release.GateResult) (reconciliation : Option Release.BaseMove)

/-- A program of the stage. -/
abbrev StageProgram := Durable StageWorld E2eState TaskError

/-! ### The record in memory -/

/-- A run that is in no record. -/
def blankRun : E2eRun where
  dispatchId := ""
  sha := ""
  repo := ""
  branch := ""
  workflow := ""
  intentAt := 0
  deadline := ""

namespace E2eState

/-- The run at a position. -/
def run (state : E2eState) (i : ℕ) : E2eRun := state.runs.getD i blankRun

/-- Change the run at a position. -/
def updateRun (state : E2eState) (i : ℕ) (f : E2eRun → E2eRun) : E2eState :=
  { state with runs := state.runs.modify i f }

end E2eState

def E2eRun.close (run : E2eRun) (reason : String) : E2eRun :=
  { run with
    closing := stageRequestId "e2e-blocked" run.dispatchId
    closingReason := reason
    acted := true }

def currentRun (i : ℕ) : StageProgram E2eRun := do
  let state ← Durable.remembered
  pure (state.run i)

def editRun (i : ℕ) (f : E2eRun → E2eRun) : StageProgram Unit :=
  Durable.remember (·.updateRun i f)

section Programs

variable (tick : StageTick)

/-- `_persist`: the record in memory is written to the card. -/
def persist (call : StageCall) : StageProgram Unit := do
  let state ← Durable.remembered
  Durable.attempt (tick.refuse call) fun world ↦ { world with record := state }

/-- A comment, a create or a move, committed under its request id. -/
def commitRequest (call : StageCall) (requestId : String) : StageProgram Unit :=
  Durable.attempt (tick.refuse call) fun world ↦
    { world with committed := requestId :: world.committed }

/-- Change a run, then `_persist`. -/
def amendRun (i : ℕ) (call : StageCall) (f : E2eRun → E2eRun) : StageProgram Unit := do
  editRun i f
  persist tick call

/-- `_close`, then `_persist`. -/
def closeRun (i : ℕ) (call : StageCall) (reason : String) : StageProgram Unit :=
  amendRun tick i call (·.close reason)

def block (requestId outcome : String) : StageProgram StageOutcome := do
  commitRequest tick (.move requestId) requestId
  pure (.blocked outcome)

/-- `_block_run`: the Blocked move the run's record names. -/
def blockRun (i : ℕ) : StageProgram StageOutcome := do
  let run ← currentRun i
  block tick run.closing ("e2e " ++
    if run.result.isSome ∨ run.dispatch = .refused then run.status else "run unavailable")

end Programs

/-! ### Identification -/

/-- `E2E_CLOCK_MARGIN_SECONDS`, in microseconds. -/
def clockMargin : ℕ := 120 * 1000000

/-- `utc_text` keeps the whole second of a moment. -/
def wholeSecond (moment : ℕ) : ℕ := moment - moment % 1000000

/-- `matching_runs`: the listed runs that can be a dispatch's; a dispatch id is looked for in their
titles unless it is empty. -/
def matchingRuns (listed : List FoundRun) (branch sha : String) (since : ℕ) (dispatchId : String) :
    List FoundRun :=
  let found := listed.filter fun run ↦
    0 < run.id && run.event = "workflow_dispatch" && run.headBranch = branch && run.headSha = sha &&
      (run.createdAt.map fun created ↦ decide (since - clockMargin ≤ created)).getD false
  if dispatchId = "" then found else found.filter fun run ↦ decide (Mentions dispatchId run.title)

/-- A candidate run as a message lists it. -/
def FoundRun.listing (run : FoundRun) : String :=
  (if run.htmlUrl = "" then toString run.id else run.htmlUrl) ++ " (created " ++ run.createdText ++ ")"

/-- The first characters of a SHA, as messages show it. -/
def shortSha (sha : String) : String := Release.shortSha sha

/-- The page of a workflow run. -/
def runPage (repo : String) (runId : ℕ) : String :=
  "https://github.com/" ++ repo ++ "/actions/runs/" ++ toString runId

/-- What looking a run up came to: it is too early, the run was closed, or a head SHA with the error
that kept it empty. -/
inductive Lookup
  | settling
  | closed
  | head (sha error : String)

/-- The head SHA on the run, which is closed if it is another than the candidate's. -/
def E2eRun.checkHead (run : E2eRun) (head : String) : E2eRun :=
  if head = run.sha then { run with headSha := head }
  else { run with headSha := head }.close <|
    "The e2e run " ++ run.runUrl ++ " ran on `" ++ shortSha head ++ "`, not on the candidate `" ++
      shortSha run.sha ++ "`: `" ++ run.branch ++ "` moved between the dispatch and the run. It is " ++
      "not accepted as this candidate's e2e result."

section Settling

variable (tick : StageTick) (declaration : E2eDeclaration)

/-- The lookup of a run whose dispatch answer was lost. -/
def lookUpLost (i : ℕ) : StageProgram Lookup := do
  let run ← currentRun i
  if tick.settleNow run.dispatchId < run.intentAt + (clockMargin + tick.recoverySettle) then
    pure .settling
  else
    match tick.listedRuns run.dispatchId with
    | .error detail => pure (.head "" (tick.oneLine 500 detail))
    | .ok listed =>
      let titled := declaration.dispatchIdInput ≠ ""
      match matchingRuns listed run.branch run.sha run.intentAt
          (if titled then run.dispatchId else "") with
      | [] => pure (.head "" "")
      | [found] =>
        amendRun tick i (.recovered run.dispatchId) fun run ↦ { run with
          runId := found.id
          runUrl := runPage run.repo found.id
          identifiedBy := .recovery
          recoveryRule := "the only workflow_dispatch run of " ++ run.workflow ++ " on " ++ run.branch ++
            " at " ++ run.sha ++ " created at or after " ++ tick.utcText (run.intentAt - clockMargin) ++
            (if titled then ", its title carrying " ++ run.dispatchId else "") ++
            ", looked up at " ++ tick.utcText (tick.settleNow run.dispatchId) }
        commitRequest tick (.recoveredComment run.dispatchId) (stageRequestId "e2e-recovered" run.dispatchId)
        pure (.head found.headSha "")
      | candidates =>
        closeRun tick i (.ambiguous run.dispatchId) <|
          "The e2e run dispatched at " ++ tick.utcText run.intentAt ++ " for `" ++ shortSha run.sha ++
            "` cannot be told apart: " ++ toString candidates.length ++ " `" ++ run.workflow ++
            "` workflow_dispatch runs on `" ++ run.branch ++ "` at that SHA were created since: " ++
            ", ".intercalate ((candidates.mergeSort (·.id ≤ ·.id)).map FoundRun.listing) ++
            ". GitHub's answer naming the run was lost, so none is taken as this candidate's e2e " ++
            "result, and nothing is dispatched again."
        pure .closed

/-- The lookup of a run: one that GitHub's answer named is only asked for its SHA. -/
def lookUp (i : ℕ) : StageProgram Lookup := do
  let run ← currentRun i
  if run.runId = 0 then lookUpLost tick declaration i
  else
    match tick.headSha run.dispatchId with
    | .ok head => pure (.head head "")
    | .error detail => pure (.head "" (tick.oneLine 500 detail))

/-- `_identify`: nothing once the run and its SHA are on the record or the run is closed, else the
outcome of the tick. -/
def identify (i : ℕ) : StageProgram (Option StageOutcome) := do
  let found ← lookUp tick declaration i
  let run ← currentRun i
  match found with
  | .settling => pure (some (.identifying run.sha run.dispatchId))
  | .closed => pure none
  | .head head error =>
    if head = "" then
      if tick.windowNow run.dispatchId < run.intentAt + tick.identifyWindow then
        pure (some (.identifying run.sha run.dispatchId))
      else do
        closeRun tick i (.unidentified run.dispatchId) <|
          "The e2e run dispatched at " ++ tick.utcText run.intentAt ++ " for `" ++ shortSha run.sha ++
            "` (dispatch id `" ++ run.dispatchId ++ "`) could not be identified: " ++
            (if run.runId ≠ 0 then "its run " ++ run.runUrl ++ " could not be read"
              else "no `" ++ run.workflow ++ "` workflow_dispatch run on `" ++ run.branch ++
                "` at that SHA was found") ++
            " within " ++ toString (tick.identifyWindow / 1000000 / 60) ++ " minutes" ++
            (if run.dispatchDetail = "" then "" else " (" ++ run.dispatchDetail ++ ")") ++
            (if error = "" then "" else "; last error: " ++ error) ++
            ". Nothing was dispatched a second time."
        pure none
    else do
      amendRun tick i (.identified run.dispatchId) (·.checkHead head)
      pure none

def createWait (i : ℕ) : StageProgram Unit := do
  let run ← currentRun i
  commitRequest tick (.createWait run.dispatchId) (stageRequestId "e2e-wait" run.dispatchId)
  amendRun tick i (.waitNamed run.dispatchId) fun run ↦
    { run with waitRef := tick.createdWait run.dispatchId }

/-- Create the wait card, or close the run if the board refuses it. -/
def ensureWait (i : ℕ) : StageProgram Unit := do
  let run ← currentRun i
  tryCatch (createWait tick i) fun error ↦
    closeRun tick i (.waitRefused run.dispatchId) <|
      "The e2e run " ++ run.runUrl ++ " was dispatched, but its wait card could not be created: " ++
        error.code ++ ": " ++ error.message

/-- Read the wait card: the outcome while it waits, nothing once its result is copied to the run or
the run is closed. -/
def readWait (i : ℕ) : StageProgram (Option StageOutcome) := do
  let run ← currentRun i
  match tick.wait run.dispatchId with
  | .failed error => throw error
  | .missing =>
    closeRun tick i (.waitGone run.dispatchId) <|
      "The wait card " ++ run.waitRef ++ " of the e2e run " ++ run.runUrl ++ " no longer exists."
    pure none
  | .pending => pure (some (.waiting run.sha run.waitRef))
  | .frozen result _ =>
    amendRun tick i (.result run.dispatchId) fun run ↦ { run with
      result := some { result with
        evidence := if result.evidence = "" then run.runUrl else result.evidence } }
    pure none

/-! ### Outcomes -/

/-- Mark a run as acted on, unless it is. -/
def markActed (i : ℕ) : StageProgram Unit := do
  let run ← currentRun i
  if run.acted then pure ()
  else amendRun tick i (.acted run.dispatchId) fun run ↦ { run with acted := true }

/-- `_act`: what a frozen result does to the card; nothing when it is green. -/
def act (i : ℕ) : StageProgram (Option StageOutcome) := do
  let run ← currentRun i
  if run.outcome = targetReached ∧ run.conclusion = success then do
    commitRequest tick (.greenComment run.dispatchId) (stageRequestId "e2e-green" run.dispatchId)
    markActed tick i
    pure none
  else if run.outcome = targetReached ∧ run.conclusion = failure then
    let evidence := tick.redEvidence run.dispatchId
    if tick.step = .assessment then do
      closeRun tick i (.closed run.dispatchId) <|
        "Observer decision: release. The e2e stage is red: " ++ evidence.1 ++
          ". The card is Blocked rather than released.\nTail:\n```\n" ++ evidence.2 ++ "\n```"
      let outcome ← blockRun tick i
      pure (some outcome)
    else do
      markActed tick i
      pure (some (.rework evidence.1))
  else do
    closeRun tick i (.closed run.dispatchId) <|
      "The e2e run " ++ (if run.runUrl = "" then run.dispatchId else run.runUrl) ++ " on `" ++
        shortSha run.sha ++ "` " ++
        (if run.outcome = targetReached then
            "concluded " ++ (if run.conclusion = "" then "with no conclusion" else run.conclusion)
          else "was not waited out: its wait card ended " ++ run.outcome ++ " (" ++
            ((run.result.map RunResult.summary).getD "") ++ ")") ++
        ". That is the e2e infrastructure, not the candidate's code: the card is Blocked, and no " ++
        "worker round is charged. Wait card: " ++ run.waitRef ++ ". Evidence: " ++
        (let evidence := (run.result.map RunResult.evidence).getD ""
          if evidence = "" then run.runUrl else evidence) ++ "."
    let outcome ← blockRun tick i
    pure (some outcome)

/-- What is left of a settled run: the Blocked move of a closed one, the result of another. -/
def conclude (i : ℕ) : StageProgram (Option StageOutcome) := do
  let run ← currentRun i
  if run.closing ≠ "" then do
    let outcome ← blockRun tick i
    pure (some outcome)
  else act tick i

/-- Read the result of a run that is not closed, and conclude. -/
def readResult (i : ℕ) : StageProgram (Option StageOutcome) := do
  let run ← currentRun i
  if run.closing = "" then do
    let waiting ← readWait tick i
    match waiting with
    | some outcome => pure (some outcome)
    | none => conclude tick i
  else conclude tick i

/-- Wait for an identified run. -/
def awaitResult (i : ℕ) : StageProgram (Option StageOutcome) := do
  let run ← currentRun i
  if run.closing = "" ∧ run.waitRef = "" then do
    ensureWait tick i
    readResult tick i
  else readResult tick i

/-- `_settle_run`: nothing once the run is green, else the outcome of the tick. -/
def settleRun (i : ℕ) : StageProgram (Option StageOutcome) := do
  let run ← currentRun i
  if run.closing = "" ∧ run.result = none then
    if run.runId = 0 ∨ run.headSha = "" then do
      let pending ← identify tick declaration i
      match pending with
      | some outcome => pure (some outcome)
      | none => awaitResult tick i
    else awaitResult tick i
  else conclude tick i

end Settling

/-! ### Dispatch -/

/-- The conditional charge of a run to a sprint: a charge of the dispatch id that the sprint already
holds is not repeated. -/
def StageWorld.charge (world : StageWorld) (room : Bool) (charge : Charge) : Option StageWorld :=
  if room ∧ ∀ known ∈ world.charges, known.dispatchId ≠ charge.dispatchId then
    some { world with charges := world.charges ++ [charge] }
  else if charge ∈ world.charges then some world
  else none

/-- `record_e2e_intent`: the charge and the record in one write, or nothing. -/
def StageWorld.recordIntent (world : StageWorld) (room : Bool) (charge : Charge) (state : E2eState) :
    Option StageWorld :=
  if charge.sprint = "" then some { world with record := state }
  else (world.charge room charge).map fun charged ↦ { charged with record := state }

/-- What starting a run came to: it is recorded at a position, the repository could not be named, or
the sprint has no run left. -/
inductive Started
  | run (i : ℕ)
  | unnamed (detail : String)
  | spent

/-- The dispatch answer on the run. -/
def DispatchAnswer.apply (tick : StageTick) (sha : String) (answer : DispatchAnswer)
    (run : E2eRun) : E2eRun :=
  match answer with
  | .accepted runId =>
    if runId = 0 then { run with dispatch := .sent }
    else { run with
      dispatch := .sent
      runId
      runUrl := runPage run.repo runId
      identifiedBy := .answer }
  | .refused detail =>
    let detail := tick.oneLine 1000 detail
    { run with dispatch := .refused, dispatchDetail := detail }.close <|
      "The e2e workflow `" ++ run.workflow ++ "` could not be dispatched on `" ++ run.branch ++ "` @ `" ++
        shortSha sha ++ "`: " ++ detail ++ ". No run started and none was charged to a worker round; " ++
        "the workflow, its `workflow_dispatch` trigger or the dispatcher's access has to be repaired."
  | .unanswered detail =>
    { run with dispatchDetail := "unconfirmed: " ++ tick.oneLine 500 detail }

section Stage

variable (card : String) (tick : StageTick)

/-- The run an intent records. -/
def newRun (declaration : E2eDeclaration) (repo sha : String) (number : ℕ) : E2eRun where
  dispatchId := dispatchId beforeMergeInfix card number tick.token
  sha := sha
  repo := repo
  branch := "pipeline/" ++ card
  workflow := declaration.workflow
  intentAt := wholeSecond tick.intentNow
  deadline := declaration.deadline

/-- The record with a run more, which waits on no budget decision. -/
def E2eState.withRun (state : E2eState) (run : E2eRun) : E2eState :=
  { state with runs := state.runs ++ [run], budgetWait := none }

/-- `_dispatch`: charge and write the intent, then dispatch once. -/
def startRun (declaration : E2eDeclaration) (sha : String) : StageProgram Started := do
  match tick.repo with
  | .error detail => pure (.unnamed detail)
  | .ok repo =>
    let state ← Durable.remembered
    let run := newRun card tick declaration repo sha (state.runs.length + 1)
    let charge : Charge := { sprint := tick.task.sprint, dispatchId := run.dispatchId }
    let world ← Durable.stored
    match world.recordIntent tick.room charge (state.withRun run) with
    | none => pure .spent
    | some written =>
      Durable.attempt (tick.refuse .intent) fun _ ↦ written
      Durable.remember fun _ ↦ state.withRun run
      Durable.commit fun world ↦ { world with
        dispatches := world.dispatches ++ [{ dispatchId := run.dispatchId, sha, sprint := tick.task.sprint }] }
      amendRun tick state.runs.length .dispatched (tick.dispatch.apply tick sha)
      pure (.run state.runs.length)

/-! ### The budget -/

section

variable (scope : BudgetScope) (scopeRef : String) (generation : ℕ) (sha : String)

/-- `_decision_card`: the decision is cut once, and a card that its description does not list joins
it with a comment. -/
def decisionCard : StageProgram Unit := do
  let world ← Durable.stored
  let cut := decisionRequestId scopeRef generation
  if cut ∉ world.committed then commitRequest tick .decision cut
  else
    match tick.decisionLists with
    | .error error => throw error
    | .ok true => pure ()
    | .ok false =>
      commitRequest tick .decision (joinedTokens ["dispatcher", "e2e-budget-join", tick.decisionRef, card])

/-- Change the budget decision the card waits on, then `_persist`. -/
def setBudgetWait (call : StageCall) (waiting : Option BudgetWait) : StageProgram Unit := do
  Durable.remember fun state ↦ { state with budgetWait := waiting }
  persist tick call

/-- `_await_decision`: cut or join the decision of a budget generation, and wait on it. -/
def awaitDecision :
    StageProgram StageOutcome := do
  let cut ← tryCatch (do decisionCard card tick scopeRef generation; pure true)
    fun _ ↦ pure false
  if cut then do
    let state ← Durable.remembered
    if (state.budgetWait.filter fun waiting ↦
        waiting.decision = tick.decisionRef ∧ waiting.generation = generation) = none then
      setBudgetWait tick .budgetWait <| some {
        decision := tick.decisionRef, generation, scope, since := wholeSecond tick.waitNow }
    pure (.budgetWaiting tick.decisionRef sha)
  else block tick (attemptRequestId tick.attemptId "e2e-budget-blocked" card sha) "e2e budget spent"

/-- `_cap_spent`: a card outside every sprint spent its own cap. -/
def capSpent : StageProgram StageOutcome :=
  if tick.task.hasOrigin then awaitDecision card tick .card card tick.task.cap sha
  else
    block tick (attemptRequestId tick.attemptId "e2e-cap-blocked" card sha)
      ("e2e run cap reached (" ++ toString tick.task.cap ++ ")")

end

/-- The budget a waiting card is measured against, and whether it has a run left. -/
def budgetNow (state : E2eState) (waiting : BudgetWait) : ℕ × Bool :=
  match waiting.scope, tick.sprintBudget with
  | .sprint, some current => (current.budget, decide (current.used < current.budget))
  | .sprint, none => (waiting.generation, true)
  | .card, _ => (tick.task.cap, decide (state.dispatched < tick.task.cap))

/-- The budget stays spent once its decision is done or gone. -/
def declineBudget (waiting : BudgetWait) : StageProgram (Option StageOutcome) := do
  setBudgetWait tick .budgetCleared none
  let outcome ← block tick
    (joinedTokens ["dispatcher", "e2e-budget-declined", card, waiting.decision]) "e2e budget not raised"
  pure (some outcome)

/-- `_budget_recheck`: nothing once a run is available again, else the outcome of the tick. -/
def budgetRecheck (waiting : BudgetWait) : StageProgram (Option StageOutcome) := do
  let state ← Durable.remembered
  let current := budgetNow tick state waiting
  if current.2 ∨ waiting.generation < current.1 then do
    setBudgetWait tick .budgetCleared none
    pure none
  else
    match tick.decisionRead with
    | .failed error => throw error
    | .opened => pure (some (.budgetWaiting waiting.decision ""))
    | .done => declineBudget card tick waiting
    | .missing => declineBudget card tick waiting

/-! ### The stage -/

/-- `_validated_sha`: the exact SHA a green gate's receipt validated, or nothing. -/
def validatedSha (result : Release.GateResult) : String :=
  match result.attestation with
  | .fields payload => if Release.isExactSha payload.validatedSha then payload.validatedSha else ""
  | _ => ""

section

variable (declaration : E2eDeclaration)

/-- Start a run for a SHA and take it as far as it goes this tick. -/
def startAndSettle (sha : String) : StageProgram StageReply := do
  let state ← Durable.remembered
  if tick.task.sprint = "" ∧ tick.task.cap ≤ state.dispatched then do
    let outcome ← capSpent card tick sha
    pure (.outcome outcome)
  else do
    let started ← startRun card tick declaration sha
    match started with
    | .unnamed detail => pure (.outcome (.unnamedRepository sha detail))
    | .spent =>
      let outcome ← awaitDecision card tick .sprint tick.task.sprint tick.budget.budget sha
      pure (.outcome outcome)
    | .run i =>
      let settled ← settleRun tick declaration i
      pure (.outcome (settled.getD (.dispatching sha)))

/-- Carry the newest green run to a SHA across a base-only move, or start a run for it. -/
def carryOrStart (result : Release.GateResult) (sha : String) :
    StageProgram StageReply := do
  let state ← Durable.remembered
  match state.lastGreen with
  | none => startAndSettle card tick declaration sha
  | some i =>
    match tick.reconcile (state.run i).sha sha with
    | none => startAndSettle card tick declaration sha
    | some move =>
      if move ∉ (state.run i).reconciled then
        amendRun tick i .reconciled fun run ↦ { run with reconciled := run.reconciled ++ [move] }
      pure (.proceed result (some move))

/-- The stage from the gate on: the gate's SHA is green, red, carried, or gets a run of its own. -/
def judgeGate : StageProgram StageReply := do
  match tick.gate with
  | .outcome => pure (.outcome .gate)
  | .green result =>
    let sha := validatedSha result
    let state ← Durable.remembered
    if sha = "" then pure (.proceed result none)
    else if (state.green sha).isSome then pure (.proceed result none)
    else
      match state.latest sha with
      | none => carryOrStart card tick declaration result sha
      | some i =>
        if (state.run i).conclusion = failure ∧ (state.run i).closing = "" then do
          let outcome ← act tick i
          pure ((outcome.map StageReply.outcome).getD .notApplicable)
        else carryOrStart card tick declaration result sha

/-- The stage once no run is left to settle. -/
def judgeBudget : StageProgram StageReply := do
  let state ← Durable.remembered
  match state.budgetWait with
  | none => judgeGate card tick declaration
  | some waiting =>
    let held ← budgetRecheck card tick waiting
    match held with
    | some outcome => pure (.outcome outcome)
    | none => judgeGate card tick declaration

/-- The stage of a project that declares it: a run left open is dealt with first. -/
def judgeRuns : StageProgram StageReply := do
  let state ← Durable.remembered
  match state.runs.getLast? with
  | none => judgeBudget card tick declaration
  | some last =>
    let i := state.runs.length - 1
    let world ← Durable.stored
    if last.closing ≠ "" ∧ last.closing ∉ world.committed then do
      let outcome ← blockRun tick i
      pure (.outcome outcome)
    else if last.closing = "" ∧ last.acted = false then do
      let settled ← settleRun tick declaration i
      match settled with
      | some outcome => pure (.outcome outcome)
      | none => judgeBudget card tick declaration
    else judgeBudget card tick declaration

end

def runStage : StageProgram StageReply :=
  if ¬ (tick.task.hasCandidate ∧ tick.task.isCode) then pure .notApplicable
  else
    match tick.declaration with
    | .error _ => do
      let outcome ← block tick (attemptRequestId tick.attemptId "e2e-declaration-blocked" card "")
        "e2e declaration unreadable"
      pure (.outcome outcome)
    | .ok none => pure .notApplicable
    | .ok (some declaration) =>
      if declaration.afterMerge then pure .notApplicable else judgeRuns card tick declaration

/-- A tick parses the card's record once, at its start. -/
def StageWorld.parsed (world : StageWorld) : E2eState := world.record.reread

end Stage

end Ummanu.E2e
