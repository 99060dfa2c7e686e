import Ummanu.E2e.Queue

/-!
# The e2e after the merge

One tick of the dispatcher over a project's watches and its after-merge queue: `reconcileWatches` resolves
every watch that has an answer and queues the green ones, and `reconcileAfterMerge` takes the queue one
step further (the marks of newly queued cards, the run in flight, the budget decisions, the next run, the
branches to delete). An exception ends the queue's step and not the tick, and the tick ends by saving
whatever is in memory.

A run is started in this order: the target and the covered cards are chosen, the run is saved as in
flight, one transaction writes the intent on every covered card and charges it, the branch is created, and
the workflow is dispatched. From then on the run is settled like a run before the merge, until its end is
acted on and the slot is released.
-/

set_option autoImplicit false

namespace Ummanu.E2e

open Library

/-! ### Landings and watches -/

/-- The watches with a landing: a watch without a result is kept. -/
def Payload.land (payload : Payload) (landing : Landing) : Payload :=
  match payload.watch landing.ref with
  | none => payload.setWatch landing.watch
  | some existing =>
    if existing.result.isSome then payload.setWatch landing.watch
    else if existing.mergeSha = "" then payload.setWatch { existing with mergeSha := landing.sha }
    else payload

/-- `open_watch`, and the save that follows it. -/
def openWatch (landing : Landing) : AmProgram Unit := do
  savePayload (·.land landing)

section Watches

variable (tick : AmTick)

/-- `_read_ci`: a green or red reading of the merge commit's CI, and the watch with what was read. -/
def readCi (watch : Watch) : Watch × Option Bool :=
  let watch := if watch.mergeSha = "" then { watch with mergeSha := tick.mergeCommit watch.ref } else watch
  if watch.mergeSha = "" then (watch, none)
  else
    let named := if watch.repo = "" then tick.watchRepo watch.ref else some watch.repo
    match named with
    | none => (watch, none)
    | some repo => ({ watch with repo }, tick.ci watch.mergeSha)

/-- `resolve`: the watch's result, or none while it is pending, and the watch with what was read. -/
def resolve (watch : Watch) : Watch × Option WatchResult :=
  if watch.absentReason ≠ "" then (watch, some ⟨.absent, watch.mergeSha⟩)
  else
    let read := readCi tick watch
    match read.2 with
    | some true => (read.1, some ⟨.green, read.1.mergeSha⟩)
    | some false => (read.1, some ⟨.red, read.1.mergeSha⟩)
    | none =>
      if tick.timedOut watch.ref then (read.1, some ⟨.timeout, read.1.mergeSha⟩) else (read.1, none)

/-- The entry a green watch is queued as. -/
def Watch.entry (watch : Watch) : Entry where
  ref := watch.ref
  mergeSha := watch.sha
  sprint := watch.sprint
  mergedAt := watch.startedAt
  repo := watch.repo
  base := watch.base

/-- What `enqueue` makes of a watch: whether it may be dropped, and the entry it is queued as. -/
structure Enqueued where
  settled : Bool
  entry : Option Entry := none

def enqueue (watch : Watch) : AmProgram Enqueued := do
  if watch.green = false then pure { settled := true }
  else
    match tick.placement watch.ref with
    | .error _ => pure { settled := false }
    | .ok declared =>
      if declared.filter (·.afterMerge) = none ∨ watch.ref = "" ∨ watch.sha = "" then
        pure { settled := true }
      else do
        let payload ← recallPayload
        if watch.ref ∈ payload.knownRefs then pure { settled := true }
        else
          match tick.unreadable (.enqueue watch.ref) with
          | some _ => pure { settled := false }
          | none => do
            let world ← Durable.stored
            if (world.cards watch.ref).afterMerge.map AfterMergeMark.mergeSha = some watch.sha then
              pure { settled := true }
            else pure { settled := true, entry := some watch.entry }

/-- The pending set with an entry more. -/
def Payload.queue (payload : Payload) (entry : Option Entry) : Payload :=
  { payload with pending := payload.pending ++ entry.toList }

/-- What is left of a watch once its result is published. -/
def queueWatch (watch : Watch) : AmProgram Unit := do
  let queued ← enqueue tick watch
  savePayload (·.queue queued.entry)
  if queued.settled then savePayload (·.dropWatch watch.ref) else pure ()

/-- A watch with a result is published once, and then queued. -/
def publishWatch (watch : Watch) : AmProgram Unit := do
  if watch.published then queueWatch tick watch
  else
    match tick.refuse (.publish watch.ref) with
    | some _ => pure ()
    | none => do
      editPayload (·.setWatch { watch with published := true })
      queueWatch tick { watch with published := true }

/-- One watch of a tick. -/
def reconcileWatch (ref : String) : AmProgram Unit := do
  let payload ← recallPayload
  match payload.watch ref with
  | none => pure ()
  | some watch =>
    if watch.result.isSome then publishWatch tick watch
    else
      match resolve tick watch with
      | (read, none) => editPayload (·.setWatch read)
      | (read, some result) => do
        savePayload (·.setWatch { read with result := some result })
        publishWatch tick { read with result := some result }

/-- `reconcile_post_merge_watches`. -/
def reconcileWatches : AmProgram Unit := do
  let payload ← recallPayload
  ((payload.watches.map Watch.ref).insertionSort (· ≤ ·)).forM (reconcileWatch tick)

end Watches

/-! ### Marks -/

section Marks

variable (tick : AmTick)

/-- The mark of a newly queued card. -/
def markEntry (entry : Entry) : AmProgram Unit := do
  let state ← showCard tick (.mark entry.ref) entry.ref
  if tick.isCode entry.ref then do
    Durable.attempt (tick.refuse (.mark entry.ref)) fun world ↦
      world.writeCard entry.ref { state with
        afterMerge := some {
          mergeSha := entry.mergeSha
          charged := (state.afterMerge.map AfterMergeMark.charged).getD [] } }
    editPayload fun payload ↦ { payload with
      pending := payload.pending.map fun other ↦
        if other = entry then { other with marked := true } else other }
  else editPayload fun payload ↦ { payload with pending := payload.pending.erase entry }

def markQueued : AmProgram Unit := do
  let payload ← recallPayload
  let fresh := payload.pending.filter (·.marked = false)
  fresh.forM (markEntry tick)
  if fresh = [] then pure () else save

end Marks

/-! ### The run in hand -/

/-- The run at a position of the carrier's record in memory. -/
def E2eState.carried (state : E2eState) (i : ℕ) : E2eRun := state.afterMergeRuns.getD i blankRun

def E2eState.updateCarried (state : E2eState) (i : ℕ) (f : E2eRun → E2eRun) : E2eState :=
  { state with afterMergeRuns := state.afterMergeRuns.modify i f }

/-- `_close` of an after-merge run. -/
def E2eRun.shut (run : E2eRun) (reason : String) : E2eRun :=
  { run with
    closing := stageRequestId "e2e-am-closed" run.dispatchId
    closingReason := reason }

def runInHand (i : ℕ) : AmProgram E2eRun := do
  let memory ← Durable.remembered
  pure (memory.state.carried i)

def editHand (f : E2eState → E2eState) : AmProgram Unit :=
  Durable.remember fun memory ↦ { memory with state := f memory.state }

section Settling

variable (project : String) (tick : AmTick) (carrier : String)

/-- `_persist` of the carrier's record. -/
def persistHand (call : AmCall) : AmProgram Unit := do
  let memory ← Durable.remembered
  Durable.attempt (tick.refuse call) (·.writeCard carrier memory.state)

/-- Change the run in hand, then `_persist`. -/
def amendHand (i : ℕ) (step : String) (f : E2eRun → E2eRun) : AmProgram Unit := do
  let run ← runInHand i
  editHand (·.updateCarried i f)
  persistHand tick carrier (.run step run.dispatchId)

/-- `_remark`: the carrier's mark goes into the record in hand. -/
def remark (step ref : String) (f : AfterMergeMark → AfterMergeMark) : AmProgram Unit :=
  if ref = carrier then do
    editHand fun state ↦ { state with
      afterMerge := some (f (state.afterMerge.getD { mergeSha := "" })) }
    persistHand tick carrier (.remark step ref)
  else remarkOther tick step ref f

/-- The lookup of a run whose dispatch answer was lost. -/
def findLost (i : ℕ) : AmProgram Lookup := do
  let run ← runInHand i
  if tick.settleNow run.dispatchId < run.intentAt + (clockMargin + tick.recoverySettle) then
    pure .settling
  else
    match tick.lookupDeclaration with
    | .error detail => pure (.head "" (tick.oneLine 500 detail))
    | .ok declared =>
      let titled := (declared.filter (·.dispatchIdInput ≠ "")).isSome
      match tick.listedRuns run.dispatchId with
      | .error detail => pure (.head "" (tick.oneLine 500 detail))
      | .ok listed =>
        match matchingRuns listed run.gitRef run.sha run.intentAt
            (if titled then run.dispatchId else "") with
        | [] => pure (.head "" "")
        | [found] => do
          amendHand tick carrier i "recovered" fun run ↦ { run with
            runId := found.id
            runUrl := runPage run.repo found.id
            identifiedBy := .recovery
            recoveryRule := "the only workflow_dispatch run of " ++ run.workflow ++ " on " ++
              run.gitRef ++ " at " ++ run.sha ++ " created at or after " ++
              tick.utcText (run.intentAt - clockMargin) ++
              (if titled then ", its title carrying " ++ run.dispatchId else "") ++
              ", looked up at " ++ tick.utcText (tick.settleNow run.dispatchId) }
          let run ← runInHand i
          comment tick (.recovered run.dispatchId) carrier <|
            "After-merge e2e run " ++ run.runUrl ++ " was identified by recovery, not by GitHub's " ++
              "dispatch answer (that answer was lost): " ++ run.recoveryRule ++ "."
          pure (.head found.headSha "")
        | candidates => do
          amendHand tick carrier i "ambiguous" (·.shut <|
            "The after-merge e2e run dispatched at " ++ tick.utcText run.intentAt ++ " on `" ++
              run.gitRef ++ "` cannot be told apart: " ++ toString candidates.length ++ " `" ++
              run.workflow ++ "` workflow_dispatch runs at `" ++ shortSha run.sha ++
              "` were created since: " ++
              ", ".intercalate ((candidates.mergeSort (·.id ≤ ·.id)).map FoundRun.listing) ++
              ". None is taken as its result, and nothing is dispatched again.")
          pure .closed

def findRun (i : ℕ) : AmProgram Lookup := do
  let run ← runInHand i
  if run.runId = 0 then findLost tick carrier i
  else
    match tick.headSha run.dispatchId with
    | .ok head => pure (.head head "")
    | .error detail => pure (.head "" (tick.oneLine 500 detail))

/-- The head SHA on the run: a foreign one closes it, its own is shown on the covered cards. -/
def attachHead (i : ℕ) (head : String) : AmProgram Unit := do
  let run ← runInHand i
  if head ≠ run.sha then
    amendHand tick carrier i "identified" fun run ↦ { run with headSha := head }.shut <|
      "The after-merge e2e run " ++ run.runUrl ++ " ran on `" ++ shortSha head ++
        "`, not on the target `" ++ shortSha run.sha ++ "`: `" ++ run.gitRef ++
        "` moved between the dispatch and the run. It is not attached to the covered cards."
  else do
    editHand (·.updateCarried i fun run ↦ { run with headSha := head })
    run.covered.forM fun item ↦
      remark tick carrier "identified" item.ref fun mark ↦ { mark with runUrl := run.runUrl }
    persistHand tick carrier (.run "identified" run.dispatchId)

/-- `_identify`: whether the run and its SHA are on the record, or the run is closed. -/
def identifyRun (i : ℕ) : AmProgram Bool := do
  let found ← findRun tick carrier i
  let run ← runInHand i
  match found with
  | .settling => pure false
  | .closed => pure true
  | .head head error =>
    if head = "" then
      if tick.windowNow run.dispatchId < run.intentAt + tick.identifyWindow then pure false
      else do
        amendHand tick carrier i "unidentified" (·.shut <|
          "The after-merge e2e run dispatched at " ++ tick.utcText run.intentAt ++ " for `" ++
            shortSha run.sha ++ "` (dispatch id `" ++ run.dispatchId ++
            "`) could not be identified: " ++
            (if run.runId ≠ 0 then "its run " ++ run.runUrl ++ " could not be read"
              else "no `" ++ run.workflow ++ "` workflow_dispatch run on `" ++ run.gitRef ++
                "` at that SHA was found") ++
            " within " ++ toString (tick.identifyWindow / 1000000 / 60) ++ " minutes" ++
            (if run.dispatchDetail = "" then "" else " (" ++ run.dispatchDetail ++ ")") ++
            (if error = "" then "" else "; last error: " ++ error) ++
            ". Nothing was dispatched a second time.")
        pure true
    else do
      attachHead tick carrier i head
      pure true

/-- `_sprint_open`. -/
def openSprint (sprint : String) : AmProgram String :=
  if sprint = "" then pure ""
  else
    match tick.sprintOpen sprint with
    | .error error => throw error
    | .ok opened => pure (if opened then sprint else "")

/-- The cards of a run, as texts list them. -/
def E2eRun.coveredRefs (run : E2eRun) : String := ", ".intercalate (run.covered.map Covered.ref)

def E2eRun.coveredLines (run : E2eRun) : String :=
  "\n".intercalate (run.covered.map fun item ↦ "- " ++ item.ref ++ ": merged as `" ++ item.mergeSha ++ "`")

/-- `_create_wait`. -/
def makeWait (i : ℕ) : AmProgram Unit := do
  let run ← runInHand i
  let sprint ← openSprint tick (if run.chargedTo = "cards" then "" else run.chargedTo)
  let created ← issue tick {
    name := .wait run.dispatchId
    kind := .created
    card := ""
    title := "E2E after merge: " ++ run.workflow ++ " on " ++ project ++ " @ " ++ shortSha run.sha
    body := "The dispatcher waits here for the after-merge `" ++ run.workflow ++
      "` run it dispatched on `" ++ run.gitRef ++ "` @ `" ++ run.sha ++ "` (dispatch id `" ++
      run.dispatchId ++ "`), covering " ++ run.coveredRefs ++ ". Its result returns to " ++ carrier ++
      ", the newest covered card, whose e2e record names this card."
    flags := [run.runUrl, run.deadline, "card:" ++ carrier]
    sprint
    made := tick.createdWait run.dispatchId }
  amendHand tick carrier i "wait" fun run ↦ { run with waitRef := created.made }

/-- The wait card is created, or the run closed if the board refuses it. -/
def requireWait (i : ℕ) : AmProgram Unit := do
  let run ← runInHand i
  tryCatch (makeWait project tick carrier i) fun error ↦
    amendHand tick carrier i "wait-refused" (·.shut <|
      "The run " ++ run.runUrl ++ " was dispatched, but its wait card could not be created: " ++
        error.code ++ ": " ++ error.message)

/-- Read the wait card: whether its result is on the run, or the run is closed. -/
def readAnswer (i : ℕ) : AmProgram Bool := do
  let run ← runInHand i
  match tick.wait run.dispatchId with
  | .failed error => throw error
  | .missing => do
    amendHand tick carrier i "wait-gone" (·.shut <|
      "The wait card " ++ run.waitRef ++ " of the run " ++ run.runUrl ++ " no longer exists.")
    pure true
  | .pending => pure false
  | .frozen result _ => do
    amendHand tick carrier i "result" fun run ↦ { run with
      result := some { result with
        evidence := if result.evidence = "" then run.runUrl else result.evidence } }
    pure true

/-! ### The end of a run -/

section

variable (run : E2eRun) (item : Covered)

/-- The comment on a card of a green run. -/
def E2eRun.greenBody : String :=
  "## E2E after merge — green\n\nThe e2e workflow `" ++ run.workflow ++ "` run " ++ run.runUrl ++
    " concluded success on `main` @ `" ++ run.sha ++ "` (dispatched on `" ++ run.gitRef ++
    "`, wait card " ++ run.waitRef ++ "). It covers " ++ run.coveredRefs ++ "; this card merged as `" ++
    item.mergeSha ++ "`.\n\nCovered cards:\n" ++ run.coveredLines

/-- The comment on a card of a red run. -/
def E2eRun.redBody : String :=
  "## E2E after merge — red\n\nThe e2e workflow `" ++ run.workflow ++ "` run " ++ run.runUrl ++
    " concluded " ++ run.conclusion ++ " on `main` @ `" ++ run.sha ++
    "`, a run covering this card (merged as `" ++ item.mergeSha ++ "`). The hotfix card is " ++
    run.hotfix ++ ".\n\nCovered cards:\n" ++ run.coveredLines

def E2eRun.hotfixDescription (summary log : String) : String :=
  let text := "The after-merge e2e run of `" ++ run.workflow ++ "` on `main` concluded **" ++
    run.conclusion ++ "**: " ++ summary ++ ".\n\n- run: " ++ run.runUrl ++ "\n- conclusion: " ++
    run.conclusion ++ "\n- SHA: `" ++ run.sha ++ "` (dispatched on `" ++ run.gitRef ++
    "`, dispatch id `" ++ run.dispatchId ++ "`)\n- wait card: " ++ run.waitRef ++
    "\n\n## Covered cards\n\nEvery card merged since the last after-merge run, with its merge commit; " ++
    "the failure is attributed to all of them:\n\n" ++ run.coveredLines ++
    "\n\n## Log (`gh run view --log-failed`, bounded)\n\n```\n" ++ log ++
    "\n```\n\n## What to do\n\nFind which covered change broke the e2e run and fix it on `main`. " ++
    "The next after-merge run covers this hotfix once it merges."
  if text.toList.length ≤ 12000 then text else String.ofList (text.toList.take 11999 ++ ['…'])

/-- The reason of the Blocked move of a hotfix card that nobody owns. -/
def E2eRun.unownedText (hotfix : String) : String :=
  "after-merge e2e red, no sprint or origin owns it: the after-merge e2e run " ++ run.runUrl ++
    " concluded " ++ run.conclusion ++ " on `main` @ `" ++ shortSha run.sha ++ "`, covering " ++
    run.coveredRefs ++ ". The hotfix card " ++ hotfix ++
    " has no open sprint and no PO session to go to: the owner decides who fixes it."

/-- What a run that is neither green nor red came to. -/
def E2eRun.requeueReason : String :=
  if run.closing ≠ "" then run.closingReason
  else if run.outcome = targetReached then
    "The after-merge e2e run " ++ run.runUrl ++ " on `main` @ `" ++ shortSha run.sha ++
      "` concluded " ++ (if run.conclusion = "" then "with no conclusion" else run.conclusion) ++ "."
  else
    "The after-merge e2e run " ++ (if run.runUrl = "" then run.dispatchId else run.runUrl) ++
      " on `main` @ `" ++ shortSha run.sha ++ "` was not waited out: its wait card " ++ run.waitRef ++
      " ended " ++ run.outcome ++ " (" ++ ((run.result.map RunResult.summary).getD "") ++ ")."

def Resolution.text : Resolution → String
  | .green => "green"
  | .red => "red"
  | .requeued => "requeued"
  | .blocked => "blocked"

/-- The comment on a card that is pending again. -/
def E2eRun.requeueBody : String :=
  "## E2E after merge — " ++ ((run.resolution.map Resolution.text).getD "") ++ "\n\n" ++
    run.requeueReason ++ "\n\nThat is not this change's code: no hotfix card is cut. The covered cards " ++
    "are pending again, and the next after-merge run of the project covers them (charged as usual).\n\n" ++
    "Covered cards:\n" ++ run.coveredLines

end

section

variable (i : ℕ) (entries : List Entry)

/-- `_green`. -/
def actGreen : AmProgram Unit := do
  let run ← runInHand i
  run.covered.forM fun item ↦ do
    comment tick (.green item.ref run.dispatchId) item.ref (run.greenBody item)
    remark tick carrier "green" item.ref fun mark ↦
      { mark with state := .green, runUrl := run.runUrl, note := "" }

/-- The create of the run's hotfix card, or the committed one. -/
def createHotfix : AmProgram Request := do
  let run ← runInHand i
  let world ← Durable.stored
  let _ ← showCard tick .hotfix carrier
  match world.committed.find? (·.name = .hotfix run.dispatchId) with
  | some known => pure known
  | none => do
    let sprint ← openSprint tick (tick.sprintOf carrier)
    issue tick {
      name := .hotfix run.dispatchId
      kind := .created
      card := ""
      title := "Hotfix: after-merge e2e red on main @ " ++ shortSha run.sha ++ " (" ++ run.workflow ++ ")"
      body := run.closingReason
      sprint
      origin := sprint = "" && tick.hasOrigin carrier
      made := (tick.hotfixRef run.dispatchId).text }

/-- `_hotfix`: a hotfix card that nobody owns is Blocked at once. -/
def makeHotfix : AmProgram String := do
  let run ← runInHand i
  let created ← createHotfix tick carrier i
  if created.sprint ≠ "" ∨ created.origin then pure created.made
  else
    match tick.unreadable .hotfixState with
    | some error => throw error
    | none =>
      if tick.hotfixReady run.dispatchId then do
        let _ ← issue tick {
          name := .hotfixBlocked run.dispatchId
          kind := .moved
          card := created.made
          body := run.unownedText created.made }
        pure created.made
      else pure created.made

/-- The hotfix card on the run. -/
def requireHotfix : AmProgram Unit := do
  let run ← runInHand i
  if run.hotfix = "" then do
    let hotfix ← makeHotfix tick carrier i
    amendHand tick carrier i "hotfix" fun run ↦ { run with hotfix }
  else pure ()

/-- `_red`. -/
def actRed : AmProgram Unit := do
  requireHotfix tick carrier i
  let run ← runInHand i
  run.covered.forM fun item ↦ do
    comment tick (.red item.ref run.dispatchId) item.ref (run.redBody item)
    remark tick carrier "red" item.ref fun mark ↦
      { mark with state := .red, hotfix := run.hotfix, runUrl := run.runUrl }

/-- `_requeue`. -/
def actRequeue : AmProgram Unit := do
  let run ← runInHand i
  run.covered.forM fun item ↦ do
    comment tick (.requeued item.ref run.dispatchId) item.ref run.requeueBody
    remark tick carrier "requeued" item.ref fun mark ↦
      { mark with state := .pending, note := tick.oneLine 500 run.requeueReason, dispatchId := "", runUrl := "" }
  editPayload (·.putBack entries)

/-- The end of a run, from its closing and its result. -/
def E2eRun.ending (run : E2eRun) : Resolution :=
  if run.closing ≠ "" then .blocked
  else if run.outcome = targetReached ∧ run.conclusion = success then .green
  else if run.outcome = targetReached ∧ run.conclusion = failure then .red
  else .requeued

/-- The resolution on the run, with the evidence of a red one. -/
def E2eRun.resolve (run : E2eRun) (evidence : String × String) : E2eRun :=
  if run.ending = .red then
    { run with
      resolution := some .red
      closingReason := run.hotfixDescription evidence.1 evidence.2 }
  else { run with resolution := some run.ending }

/-- The resolution is on the record before any effect. -/
def requireResolution : AmProgram Unit := do
  let run ← runInHand i
  if run.resolution = none then
    amendHand tick carrier i "resolution" (·.resolve (tick.redEvidence run.dispatchId))
  else pure ()

/-- The effects of a resolution. -/
def applyEnd : AmProgram Unit := do
  let run ← runInHand i
  match run.resolution with
  | some .green => actGreen tick carrier i
  | some .red => actRed tick carrier i
  | _ => actRequeue tick carrier i entries

/-- `_act`. -/
def actOnEnd : AmProgram Unit := do
  requireResolution tick carrier i
  applyEnd tick carrier i entries
  amendHand tick carrier i "acted" fun run ↦ { run with acted := true }

end

/-! ### A run in flight -/

/-- Read the answer of a run that is not closed. -/
def awaitAnswer (i : ℕ) : AmProgram Bool := do
  let run ← runInHand i
  if run.closing = "" then readAnswer tick carrier i else pure true

/-- Wait for an identified run. -/
def awaitRun (i : ℕ) : AmProgram Bool := do
  let run ← runInHand i
  if run.closing = "" ∧ run.waitRef = "" then do
    requireWait project tick carrier i
    awaitAnswer tick carrier i
  else awaitAnswer tick carrier i

/-- Take a run to its end: whether it has one. -/
def endRun (i : ℕ) : AmProgram Bool := do
  let run ← runInHand i
  if run.closing = "" ∧ run.result = none then
    if run.runId = 0 ∨ run.headSha = "" then do
      let identified ← identifyRun tick carrier i
      if identified then awaitRun project tick carrier i else pure false
    else awaitRun project tick carrier i
  else pure true

/-- The slot is released, and the run's branch is to be deleted. -/
def Payload.release (payload : Payload) (carrier : String) (run : E2eRun) : Payload :=
  { payload with
    run := none
    cleanup :=
      if run.gitRefState = .deleted ∨ payload.cleanup.any (·.dispatchId = run.dispatchId) then
        payload.cleanup
      else payload.cleanup ++ [⟨run.repo, run.gitRef, run.dispatchId, carrier⟩] }

/-- A run whose end was acted on leaves the slot. -/
def releaseRun (i : ℕ) : AmProgram Unit := do
  let run ← runInHand i
  savePayload (·.release carrier run)

/-- The cards of a run that came to nothing are pending again. -/
def Payload.putBackFor (payload : Payload) (run : E2eRun) (entries : List Entry) : Payload :=
  if run.resolution = some .requeued ∨ run.resolution = some .blocked then payload.putBack entries
  else payload

/-- A run that is on the board, taken as far as it goes: whether the slot is free. A run that was acted
on before a crash lost the release is only released. -/
def settleCarried (i : ℕ) (entries : List Entry) : AmProgram Bool := do
  let run ← runInHand i
  if run.acted then do
    editPayload (·.putBackFor run entries)
    releaseRun carrier i
    pure true
  else do
    let ended ← endRun project tick carrier i
    if ended then do
      actOnEnd tick carrier i entries
      releaseRun carrier i
      pure true
    else pure false

end Settling

section Queue

variable (project : String) (tick : AmTick)

/-- `_settle`: whether the slot is free. A run without an intent on the board puts its cards back. -/
def settleFlight (flight : InFlight) : AmProgram Bool := do
  let state ← showCard tick .settle flight.carrier
  editHand fun _ ↦ state
  match state.afterMergeRuns.findIdx? (·.dispatchId = flight.dispatchId) with
  | none => do
    savePayload fun payload ↦ { payload with pending := flight.entries ++ payload.pending, run := none }
    pure true
  | some i => settleCarried project tick flight.carrier i flight.entries

/-! ### The budget -/

/-- `_decline`: the card leaves the pending set. -/
def decline (ref text decision : String) : AmProgram Unit := do
  comment tick (.declined ref (if decision = "" then "cap" else decision)) ref
    ("## E2E after merge — declined\n\n" ++ text)
  remarkOther tick "declined" ref fun mark ↦
    { mark with state := .declined, decision, note := tick.oneLine 500 text }
  editPayload fun payload ↦ { payload with pending := payload.pending.filter (·.ref ≠ ref) }

def declineAll : AmProgram Unit := do
  let payload ← recallPayload
  (payload.pending.map Entry.ref).forM fun ref ↦
    decline tick ref "the project's adapter no longer declares an after-merge e2e stage, so no run covers it" ""
  save

/-- Where a card's after-merge run would be, as decisions show it. -/
def whereText (mergeSha : String) : String := "`" ++ mergeSha ++ "` (its merge; the after-merge e2e run)"

/-- `_decision_card` of a sprint: the decision is cut once, and a card it does not list joins it. -/
def sprintDecisionCard (sprint : String) (generation : ℕ) (waiting : List Entry) :
    AmProgram String := do
  let name := RequestName.sprintDecision sprint generation
  let world ← Durable.stored
  match world.committed.find? (·.name = name) with
  | some known => do
    waiting.forM fun entry ↦ do
      match tick.decisionLists entry.ref with
      | .error error => throw error
      | .ok true => pure ()
      | .ok false =>
        comment tick (.join known.made entry.ref) known.made
          (entry.ref ++ " (" ++ tick.title entry.ref ++ ") also waits for its e2e run on " ++
            whereText entry.mergeSha ++
            ", and joins this decision: the same answer applies to it.")
    pure known.made
  | none => do
    let created ← issue tick {
      name, kind := .created, card := "", body := tick.decisionText name, sprint
      made := tick.decisionRef name }
    pure created.made

/-- `_batch_decision`: cut once. -/
def batchDecisionCard (spent : List String) (generation : ℕ) : AmProgram String := do
  let name := RequestName.batchDecision spent generation
  let world ← Durable.stored
  match world.committed.find? (·.name = name) with
  | some known => pure known.made
  | none => do
    let created ← issue tick {
      name, kind := .created, card := "", body := tick.decisionText name, origin := true
      made := tick.decisionRef name }
    pure created.made

/-- The covered cards wait on a decision. -/
def holdBatch (covered : List Entry) (hold : BudgetHold) : AmProgram Unit := do
  savePayload fun payload ↦ { payload with budgetWaits := [hold] }
  covered.forM fun entry ↦
    remarkOther tick "budget" entry.ref fun mark ↦
      { mark with state := .budgetWait, decision := hold.decision, dispatchId := "", carrier := "", runUrl := "" }

/-- `_batch_unowned`. -/
def declineBatch (covered : List Entry) (spent : List String) : AmProgram Unit := do
  covered.forM fun entry ↦
    decline tick entry.ref
      ("No after-merge e2e run is dispatched: it would cover " ++
        ", ".intercalate (covered.map Entry.ref) ++ ", outside every open sprint, and the e2e cap of " ++
        ", ".intercalate spent ++ " is spent. No covered card came from a PO session, so there is " ++
        "nobody to hand the money decision to but the owner: re-cut the work in a sprint with an e2e " ++
        "budget, or through the PO.") ""
  save

def budgetSpent (covered : List Entry) (sprint : String) (spent : List String) : AmProgram Unit := do
  let refs := covered.map Entry.ref
  if sprint ≠ "" then do
    let decision ← sprintDecisionCard tick sprint tick.budget.budget covered
    holdBatch tick covered {
      decision, generation := tick.budget.budget, scope := .sprint, scopeRef := sprint
      spent := [], cards := refs }
  else if (spent ++ refs).any tick.hasOrigin then do
    let generation := (spent.map tick.cap).sum
    let decision ← batchDecisionCard tick spent generation
    holdBatch tick covered {
      decision, generation, scope := .cards, scopeRef := (refs.getLast?).getD ""
      spent, cards := refs }
  else declineBatch tick covered spent

/-- `_cap_line` of a card whose cap is not spent. -/
def capLine (entry : Entry) (state : E2eState) : String :=
  "- " ++ entry.ref ++ " waits (" ++ tick.title entry.ref ++ ") on " ++ whereText entry.mergeSha ++
    ": cap " ++ toString state.dispatched ++ " of " ++ toString (tick.cap entry.ref) ++ " runs, not spent"

/-- A pending card is listed on an open decision. -/
def listOnHold (hold : BudgetHold) (entry : Entry) (state : E2eState) : AmProgram Unit :=
  match hold.scope with
  | .sprint => do
    let _ ← sprintDecisionCard tick hold.scopeRef hold.generation [entry]
    pure ()
  | .cards =>
    comment tick (.join hold.decision entry.ref) hold.decision
      (capLine tick entry state ++
        "\n\nIt merged while this decision is open and joins the batch: the same answer applies to it.")

/-- A pending card joins an open decision. -/
def joinHold (hold : BudgetHold) (entry : Entry) : AmProgram Unit := do
  let state ← showCard tick (.join entry.ref) entry.ref
  listOnHold tick hold entry state
  remarkOther tick "join" entry.ref fun mark ↦
    { mark with state := .budgetWait, decision := hold.decision }

/-- `_join`. -/
def joinAll : BudgetHold → List Entry → AmProgram Unit
  | _, [] => pure ()
  | hold, entry :: rest =>
    if entry.ref ∈ hold.cards then joinAll hold rest
    else do
      joinHold tick hold entry
      let joined := { hold with cards := hold.cards ++ [entry.ref] }
      savePayload fun payload ↦ { payload with
        budgetWaits := payload.budgetWaits.map fun other ↦ if other = hold then joined else other }
      joinAll joined rest

/-- The spent caps of a hold, and whether all of them have room. -/
def shortCaps (spent : List String) : AmProgram (List String) := do
  let world ← Durable.stored
  spent.forM fun ref ↦ do
    let _ ← showCard tick (.recheck ref) ref
    pure ()
  pure (spent.filter fun ref ↦ decide (tick.cap ref ≤ (world.cards ref).dispatched))

/-- Whether a hold has room, and what is spent. -/
def holdRoom (hold : BudgetHold) : AmProgram (Bool × String) :=
  match hold.scope with
  | .sprint =>
    let budget := ((tick.sprintBudget hold.scopeRef).map SprintBudget.budget).getD hold.generation
    let room := ((tick.sprintBudget hold.scopeRef).map fun current ↦
      decide (current.used < current.budget ∨ hold.generation < current.budget)).getD true
    pure (room, "the e2e budget of " ++ hold.scopeRef ++ " (" ++ toString budget ++ " runs) is spent")
  | .cards => do
    let short ← shortCaps tick hold.spent
    pure (short = [], "the e2e cap of " ++ ", ".intercalate short ++ " is spent")

/-- The cards of a hold whose decision brought no raise are declined. -/
def declineHold (hold : BudgetHold) (text : String) : AmProgram Unit := do
  hold.cards.forM fun ref ↦ do
    let payload ← recallPayload
    if payload.pending.any (·.ref = ref) then decline tick ref text hold.decision else pure ()
  savePayload fun payload ↦ { payload with budgetWaits := payload.budgetWaits.erase hold }

/-- What a declined card is told. -/
def declineText (what decision how : String) : String :=
  "No after-merge e2e run is dispatched: " ++ what ++ ", and the decision " ++ decision ++ " " ++ how ++
    ". This is the owner's money decision, not a defect of the card's code."

/-- One hold of a recheck. -/
def recheckHold (hold : BudgetHold) : AmProgram Unit := do
  let answer ← holdRoom tick hold
  if answer.1 then do
    savePayload fun payload ↦ { payload with budgetWaits := payload.budgetWaits.erase hold }
  else
    match tick.decisionRead hold.decision with
    | .failed error => throw error
    | .opened => do
      let payload ← recallPayload
      joinAll tick hold payload.pending
    | .done =>
      declineHold tick hold (declineText answer.2 hold.decision "was completed without a raise")
    | .missing => declineHold tick hold (declineText answer.2 hold.decision "no longer exists")

/-- `_budget_recheck`: whether a hold is left. -/
def recheckBudget : AmProgram Bool := do
  let payload ← recallPayload
  payload.budgetWaits.forM (recheckHold tick)
  let payload ← recallPayload
  pure (payload.budgetWaits ≠ [])

/-! ### Starting a run -/

/-- `_repo`. -/
def repoOf (entries : List Entry) : Except String String :=
  match entries.find? (·.repo ≠ "") with
  | some entry => .ok entry.repo
  | none => tick.repo

def isAncestor (sha target : String) : Except String Bool :=
  if sha = target then .ok true else tick.compare sha target

/-- The entries whose merge is the target or one of its ancestors. -/
def coverable (target : String) : List Entry → Except String (List Entry)
  | [] => .ok []
  | entry :: rest => do
    let covered ← isAncestor tick entry.mergeSha target
    let others ← coverable target rest
    pure (if covered then entry :: others else others)

/-- The comparisons with a target that answered `ahead` or `identical`. -/
def ancestry (dispatchId : String) (target : Entry) (entries : List Entry) : List Compared :=
  (entries.filter fun entry ↦
      (isAncestor tick entry.mergeSha target.mergeSha).toOption = some true).map
    fun entry ↦ ⟨dispatchId, entry.mergeSha, target.mergeSha⟩

/-- The run an intent records. -/
def newAmRun (declaration : E2eDeclaration) (repo : String) (dispatchId sha sprint : String)
    (covered : List Entry) : E2eRun where
  dispatchId := dispatchId
  sha := sha
  repo := repo
  branch := "pipeline-e2e/" ++ dispatchId
  workflow := declaration.workflow
  intentAt := wholeSecond tick.intentNow
  deadline := declaration.deadline
  covered := covered.map Entry.pair
  gitRef := "pipeline-e2e/" ++ dispatchId
  chargedTo := if sprint = "" then "cards" else sprint

/-- The record of a covered card with the intent. -/
def E2eState.withIntent (state : E2eState) (carrier sprint : String) (run : E2eRun) (item : Covered) :
    E2eState :=
  let charged := (state.afterMerge.map AfterMergeMark.charged).getD []
  { state with
    afterMerge := some {
      mergeSha := item.mergeSha
      state := .covered
      dispatchId := run.dispatchId
      carrier
      charged := if sprint = "" then charged ++ [run.dispatchId] else charged }
    afterMergeRuns := if item.ref = carrier then state.afterMergeRuns ++ [run] else state.afterMergeRuns }

/-- The board with the intent of a run on every covered card. -/
def AmWorld.withIntent (world : AmWorld) (carrier sprint : String) (run : E2eRun) : AmWorld :=
  { world with
    cards := fun ref ↦
      match run.covered.find? (·.ref = ref) with
      | some item => ((world.cards ref).withIntent carrier sprint run item).reread
      | none => world.cards ref }

/-- `record_after_merge_intent`: the charge and the intent in one write, or the spent cards. -/
def AmWorld.recordIntent (world : AmWorld) (carrier sprint : String) (run : E2eRun) :
    Except (List String) AmWorld :=
  if sprint ≠ "" then
    let charge : Charge := ⟨sprint, run.dispatchId⟩
    if tick.room ∧ ∀ known ∈ world.charges, known.dispatchId ≠ charge.dispatchId then
      .ok ({ world with charges := world.charges ++ [charge] }.withIntent carrier sprint run)
    else if charge ∈ world.charges then .ok (world.withIntent carrier sprint run)
    else .error []
  else
    match (run.covered.map Covered.ref).filter fun ref ↦
        decide (tick.cap ref ≤ (world.cards ref).dispatched) with
    | [] => .ok (world.withIntent carrier sprint run)
    | spent => .error spent

/-- The dispatch answer on an after-merge run. -/
def DispatchAnswer.attach (answer : DispatchAnswer) (run : E2eRun) : E2eRun :=
  match answer with
  | .accepted runId =>
    if runId = 0 then { run with dispatch := .sent }
    else { run with
      dispatch := .sent
      runId
      runUrl := runPage run.repo runId
      identifiedBy := .answer }
  | .refused detail =>
    let detail := tick.oneLine 1000 detail
    { run with dispatch := .refused, dispatchDetail := detail }.shut <|
      "The e2e workflow `" ++ run.workflow ++ "` could not be dispatched on `" ++ run.gitRef ++ "` @ `" ++
        shortSha run.sha ++ "`: " ++ detail ++ ". No run started."
  | .unanswered detail =>
    { run with dispatchDetail := "unconfirmed: " ++ tick.oneLine 500 detail }

def pushAndDispatch (carrier : String) (i : ℕ) (sprint : String) : AmProgram Unit := do
  match tick.createRef with
  | .error detail =>
    amendHand tick carrier i "ref-refused" fun run ↦
      { run with dispatch := .refused, dispatchDetail := tick.oneLine 1000 detail }.shut <|
        "The branch `" ++ run.gitRef ++ "` could not be pointed at `" ++ shortSha run.sha ++ "`: " ++
          tick.oneLine 1000 detail ++ ". Nothing was dispatched."
  | .ok () => do
    amendHand tick carrier i "ref" fun run ↦ { run with gitRefState := .created }
    let run ← runInHand i
    Durable.commit fun world ↦ { world with
      dispatches := world.dispatches ++ [⟨run.dispatchId, run.sha, sprint⟩] }
    amendHand tick carrier i "dispatched" (tick.dispatch.attach tick)

def notCode (ref : String) : TaskError where
  code := "validation"
  message := ref ++ " is not a code card; it carries no e2e runs"

/-- The run in flight is saved, its intent recorded, and the workflow dispatched. -/
def launch (carrier sprint : String) (run : E2eRun) (covered : List Entry) : AmProgram Unit := do
  let flight : InFlight := ⟨carrier, run.dispatchId, run.sha, covered⟩
  savePayload fun payload ↦ { payload with
    run := some flight
    pending := payload.pending.filter (· ∉ covered) }
  match (covered.map Entry.ref).find? (!tick.isCode ·) with
  | some ref => throw (notCode ref)
  | none =>
    let world ← Durable.stored
    match world.recordIntent tick carrier sprint run with
    | .error spent => do
      savePayload fun payload ↦ { payload with run := none, pending := covered ++ payload.pending }
      budgetSpent tick covered sprint spent
    | .ok written => do
      Durable.attempt (tick.refuse .intent) fun _ ↦ written
      editHand fun _ ↦ written.cards carrier
      pushAndDispatch tick carrier (world.cards carrier).afterMergeRuns.length sprint
      let _ ← settleFlight project tick flight
      pure ()

/-- A run over the covered cards, whose carrier is the target's card. -/
def startCovered (declaration : E2eDeclaration) (repo : String) (target : Entry)
    (covered : List Entry) : AmProgram Unit := do
  covered.forM fun entry ↦ do
    let _ ← showCard tick (.start entry.ref) entry.ref
    pure ()
  let sprint ← openSprint tick (tick.sprintOf target.ref)
  let world ← Durable.stored
  let id := dispatchId afterMergeInfix target.ref ((world.cards target.ref).afterMergeRuns.length + 1) tick.token.text
  Durable.commit fun world ↦ { world with
    compared := world.compared ++ ancestry tick id target covered }
  launch project tick target.ref sprint (newAmRun tick declaration repo id target.mergeSha sprint covered) covered

/-- `_start`. -/
def startNext : AmProgram Unit := do
  match tick.declaration with
  | .error _ => pure ()
  | .ok declared =>
    match declared.filter (·.afterMerge) with
    | none => declineAll tick
    | some declaration => do
      let payload ← recallPayload
      let pending := payload.pending.insertionSort (·.mergedAt ≤ ·.mergedAt)
      match pending.getLast? with
      | none => pure ()
      | some target =>
        match repoOf tick pending, coverable tick target.mergeSha pending with
        | .ok repo, .ok covered => startCovered project tick declaration repo target covered
        | _, _ => pure ()

/-! ### The tick -/

/-- The deleted branch on the run's record. -/
def markDeleted (item : Cleanup) : AmProgram Unit :=
  if item.carrier = "" then pure ()
  else do
    let state ← showCard tick (.cleanup item.dispatchId) item.carrier
    editHand fun _ ↦ state
    match state.afterMergeRuns.findIdx? (·.dispatchId = item.dispatchId) with
    | none => pure ()
    | some i =>
      if (state.carried i).gitRefState = .deleted then pure ()
      else amendHand tick item.carrier i "ref-deleted" fun run ↦ { run with gitRefState := .deleted }

/-- `_cleanup_refs`, one branch. -/
def cleanRef (item : Cleanup) : AmProgram Unit := do
  match tick.deleteRef item.dispatchId with
  | .error _ => pure ()
  | .ok () => do
    markDeleted tick item
    savePayload fun payload ↦ { payload with cleanup := payload.cleanup.erase item }

def cleanupRefs : AmProgram Unit := do
  let payload ← recallPayload
  payload.cleanup.forM (cleanRef tick)

/-- The slot is free: spent budgets first, then the next run. -/
def useSlot : AmProgram Unit := do
  let payload ← recallPayload
  let held ← if payload.budgetWaits = [] then pure false else recheckBudget tick
  if held then pure ()
  else do
    let payload ← recallPayload
    if payload.pending = [] then pure () else startNext project tick

def progress : AmProgram Unit := do
  markQueued tick
  let payload ← recallPayload
  match payload.run with
  | none => useSlot project tick
  | some flight => do
    let done ← settleFlight project tick flight
    if done then useSlot project tick else pure ()

/-- `reconcile_after_merge`: an exception ends the queue's step, and not the tick. -/
def reconcileAfterMerge : AmProgram Unit := do
  tryCatch (do progress project tick; cleanupRefs tick) fun _ ↦ pure ()
  let payload ← recallPayload
  if payload.pending = [] ∧ payload.run = none ∧ payload.budgetWaits = [] ∧ payload.cleanup = [] then
    save
  else pure ()

/-- The after-merge part of a dispatcher tick, and the save at its end. -/
def amTick : AmProgram Unit := do
  reconcileWatches tick
  reconcileAfterMerge project tick
  save

end Queue

/-- What can happen: a merge lands, or the dispatcher ticks. -/
inductive AmEvent
  | landing (landing : Landing)
  | tick (tick : AmTick)

/-- One event. -/
def amStep (project : String) : AmEvent → AmProgram Unit
  | .landing landing => openWatch landing
  | .tick tick => amTick project tick

/-- The production state is loaded at the start of a tick. -/
def AmWorld.loaded (world : AmWorld) : AmMemory := { payload := world.saved }

end Ummanu.E2e
