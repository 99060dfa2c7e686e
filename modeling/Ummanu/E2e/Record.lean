import Ummanu.Ledger.RequestToken
import Ummanu.Release.Readiness

/-!
# A card's e2e record

A code card carries every workflow run the dispatcher started for it, in one field of its extension
bag. `E2eState` is that field: the runs of the stage before the merge, the budget decision the card
waits on, where the card stands in its project's e2e after the merge, and the after-merge runs it
carries.

The field is JSON text that is parsed again at every tick. `E2eState.reread` is what parsing makes
of a written state: a run without a dispatch id or a SHA is dropped, a result without an outcome
reads as no result, and a mark without a merge SHA reads as none.

A dispatch id is made of the card, an infix, the number of the run on that card and a random token.
Its number can be read back from it (`dispatchId_number_inj`), whatever the token is, so that two
runs of one card never share an id.

Scope. Times are microseconds; the text forms of a time are a parameter where a message needs one.
`placement`, which no reader of a run consults, is left out.
-/

set_option autoImplicit false

namespace Ummanu.E2e

open Library
open Ledger (joinedTokens)

/-! ### Request ids -/

/-- `stage_request_id`: a request id bound to one run. -/
def stageRequestId (action dispatchId : String) : String :=
  joinedTokens ["dispatcher", action, dispatchId]

/-! ### Dispatch ids -/

/-- The infix of a run before the merge. -/
def beforeMergeInfix : String := "-e2e-"

/-- `AFTER_MERGE_DISPATCH_INFIX`. -/
def afterMergeInfix : String := "-e2e-am-"

/-- A dispatch id: the card, the infix, the number of the run on the card and a random token. -/
def dispatchId (marker card : String) (number : ℕ) (token : String) : String :=
  card ++ marker ++ toString number ++ "-" ++ token

theorem dash_notMem_digits (n : ℕ) : '-' ∉ (toString n).toList := by
  rw [Nat.toString_eq_ofList_toDigits, String.toList_ofList]
  intro hdash
  have hdigit := Nat.isDigit_of_mem_toDigits (by decide) (by decide) hdash
  exact absurd hdigit (by decide)

/-- The number of a run can be read back from its dispatch id. -/
theorem dispatchId_number_inj {marker card token token' : String} {n m : ℕ}
    (hsame : dispatchId marker card n token = dispatchId marker card m token') : n = m := by
  have hlist := congrArg String.toList hsame
  simp only [dispatchId, String.toList_append, List.append_assoc, List.append_cancel_left_eq] at hlist
  have hdash : "-".toList = ['-'] := rfl
  obtain ⟨hdig, -⟩ := append_cons_inj_of_first (dash_notMem_digits n) (dash_notMem_digits m) hlist
  exact toString_injective (String.toList_inj.mp hdig)

theorem dispatchId_ne_empty (marker card : String) (n : ℕ) (token : String) :
    dispatchId marker card n token ≠ "" := by
  intro hnil
  have hlist := congrArg String.toList hnil
  simp [dispatchId] at hlist

/-! ### Runs -/

/-- `INTENT`, `SENT`, `REFUSED`. -/
inductive DispatchState
  | intent
  | sent
  | refused
  deriving DecidableEq

/-- How a run was named: not yet, by GitHub's dispatch answer, or by the lookup after it was lost. -/
inductive IdentifiedBy
  | nobody
  | answer
  | recovery
  deriving DecidableEq

/-- A wait card's frozen result, as copied to the run. -/
structure RunResult where
  outcome : String
  conclusion : String
  summary : String
  evidence : String
  key : String
  deriving DecidableEq

/-- A covered card of an after-merge run. -/
structure Covered where
  ref : String
  mergeSha : String
  deriving DecidableEq

/-- The dispatcher-owned branch of an after-merge run. -/
inductive GitRefState
  | none
  | created
  | deleted
  deriving DecidableEq

/-- How the result of an after-merge run was acted on. -/
inductive Resolution
  | green
  | red
  | requeued
  | blocked
  deriving DecidableEq

/-- `E2eRun`: one dispatch of the declared workflow for one SHA. -/
structure E2eRun where
  dispatchId : String
  sha : String
  repo : String
  branch : String
  workflow : String
  intentAt : ℕ
  deadline : String
  dispatch : DispatchState := .intent
  dispatchDetail : String := ""
  runId : ℕ := 0
  runUrl : String := ""
  headSha : String := ""
  identifiedBy : IdentifiedBy := .nobody
  recoveryRule : String := ""
  waitRef : String := ""
  result : Option RunResult := none
  closing : String := ""
  closingReason : String := ""
  acted : Bool := false
  reconciled : List Release.BaseMove := []
  covered : List Covered := []
  gitRef : String := ""
  gitRefState : GitRefState := .none
  chargedTo : String := ""
  resolution : Option Resolution := none
  hotfix : String := ""
  deriving DecidableEq

def targetReached : String := "target_reached"

def success : String := "success"

def failure : String := "failure"

namespace E2eRun

def outcome (run : E2eRun) : String := (run.result.map RunResult.outcome).getD ""

def conclusion (run : E2eRun) : String := (run.result.map RunResult.conclusion).getD ""

def green (run : E2eRun) : Bool :=
  run.result.isSome && run.outcome = targetReached && run.conclusion = success

def status (run : E2eRun) : String :=
  if run.dispatch = .refused then "dispatch_refused"
  else if run.result.isSome then
    if run.outcome = targetReached then
      if run.conclusion = "" then "no_conclusion" else run.conclusion
    else run.outcome
  else if run.runId = 0 ∨ run.headSha = "" then
    if run.dispatch = .sent ∨ run.runId ≠ 0 then "identifying" else "dispatching"
  else if run.waitRef = "" then "wait_card_pending" else "waiting"

/-- `E2eRun.from_json` of a written run. -/
def reread (run : E2eRun) : Option E2eRun :=
  if run.dispatchId = "" ∨ run.sha = "" then none
  else some { run with
    result := run.result.filter (·.outcome ≠ "")
    covered := run.covered.filter (·.ref ≠ "") }

end E2eRun

/-! ### States -/

/-- Whose budget is spent. -/
inductive BudgetScope
  | sprint
  | card
  deriving DecidableEq

/-- `BudgetWait`: the decision a card with a spent budget waits on. -/
structure BudgetWait where
  decision : String
  generation : ℕ
  scope : BudgetScope
  since : ℕ
  deriving DecidableEq

/-- `_AM_STATES`. -/
inductive MarkState
  | pending
  | covered
  | green
  | red
  | budgetWait
  | declined
  deriving DecidableEq

/-- `AfterMergeMark`: where a merged card stands in its project's after-merge e2e. -/
structure AfterMergeMark where
  mergeSha : String
  state : MarkState := .pending
  dispatchId : String := ""
  runUrl : String := ""
  carrier : String := ""
  hotfix : String := ""
  decision : String := ""
  note : String := ""
  charged : List String := []
  deriving DecidableEq

/-- `AfterMergeMark.from_json` of a written mark. -/
def AfterMergeMark.reread (mark : AfterMergeMark) : Option AfterMergeMark :=
  if mark.mergeSha = "" then none
  else some { mark with charged := mark.charged.filter (· ≠ "") }

structure E2eState where
  runs : List E2eRun := []
  budgetWait : Option BudgetWait := none
  afterMerge : Option AfterMergeMark := none
  afterMergeRuns : List E2eRun := []
  deriving DecidableEq

namespace E2eState

section

variable (state : E2eState) (sha : String)

/-- `dispatched`: the runs that count against a card's own cap. -/
def dispatched : ℕ :=
  state.runs.length + ((state.afterMerge.map fun mark ↦ mark.charged.length).getD 0)

/-- The position of the newest run that meets a condition. -/
def newest (p : E2eRun → Bool) : Option ℕ :=
  (List.range state.runs.length).reverse.find? fun i ↦ (state.runs[i]?.map p).getD false

/-- `latest`: the newest record for a SHA. -/
def latest : Option ℕ :=
  state.newest (·.sha = sha)

/-- `green`: the newest run that concluded success on a SHA. -/
def green : Option ℕ :=
  state.newest fun run ↦ run.sha = sha && run.green

/-- `last_green`: the newest run that concluded success. -/
def lastGreen : Option ℕ :=
  state.newest E2eRun.green

/-- `E2eState.from_json` of a written state. -/
def reread : E2eState where
  runs := state.runs.filterMap E2eRun.reread
  budgetWait := state.budgetWait.filter (·.decision ≠ "")
  afterMerge := state.afterMerge.bind AfterMergeMark.reread
  afterMergeRuns := state.afterMergeRuns.filterMap E2eRun.reread

end

theorem newest_eq_some {state : E2eState} {p : E2eRun → Bool} {i : ℕ}
    (hlast : state.newest p = some i) : ∃ run, state.runs[i]? = some run ∧ p run = true := by
  have hfound := List.find?_some hlast
  cases hrun : state.runs[i]? with
  | none => simp [hrun] at hfound
  | some run => exact ⟨run, rfl, by simpa [hrun] using hfound⟩

theorem newest_eq_none {state : E2eState} {p : E2eRun → Bool} (hlast : state.newest p = none) :
    ∀ run ∈ state.runs, p run = false := by
  intro run hrun
  obtain ⟨i, hi, rfl⟩ := List.mem_iff_getElem.mp hrun
  have hnone := List.find?_eq_none.mp hlast i (by simpa using hi)
  simpa [List.getElem?_eq_getElem hi] using hnone

end E2eState

end Ummanu.E2e
