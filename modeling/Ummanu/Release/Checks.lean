import Ummanu.Library.Texts

/-!
# The CI verdict of a candidate

The `ci: github` gate is green when GitHub's checks of the candidate SHA are. `_poll_ci` asks for the
check runs and for the legacy commit statuses, puts the entries of both answers in one list, narrows it
to the names the adapter requires, and folds a verdict over what is left. The bottom layer here is that
computation, on entries as the JSON shows them: an entry is told to be a status by the keys it has, and
an answer that is not JSON reads as an empty list.

Above it is what GitHub holds (`Hub`): check runs and commit statuses in their own terms, and what it
means that every check passed (`EveryCheckPassed`). GitHub serves one page of a list unless more is
asked for, and neither request asks for more, so a list is served up to its thirtieth entry. A green
verdict says that the served entries passed (`pollCi_success`), and it says that every check passed
exactly if the entries that were not served do (`everyCheckPassed_iff`).

Scope. Statuses and conclusions are compared after ASCII upper-casing. The fields of an entry that only the
receipt shows are left out.
-/

set_option autoImplicit false

namespace Ummanu.Release

/-! ### Entries -/

/-- A field of a JSON object. -/
inductive Field
  | absent
  | null
  | text (value : String)
  deriving DecidableEq

/-- `key in item`. -/
def Field.present (field : Field) : Bool := field ≠ .absent

/-- `str(item.get(key, ""))`. -/
def Field.shown : Field → String
  | .absent => ""
  | .null => "None"
  | .text value => value

/-- `item.get(key) or other`. -/
def Field.orElse (field : Field) (other : String) : String :=
  match field with
  | .text value => if value = "" then other else value
  | _ => other

/-- An entry of a rollup: a check run or a legacy commit status. -/
structure CheckItem where
  id : ℕ
  name : Field := .absent
  context : Field := .absent
  status : Field := .absent
  conclusion : Field := .absent
  state : Field := .absent
  deriving DecidableEq

def upper (value : String) : String := String.ofList (value.toList.map Char.toUpper)

def failConclusions : List String :=
  ["FAILURE", "TIMED_OUT", "CANCELLED", "ACTION_REQUIRED", "STALE", "STARTUP_FAILURE"]

inductive CheckResult
  | pass
  | fail
  | pending
  deriving DecidableEq

def checkResult (item : CheckItem) : CheckResult :=
  if item.state.present ∧ ¬ item.status.present then
    let state := upper item.state.shown
    if state ∈ ["FAILURE", "ERROR"] then .fail
    else if state = "SUCCESS" then .pass
    else .pending
  else if upper item.status.shown ≠ "COMPLETED" then .pending
  else if upper item.conclusion.shown ∈ failConclusions then .fail
  else .pass

def checkName (item : CheckItem) : String :=
  String.ofList (Library.strip (item.name.orElse (item.context.orElse "")).toList)

/-! ### The rollup -/

inductive Rollup
  | pending
  | nothing
  | failure
  | success
  deriving DecidableEq

/-- The accumulators of the fold over the judged entries. -/
structure Tally where
  firstFail : Option CheckItem := none
  pending : Bool := false
  deriving DecidableEq

def Tally.add (tally : Tally) (item : CheckItem) : Tally :=
  if checkResult item = .fail ∧ tally.firstFail = none then { tally with firstFail := some item }
  else if checkResult item = .pending then { tally with pending := true }
  else tally

section

variable (items : List CheckItem) (required : List String)

/-- The bucket of a required name. -/
def bucket (name : String) : List CheckItem :=
  items.filter (checkName · = name)

/-- The verdict over the entries that are judged. -/
def judge : Rollup × Option CheckItem :=
  if items = [] then (.nothing, none)
  else
    let tally := items.foldl Tally.add {}
    if tally.pending then (.pending, none)
    else if tally.firstFail.isSome then (.failure, tally.firstFail)
    else (.success, none)

def rollup : Rollup × Option CheckItem :=
  if required = [] then judge items
  else if ∃ name ∈ required, bucket items name = [] then (.pending, none)
  else judge (required.flatMap (bucket items))

/-- `_selected_checks`: the entries the gate judged, by name and id. -/
def selectedChecks : List CheckItem :=
  let key := fun item : CheckItem ↦
    if item.id = 0 then item.context.orElse "" else toString item.id
  (items.filter fun item ↦ required = [] ∨ checkName item ∈ required).mergeSort fun a b ↦
    checkName a < checkName b ∨ checkName a = checkName b ∧ key a ≤ key b

end

/-! ### The two reads -/

/-- What a `gh api` call answered. -/
inductive ApiAnswer
  | failed (detail : String)
  | blank
  | notJson
  | other
  | list (items : List (Option CheckItem))

/-- `_gh_api`, as far as `_poll_ci` reads it: the objects of a list. Text that is not JSON reads as an
empty list. -/
def ghApi : ApiAnswer → Except String (List CheckItem)
  | .failed detail => .error ("gate gh api failed: " ++ detail)
  | .blank => .ok []
  | .notJson => .ok []
  | .other => .ok []
  | .list items => .ok (items.filterMap id)

/-- `_poll_ci`, from the answers about the check runs and about the statuses. -/
def pollCi (runs statuses : ApiAnswer) (required : List String) :
    Except String (Rollup × Option CheckItem × List CheckItem) := do
  let checkRuns ← ghApi runs
  let commitStatuses ← ghApi statuses
  let items := checkRuns ++ commitStatuses
  let verdict := rollup items required
  pure (verdict.1, verdict.2, selectedChecks items required)

/-! ### What a verdict says of the entries -/

theorem tally_foldl (items : List CheckItem) (tally : Tally) :
    ((items.foldl Tally.add tally).pending = false ↔
        tally.pending = false ∧ ∀ item ∈ items, checkResult item ≠ .pending) ∧
      ((items.foldl Tally.add tally).firstFail = none ↔
        tally.firstFail = none ∧ ∀ item ∈ items, checkResult item ≠ .fail) := by
  induction items generalizing tally with
  | nil => simp
  | cons item _ ih =>
    obtain ⟨hpend, hfail⟩ := ih (tally.add item)
    rw [List.foldl_cons, hpend, hfail]
    cases hres : checkResult item <;> cases hfst : tally.firstFail <;>
      simp [Tally.add, hres, hfst]

/-- A list of entries is judged a success if it has one and all of them passed. -/
theorem judge_eq_success_iff (items : List CheckItem) :
    (judge items).1 = .success ↔ items ≠ [] ∧ ∀ item ∈ items, checkResult item = .pass := by
  obtain ⟨hpend, hfail⟩ := tally_foldl items {}
  have hpass : (∀ item ∈ items, checkResult item = .pass) ↔
      (∀ item ∈ items, checkResult item ≠ .pending) ∧ ∀ item ∈ items, checkResult item ≠ .fail := by
    constructor
    · intro hall
      exact ⟨fun item hitem ↦ by simp [hall item hitem], fun item hitem ↦ by simp [hall item hitem]⟩
    · rintro ⟨hnone, hnot⟩ item hitem
      cases hres : checkResult item with
      | pass => rfl
      | fail => exact absurd hres (hnot item hitem)
      | pending => exact absurd hres (hnone item hitem)
  simp only [true_and] at hpend hfail
  rw [hpass, ← hpend, ← hfail, judge]
  split
  next hnil => simp [hnil]
  next hsome =>
    cases hwaits : (items.foldl Tally.add {}).pending <;>
      cases hred : (items.foldl Tally.add {}).firstFail <;>
        simp [hsome, hwaits, hred]

/-- An entry counts: no name is declared, or its name is. -/
def Judged (required : List String) (name : String) : Prop := required = [] ∨ name ∈ required

instance (required : List String) (name : String) : Decidable (Judged required name) :=
  inferInstanceAs (Decidable (_ ∨ _))

/-- A green rollup: each required name has an entry, there is one, and those that count passed. -/
theorem rollup_eq_success_iff (items : List CheckItem) (required : List String) :
    (rollup items required).1 = .success ↔
      (∀ name ∈ required, ∃ item ∈ items, checkName item = name) ∧ (required = [] → items ≠ []) ∧
        ∀ item ∈ items, Judged required (checkName item) → checkResult item = .pass := by
  have hbucket : ∀ name, bucket items name = [] ↔ ¬ ∃ item ∈ items, checkName item = name := by
    simp [bucket]
  rw [rollup]
  split
  next hnone => simp [hnone, judge_eq_success_iff, Judged]
  next hdecl =>
    split
    next hmiss =>
      obtain ⟨name, hname, hnil⟩ := hmiss
      refine ⟨nofun, fun ⟨hpres, _⟩ ↦ ?_⟩
      exact absurd (hpres name hname) ((hbucket name).mp hnil)
    next hfull =>
      have hpres : ∀ name ∈ required, ∃ item ∈ items, checkName item = name := by
        intro name hname
        by_contra hnone
        exact hfull ⟨name, hname, (hbucket name).mpr hnone⟩
      have hmem : ∀ item, item ∈ required.flatMap (bucket items) ↔
          item ∈ items ∧ checkName item ∈ required := by
        intro item
        simp only [List.mem_flatMap, bucket, List.mem_filter, decide_eq_true_eq]
        exact ⟨fun ⟨name, hname, hitem, hsame⟩ ↦ ⟨hitem, hsame ▸ hname⟩, fun ⟨hitem, hname⟩ ↦ ⟨_, hname, hitem, rfl⟩⟩
      have hsome : required.flatMap (bucket items) ≠ [] := by
        obtain ⟨name, hname⟩ := List.exists_mem_of_ne_nil required hdecl
        obtain ⟨item, hitem, hsame⟩ := hpres name hname
        exact List.ne_nil_of_mem ((hmem item).mpr ⟨hitem, hsame ▸ hname⟩)
      rw [judge_eq_success_iff]
      simp only [hmem, hsome, hdecl, Judged, false_or, false_implies, true_and, and_imp, ne_eq, not_false_eq_true]
      exact ⟨fun hpass ↦ ⟨hpres, hpass⟩, fun hpass ↦ hpass.2⟩

/-! ### What GitHub holds -/

/-- The statuses of a check run. -/
inductive RunStatus
  | queued
  | inProgress
  | waiting
  | requested
  | pending
  | completed
  deriving DecidableEq

def RunStatus.json : RunStatus → String
  | .queued => "queued"
  | .inProgress => "in_progress"
  | .waiting => "waiting"
  | .requested => "requested"
  | .pending => "pending"
  | .completed => "completed"

/-- The conclusions of a completed check run. -/
inductive RunConclusion
  | success
  | neutral
  | skipped
  | failure
  | timedOut
  | cancelled
  | actionRequired
  | stale
  | startupFailure
  deriving DecidableEq

def RunConclusion.json : RunConclusion → String
  | .success => "success"
  | .neutral => "neutral"
  | .skipped => "skipped"
  | .failure => "failure"
  | .timedOut => "timed_out"
  | .cancelled => "cancelled"
  | .actionRequired => "action_required"
  | .stale => "stale"
  | .startupFailure => "startup_failure"

/-- A conclusion that is not a failure. -/
def RunConclusion.good : RunConclusion → Bool
  | .success => true
  | .neutral => true
  | .skipped => true
  | _ => false

/-- The states of a commit status. -/
inductive StatusState
  | success
  | pending
  | failure
  | error
  deriving DecidableEq

def StatusState.json : StatusState → String
  | .success => "success"
  | .pending => "pending"
  | .failure => "failure"
  | .error => "error"

structure CheckRun where
  id : ℕ
  name : String
  status : RunStatus
  conclusion : Option RunConclusion

structure CommitStatus where
  id : ℕ
  context : String
  state : StatusState

/-- A check GitHub holds for a commit. -/
inductive Check
  | ofRun (run : CheckRun)
  | ofStatus (status : CommitStatus)

namespace Check

/-- A check as GitHub's API shows it. -/
def item : Check → CheckItem
  | ofRun run => {
      id := run.id
      name := .text run.name
      status := .text run.status.json
      conclusion := (run.conclusion.map fun ended ↦ .text ended.json).getD .null }
  | ofStatus status => {
      id := status.id
      context := .text status.context
      state := .text status.state.json }

/-- The name a check is required by. -/
def name (check : Check) : String := checkName check.item

/-- A check that is completed and not a failure. -/
def Passed : Check → Prop
  | ofRun run => run.status = .completed ∧ ∀ ended ∈ run.conclusion, ended.good = true
  | ofStatus status => status.state = .success

end Check

theorem RunStatus.upper_json (status : RunStatus) :
    upper status.json = "COMPLETED" ↔ status = .completed := by
  cases status <;> decide

theorem RunConclusion.upper_json (conclusion : RunConclusion) :
    upper conclusion.json ∈ failConclusions ↔ conclusion.good = false := by
  cases conclusion <;> decide

theorem StatusState.upper_json (state : StatusState) :
    (upper state.json = "SUCCESS" ↔ state = .success) ∧
      (upper state.json ∈ ["FAILURE", "ERROR"] → state ≠ .success) := by
  cases state <;> decide

/-- The gate's reading of a check is right. -/
theorem Check.checkResult_item (check : Check) : checkResult check.item = .pass ↔ check.Passed := by
  cases check with
  | ofRun run =>
    obtain ⟨id, name, st, conclusion⟩ := run
    rw [checkResult, if_neg (by simp [Check.item, Field.present])]
    simp only [Check.item, Field.shown, Check.Passed, RunStatus.upper_json, ne_eq, ite_not]
    split
    next hdone =>
      cases conclusion with
      | none => simp [upper, failConclusions, hdone]
      | some _ => simp [hdone, RunConclusion.upper_json]
    next hwaits => simp [hwaits]
  | ofStatus st =>
    have hshown : (Check.ofStatus st).item.state.shown = st.state.json := rfl
    rw [checkResult, if_pos (by simp [Check.item, Field.present])]
    simp only [hshown, Check.Passed]
    by_cases hred : upper st.state.json ∈ ["FAILURE", "ERROR"]
    · rw [if_pos hred]
      simpa using st.state.upper_json.2 hred
    · rw [if_neg hred]
      simp [st.state.upper_json.1]

/-- The checks GitHub holds for the candidate SHA. -/
structure Hub where
  checkRuns : List CheckRun
  statuses : List CommitStatus

namespace Hub

def runChecks (hub : Hub) : List Check := hub.checkRuns.map .ofRun

def statusChecks (hub : Hub) : List Check := hub.statuses.map .ofStatus

def checks (hub : Hub) : List Check := hub.runChecks ++ hub.statusChecks

end Hub

/-- Every check passed: each required name has a check, there is a check, and those that count are
completed and not failures. -/
structure EveryCheckPassed (hub : Hub) (required : List String) : Prop where
  present : ∀ name ∈ required, ∃ check ∈ hub.checks, check.name = name
  some : required = [] → hub.checks ≠ []
  passed : ∀ check ∈ hub.checks, Judged required check.name → check.Passed

/-! ### What GitHub serves -/

/-- How an answer of GitHub's arrived: as it was sent, cut to text that is not JSON, or not at all. -/
inductive Transfer
  | whole
  | cut
  | failed (detail : String)

/-- The entries of a list that one request is served: neither request asks for a larger page, or for
another one. -/
def pageSize : ℕ := 30

/-- The answer to a request for a list. -/
def Transfer.answer (transfer : Transfer) (checks : List Check) : ApiAnswer :=
  match transfer with
  | .whole => .list ((checks.take pageSize).map fun check ↦ some check.item)
  | .cut => .notJson
  | .failed detail => .failed detail

/-- The checks of a list that a request did not show. -/
def Transfer.unseen (transfer : Transfer) (checks : List Check) : List Check :=
  match transfer with
  | .whole => checks.drop pageSize
  | _ => checks

/-- `_poll_ci` on what GitHub holds. -/
def Hub.poll (hub : Hub) (runs statuses : Transfer) (required : List String) :
    Except String (Rollup × Option CheckItem × List CheckItem) :=
  pollCi (runs.answer hub.runChecks) (statuses.answer hub.statusChecks) required

/-- What a request shows, and what it does not, is the list. -/
theorem Transfer.answer_spec {transfer : Transfer} {checks : List Check} {items : List CheckItem}
    (hitems : ghApi (transfer.answer checks) = .ok items) :
    ∃ seen : List Check, items = seen.map Check.item ∧
      ∀ check, check ∈ checks ↔ check ∈ seen ∨ check ∈ transfer.unseen checks := by
  cases transfer with
  | failed _ => cases hitems
  | cut =>
    cases hitems
    exact ⟨[], rfl, by simp [unseen]⟩
  | whole =>
    cases hitems
    refine ⟨checks.take pageSize, by simp, fun _ ↦ ?_⟩
    rw [← List.mem_append, unseen, List.take_append_drop]

/-- A green verdict is a green rollup of the checks that were shown. -/
theorem Hub.poll_success {hub : Hub} {runs statuses : Transfer} {required : List String}
    (hgreen : (hub.poll runs statuses required).map Prod.fst = .ok .success) :
    ∃ seen : List Check, (rollup (seen.map Check.item) required).1 = .success ∧
      ∀ check, check ∈ hub.checks ↔ check ∈ seen ∨
        check ∈ runs.unseen hub.runChecks ++ statuses.unseen hub.statusChecks := by
  unfold Hub.poll pollCi at hgreen
  cases hruns : ghApi (runs.answer hub.runChecks) with
  | error e => simp [hruns, bind, Except.bind, Except.map] at hgreen
  | ok _ =>
    cases hstat : ghApi (statuses.answer hub.statusChecks) with
    | error e => simp [hruns, hstat, bind, Except.bind, Except.map] at hgreen
    | ok _ =>
      obtain ⟨seenRuns, rfl, hinRuns⟩ := Transfer.answer_spec hruns
      obtain ⟨seenStatuses, rfl, hinStatuses⟩ := Transfer.answer_spec hstat
      simp only [hruns, hstat, bind, Except.bind, pure, Except.pure, Except.map, Except.ok.injEq] at hgreen
      refine ⟨seenRuns ++ seenStatuses, by simpa using hgreen, fun _ ↦ ?_⟩
      simp only [Hub.checks, List.mem_append, hinRuns, hinStatuses]
      tauto

/-- A green CI gate means that every check passed exactly if the checks it was not shown did: those past
the thirtieth of their list, and those of a list whose answer was cut.

Assumes: the verdict is `SUCCESS`. -/
theorem everyCheckPassed_iff {hub : Hub} {runs statuses : Transfer} {required : List String}
    (hgreen : (hub.poll runs statuses required).map Prod.fst = .ok .success) :
    EveryCheckPassed hub required ↔
      ∀ check ∈ runs.unseen hub.runChecks ++ statuses.unseen hub.statusChecks,
        Judged required check.name → check.Passed := by
  obtain ⟨seen, hrollup, hchk⟩ := Hub.poll_success hgreen
  obtain ⟨hpres, hsome, hpass⟩ := (rollup_eq_success_iff _ _).mp hrollup
  constructor
  · intro hevery check huns
    exact hevery.passed check ((hchk check).mpr (.inr huns))
  · intro huns
    constructor
    · intro name hname
      obtain ⟨item, hitem, hsame⟩ := hpres name hname
      obtain ⟨check, hcheck, rfl⟩ := List.mem_map.mp hitem
      exact ⟨check, (hchk check).mpr (.inl hcheck), hsame⟩
    · intro hnone
      obtain ⟨check, hcheck⟩ := List.exists_mem_of_ne_nil seen (by simpa using hsome hnone)
      exact List.ne_nil_of_mem ((hchk check).mpr (.inl hcheck))
    · intro check hcheck hjudge
      obtain hcheck | hcheck := (hchk check).mp hcheck
      · exact check.checkResult_item.mp (hpass _ (List.mem_map_of_mem hcheck) hjudge)
      · exact huns check hcheck hjudge

/-- Twenty-nine passed jobs of a matrix, a passed build, a second build that ended so, and a passed status. -/
def crowdedHub (second : RunConclusion) : Hub where
  checkRuns := List.replicate 29 ⟨1, "matrix", .completed, some .success⟩ ++
    [⟨2, "build", .completed, some .success⟩, ⟨3, "build", .completed, some second⟩]
  statuses := [⟨4, "lint", .success⟩]

/-- The thirty-first check run and the status, whose answer was cut, are not shown and passed. -/
theorem everyCheckPassed_iff_witness :
    ((crowdedHub .success).poll .whole .cut ["build"]).map Prod.fst = .ok .success ∧
      EveryCheckPassed (crowdedHub .success) ["build"] := by
  have hgreen : ((crowdedHub .success).poll .whole .cut ["build"]).map Prod.fst = .ok .success := rfl
  refine ⟨hgreen, (everyCheckPassed_iff hgreen).mpr fun check hunseen _ ↦ ?_⟩
  have hlast : check = .ofRun ⟨3, "build", .completed, some .success⟩ ∨ check = .ofStatus ⟨4, "lint", .success⟩ := by
    simpa [crowdedHub, Hub.runChecks, Hub.statusChecks, Transfer.unseen, pageSize] using hunseen
  rcases hlast with rfl | rfl <;> simp [Check.Passed, RunConclusion.good]

/-- The failed build is the thirty-first check run, and the gate is green. -/
theorem thirtyFirstCheck_unseen :
    ((crowdedHub .failure).poll .whole .whole ["build"]).map Prod.fst = .ok .success ∧
      ¬ EveryCheckPassed (crowdedHub .failure) ["build"] := by
  constructor
  · rfl
  · intro hevery
    have hfailed := hevery.passed (.ofRun ⟨3, "build", .completed, some .failure⟩)
      (by simp [crowdedHub, Hub.checks, Hub.runChecks]) (.inr (by decide +kernel))
    simp [Check.Passed, RunConclusion.good] at hfailed

end Ummanu.Release
