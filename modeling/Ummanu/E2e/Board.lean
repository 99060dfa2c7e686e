import Ummanu.E2e.AfterMerge

/-!
# The board of the after-merge e2e

`Board` is what the cards show of the after-merge e2e: each card's mark, and the runs it carries. Every
write of a card is one of three changes of it: another mark, a run record that moved forward (`RunStep`),
and the intent of a new run with the marks of the cards it covers.

`BoardOk` is what these changes keep. A record's carrier and number can be read back from its dispatch id,
so that an id names one run. A green or red mark goes back to a run with that resolution, which covers the
mark's merge. Parsing what was written gives it back, since no record is without an id or a SHA.
-/

set_option autoImplicit false

namespace Ummanu.E2e

open Library

variable {ref : String} {run : E2eRun}
variable {mark : AfterMergeMark}

/-! ### Dispatch ids after the merge -/

/-- The carrier and the number of a run can be read back from its dispatch id. -/
theorem dispatchId_inj {card card' : String} {n m : ℕ} {token token' : HexToken}
    (hsame : dispatchId afterMergeInfix card n token.text =
      dispatchId afterMergeInfix card' m token'.text) : card = card' ∧ n = m := by
  have hshape : ∀ (card : String) (n : ℕ) (token : HexToken),
      (dispatchId afterMergeInfix card n token.text).toList =
        (card.toList ++ "-e2e-am".toList ++ '-' :: (toString n).toList) ++ '-' :: token.text.toList := by
    intro card n token
    have hinfix : afterMergeInfix.toList = "-e2e-am".toList ++ ['-'] := by decide
    have hdash : "-".toList = ['-'] := rfl
    simp [dispatchId, hinfix, hdash]
  have hlist := congrArg String.toList hsame
  rw [hshape, hshape] at hlist
  obtain ⟨hnum, -⟩ := append_cons_inj_of_last token.no_dash token'.no_dash hlist
  obtain ⟨hcard, hnumber⟩ := append_cons_inj_of_last (dash_notMem_digits n) (dash_notMem_digits m) hnum
  exact ⟨String.toList_inj.mp (List.append_cancel_right hcard), toString_injective (String.toList_inj.mp hnumber)⟩

/-! ### Run records -/

/-- What holds of every run record of the board. -/
structure RunOk (run : E2eRun) : Prop where
  id_ne_empty : run.dispatchId ≠ ""
  sha_ne_empty : run.sha ≠ ""
  closing_of_foreign : run.headSha ≠ "" → run.headSha ≠ run.sha → run.closing ≠ ""
  head_of_result : run.result.isSome = true → run.headSha = run.sha
  result_named : ∀ result ∈ run.result, result.outcome ≠ ""
  result_of_ended : run.resolution = some .green ∨ run.resolution = some .red → run.result.isSome = true
  end_of_resolved : run.resolution.isSome = true → run.closing ≠ "" ∨ run.result.isSome = true
  resolved_of_acted : run.acted = true → run.resolution.isSome = true
  covered_named : ∀ item ∈ run.covered, item.ref ≠ ""
  covered_once : (run.covered.map Covered.ref).Nodup

/-- Parsing a sound record is reading it back. -/
theorem RunOk.reread_eq (hrun : RunOk run) : run.reread = some run := by
  have hcov : run.covered.filter (·.ref ≠ "") = run.covered := by
    rw [List.filter_eq_self]
    intro item hitem
    simpa using hrun.covered_named item hitem
  have hend : run.result.filter (·.outcome ≠ "") = run.result := by
    cases hsome : run.result with
    | none => rfl
    | some res =>
      have hnamed := hrun.result_named res hsome
      simp [Option.filter_some, hnamed]
  rw [E2eRun.reread, if_neg (not_or.mpr ⟨hrun.id_ne_empty, hrun.sha_ne_empty⟩), hcov, hend]

/-- How a run record may change: what it is a record of stays, and so does everything its comments are
made of once its end is resolved. -/
structure RunStep (before after : E2eRun) : Prop where
  dispatchId : after.dispatchId = before.dispatchId
  sha : after.sha = before.sha
  covered : after.covered = before.covered
  gitRef : after.gitRef = before.gitRef
  workflow : after.workflow = before.workflow
  runId : before.runId ≠ 0 → after.runId ≠ 0
  acted : before.acted = true → after.acted = true
  hotfix : before.hotfix ≠ "" → after.hotfix = before.hotfix
  resolved : before.resolution.isSome = true →
    after.resolution = before.resolution ∧ after.runUrl = before.runUrl ∧
      after.waitRef = before.waitRef ∧ after.result = before.result ∧
      after.closing = before.closing ∧ after.closingReason = before.closingReason

theorem RunStep.refl (run : E2eRun) : RunStep run run :=
  ⟨rfl, rfl, rfl, rfl, rfl, id, id, fun _ ↦ rfl, fun _ ↦ ⟨rfl, rfl, rfl, rfl, rfl, rfl⟩⟩

theorem RunStep.trans {first second third : E2eRun} (hfst : RunStep first second)
    (hsnd : RunStep second third) : RunStep first third where
  dispatchId := hsnd.dispatchId.trans hfst.dispatchId
  sha := hsnd.sha.trans hfst.sha
  covered := hsnd.covered.trans hfst.covered
  gitRef := hsnd.gitRef.trans hfst.gitRef
  workflow := hsnd.workflow.trans hfst.workflow
  runId := hsnd.runId ∘ hfst.runId
  acted := hsnd.acted ∘ hfst.acted
  hotfix := fun hset ↦ by
    have hsame := hfst.hotfix hset
    rw [hsnd.hotfix (hsame ▸ hset), hsame]
  resolved := fun hset ↦ by
    obtain ⟨hres, hurl, hwait, hend, hclos, hwhy⟩ := hfst.resolved hset
    obtain ⟨hres', hurl', hwait', hend', hclosing', hreason'⟩ :=
      hsnd.resolved (hres ▸ hset)
    exact ⟨hres'.trans hres, hurl'.trans hurl, hwait'.trans hwait,
      hend'.trans hend, hclosing'.trans hclos, hreason'.trans hwhy⟩

/-- A run that came to nothing: its cards are pending again. -/
def Returned (run : E2eRun) : Prop :=
  run.resolution = some .requeued ∨ run.resolution = some .blocked

/-- A run that was resolved green or red. -/
def Ended (run : E2eRun) : Prop := run.resolution = some .green ∨ run.resolution = some .red

theorem RunStep.resolution_eq {before after : E2eRun} (hstep : RunStep before after)
    {resolution : Resolution} (hsol : before.resolution = some resolution) :
    after.resolution = some resolution := by
  rw [(hstep.resolved (by rw [hsol]; rfl)).1, hsol]

theorem RunStep.returned {before after : E2eRun} (hstep : RunStep before after)
    (hret : Returned before) : Returned after := by
  obtain hsolved | hsolved := hret
  · exact .inl (hstep.resolution_eq hsolved)
  · exact .inr (hstep.resolution_eq hsolved)

theorem RunStep.ended {before after : E2eRun} (hstep : RunStep before after) (hended : Ended before) :
    Ended after := by
  obtain hsolved | hsolved := hended
  · exact .inl (hstep.resolution_eq hsolved)
  · exact .inr (hstep.resolution_eq hsolved)

/-! ### The board -/

/-- What the board shows of the after-merge e2e. -/
structure Board where
  mark : String → Option AfterMergeMark
  runs : String → List E2eRun

def AmWorld.board (world : AmWorld) : Board where
  mark ref := (world.cards ref).afterMerge
  runs ref := (world.cards ref).afterMergeRuns

namespace Board

section

variable (board : Board)

/-- The runs a card was charged for. -/
def charged (ref : String) : List String :=
  ((board.mark ref).map AfterMergeMark.charged).getD []

/-- A run with this dispatch id is on the board. -/
def Has (id : String) : Prop := ∃ ref, ∃ run ∈ board.runs ref, run.dispatchId = id

def setMark (ref : String) (mark : Option AfterMergeMark) : Board :=
  { board with mark := Function.update board.mark ref mark }

def setRun (ref : String) (i : ℕ) (run : E2eRun) : Board :=
  { board with runs := Function.update board.runs ref ((board.runs ref).set i run) }

@[simp] theorem setMark_runs (ref : String) (mark : Option AfterMergeMark) :
    (board.setMark ref mark).runs = board.runs := rfl

@[simp] theorem setMark_mark_self (ref : String) (mark : Option AfterMergeMark) :
    (board.setMark ref mark).mark ref = mark := Function.update_self ..

theorem setMark_mark_of_ne {other : String} (mark : Option AfterMergeMark) (hne : other ≠ ref) :
    (board.setMark ref mark).mark other = board.mark other :=
  Function.update_of_ne hne ..

@[simp] theorem setRun_runs_self (ref : String) (i : ℕ) (run : E2eRun) :
    (board.setRun ref i run).runs ref = (board.runs ref).set i run := Function.update_self ..

theorem setRun_runs_of_ne {other : String} (i : ℕ) (run : E2eRun) (hne : other ≠ ref) :
    (board.setRun ref i run).runs other = board.runs other :=
  Function.update_of_ne hne ..

end

theorem mem_setRun {board : Board} {other : String} {i : ℕ} {run' : E2eRun}
    (hmem : run' ∈ (board.setRun ref i run).runs other) :
    run' ∈ board.runs other ∨ other = ref ∧ run' = run := by
  by_cases hoth : other = ref
  · subst hoth
    rw [setRun_runs_self] at hmem
    exact (List.mem_or_eq_of_mem_set hmem).imp id fun heq ↦ ⟨rfl, heq⟩
  · rw [setRun_runs_of_ne board i run hoth] at hmem
    exact .inl hmem

/-- Every run record moves forward. -/
def Advances (before after : Board) : Prop :=
  ∀ ref, ∀ run ∈ before.runs ref, ∃ run' ∈ after.runs ref, RunStep run run'

theorem Advances.of_runs {before after : Board} (hruns : after.runs = before.runs) :
    before.Advances after := by
  intro _ run hrun
  exact ⟨run, hruns ▸ hrun, RunStep.refl run⟩

theorem Advances.has {before after : Board} (hadv : before.Advances after) {id : String}
    (hhas : before.Has id) : after.Has id := by
  obtain ⟨ref, run, hrun, hid⟩ := hhas
  obtain ⟨run', hrun', hstep⟩ := hadv ref run hrun
  exact ⟨ref, run', hrun', hstep.dispatchId.trans hid⟩

theorem advances_setRun {board : Board} {i : ℕ} {old : E2eRun} (hold : (board.runs ref)[i]? = some old)
    (hstep : RunStep old run) : board.Advances (board.setRun ref i run) := by
  intro o run' hrun'
  by_cases hoth : o = ref
  · subst hoth
    rw [setRun_runs_self]
    obtain ⟨j, hj, rfl⟩ := List.mem_iff_getElem.mp hrun'
    obtain ⟨hi, rfl⟩ := List.getElem?_eq_some_iff.mp hold
    by_cases hij : i = j
    · subst hij
      exact ⟨run, List.mem_set hi run, hstep⟩
    · refine ⟨_, List.mem_iff_getElem.mpr ⟨j, by simpa using hj, rfl⟩, ?_⟩
      rw [List.getElem_set_ne hij]
      exact RunStep.refl _
  · rw [setRun_runs_of_ne board i run hoth]
    exact ⟨run', hrun', RunStep.refl run'⟩

end Board

/-- The end a mark shows. -/
def MarkState.ended : MarkState → Option Resolution
  | .green => some .green
  | .red => some .red
  | _ => none

/-- A run that a mark's end goes back to. -/
def EndedBy (board : Board) (ref : String) (mark : AfterMergeMark) (resolution : Resolution) : Prop :=
  ∃ run ∈ board.runs mark.carrier, run.dispatchId = mark.dispatchId ∧ run.resolution = some resolution ∧
    ⟨ref, mark.mergeSha⟩ ∈ run.covered

/-- What holds of the board in every history. -/
structure BoardOk (board : Board) : Prop where
  run_ok : ∀ ref, ∀ run ∈ board.runs ref, RunOk run
  numbered : ∀ (ref : String) (i : ℕ) (run : E2eRun), (board.runs ref)[i]? = some run →
    ∃ token : HexToken, run.dispatchId = dispatchId afterMergeInfix ref (i + 1) token.text
  mark_named : ∀ ref mark, board.mark ref = some mark → mark.mergeSha ≠ ""
  charged_known : ∀ ref, ∀ id ∈ board.charged ref, board.Has id
  ended : ∀ ref mark resolution, board.mark ref = some mark → mark.state.ended = some resolution →
    EndedBy board ref mark resolution

theorem EndedBy.advance {before after : Board} {resolution : Resolution}
    (hended : EndedBy before ref mark resolution) (hadv : before.Advances after) :
    EndedBy after ref mark resolution := by
  obtain ⟨run, hrun, hid, hres, hcov⟩ := hended
  obtain ⟨run', hrun', hstep⟩ := hadv _ run hrun
  exact ⟨run', hrun', hstep.dispatchId.trans hid, hstep.resolution_eq hres, hstep.covered ▸ hcov⟩

namespace BoardOk

variable {board : Board}

/-- A dispatch id names one place of the board. -/
theorem unique_place (hboard : BoardOk board) {ref' : String} {i j : ℕ} {run' : E2eRun}
    (hrun : (board.runs ref)[i]? = some run) (hrun' : (board.runs ref')[j]? = some run')
    (hid : run.dispatchId = run'.dispatchId) : ref = ref' ∧ i = j := by
  obtain ⟨_, htoken⟩ := hboard.numbered ref i run hrun
  obtain ⟨_, htoken'⟩ := hboard.numbered ref' j run' hrun'
  obtain ⟨rfl, _⟩ := dispatchId_inj (htoken ▸ htoken' ▸ hid)
  exact ⟨rfl, by omega⟩

/-- A dispatch id names one run of the board. -/
theorem unique (hboard : BoardOk board) {ref' : String} {run' : E2eRun} (hrun : run ∈ board.runs ref)
    (hrun' : run' ∈ board.runs ref') (hid : run.dispatchId = run'.dispatchId) : ref = ref' ∧ run = run' := by
  obtain ⟨_, hi⟩ := List.mem_iff_getElem?.mp hrun
  obtain ⟨_, hj⟩ := List.mem_iff_getElem?.mp hrun'
  obtain ⟨rfl, rfl⟩ := hboard.unique_place hi hj hid
  exact ⟨rfl, Option.some_inj.mp (hi.symm.trans hj)⟩

/-- The next dispatch id of a card is not on the board. -/
theorem not_has_next (hboard : BoardOk board) (ref : String) (token : HexToken) :
    ¬ board.Has (dispatchId afterMergeInfix ref ((board.runs ref).length + 1) token.text) := by
  rintro ⟨o, _, hrun, hid⟩
  obtain ⟨i, hi, rfl⟩ := List.mem_iff_getElem.mp hrun
  obtain ⟨_, htoken'⟩ := hboard.numbered o i _ (List.getElem?_eq_getElem hi)
  obtain ⟨rfl, _⟩ := dispatchId_inj (htoken'.symm.trans hid)
  omega

theorem id_ne_empty (hboard : BoardOk board) {id : String} (hhas : board.Has id) : id ≠ "" := by
  obtain ⟨ref, run, hrun, rfl⟩ := hhas
  exact (hboard.run_ok ref run hrun).id_ne_empty

end BoardOk

/-! ### Writes of a card -/

/-- A change of a mark that keeps what it is a mark of. -/
structure MarkEdit (f : AfterMergeMark → AfterMergeMark) : Prop where
  mergeSha : ∀ mark, (f mark).mergeSha = mark.mergeSha
  charged : ∀ mark, (f mark).charged = mark.charged
  commutes : ∀ mark charged, f { mark with charged } = { f mark with charged }

theorem filterMap_reread {runs : List E2eRun} (hruns : ∀ run ∈ runs, RunOk run) :
    runs.filterMap E2eRun.reread = runs := by
  induction runs with
  | nil => rfl
  | cons run _ ih =>
    rw [List.filterMap_cons_some (hruns run (by simp)).reread_eq, ih fun o hoth ↦ hruns o (by simp [hoth])]

theorem mark_reread_eq (hsha : mark.mergeSha ≠ "") (hchg : ∀ id ∈ mark.charged, id ≠ "") :
    mark.reread = some mark := by
  have hfilt : mark.charged.filter (· ≠ "") = mark.charged := by
    rw [List.filter_eq_self]
    intro id hid
    simpa using hchg id hid
  rw [AfterMergeMark.reread, if_neg hsha, hfilt]

/-- Editing a mark and reading it back is reading it back and editing it; a card without a mark stays
without one. -/
theorem MarkEdit.reread {f : AfterMergeMark → AfterMergeMark} (hedit : MarkEdit f) (held : Option AfterMergeMark) :
    (some (f (held.getD { mergeSha := "" }))).bind AfterMergeMark.reread =
      (held.bind AfterMergeMark.reread).map f := by
  cases held with
  | none => simp [AfterMergeMark.reread, hedit.mergeSha]
  | some mark =>
    by_cases hsha : mark.mergeSha = ""
    · simp [AfterMergeMark.reread, hedit.mergeSha, hsha]
    · have hafter : (f mark).mergeSha ≠ "" := hedit.mergeSha mark ▸ hsha
      rw [Option.getD_some, Option.bind_some, Option.bind_some, AfterMergeMark.reread,
        AfterMergeMark.reread, if_neg hafter, if_neg hsha, Option.map_some, hedit.charged]
      exact congrArg some (hedit.commutes mark (mark.charged.filter (· ≠ ""))).symm

theorem board_writeCard (world : AmWorld) (ref : String) (state : E2eState) :
    (world.writeCard ref state).board =
      { mark := Function.update world.board.mark ref (state.afterMerge.bind AfterMergeMark.reread)
        runs := Function.update world.board.runs ref (state.afterMergeRuns.filterMap E2eRun.reread) } := by
  simp only [AmWorld.board, AmWorld.writeCard, Board.mk.injEq]
  constructor
  · ext other
    by_cases hoth : other = ref <;> simp [hoth, E2eState.reread]
  · ext other
    by_cases hoth : other = ref <;> simp [hoth, E2eState.reread]

namespace BoardOk

variable {world : AmWorld} (hboard : BoardOk world.board)
include hboard

theorem mark_reread (hmark : world.board.mark ref = some mark) : mark.reread = some mark := by
  refine mark_reread_eq (hboard.mark_named ref mark hmark) fun id hid ↦ ?_
  refine hboard.id_ne_empty (hboard.charged_known ref id ?_)
  simpa [Board.charged, hmark] using hid

theorem mark_bind_reread (ref : String) :
    (world.board.mark ref).bind AfterMergeMark.reread = world.board.mark ref := by
  cases hmark : world.board.mark ref with
  | none => rfl
  | some mark => exact hboard.mark_reread hmark

/-- A card is written with another mark. -/
theorem board_writeMark (hmark : mark.reread = some mark) :
    (world.writeCard ref { world.cards ref with afterMerge := some mark }).board =
      world.board.setMark ref (some mark) := by
  have hruns : (world.cards ref).afterMergeRuns.filterMap E2eRun.reread = world.board.runs ref :=
    filterMap_reread (hboard.run_ok ref)
  rw [board_writeCard, Option.bind_some, hmark, hruns, Function.update_eq_self]
  rfl

/-- A card is written with its mark edited. -/
theorem board_remark {f : AfterMergeMark → AfterMergeMark} (hedit : MarkEdit f) (ref : String) :
    (world.writeCard ref { world.cards ref with
        afterMerge := some (f ((world.cards ref).afterMerge.getD { mergeSha := "" })) }).board =
      world.board.setMark ref ((world.board.mark ref).map f) := by
  have hruns : (world.cards ref).afterMergeRuns.filterMap E2eRun.reread = world.board.runs ref :=
    filterMap_reread (hboard.run_ok ref)
  have hmark : (world.cards ref).afterMerge.bind AfterMergeMark.reread = world.board.mark ref :=
    hboard.mark_bind_reread ref
  rw [board_writeCard, hedit.reread, hmark, hruns, Function.update_eq_self]
  rfl

end BoardOk

theorem charged_setMark {board : Board} (hchg : mark.charged = board.charged ref) (other : String) :
    (board.setMark ref (some mark)).charged other = board.charged other := by
  by_cases hoth : other = ref
  · subst hoth
    simp [Board.charged, hchg]
  · simp [Board.charged, board.setMark_mark_of_ne (some mark) hoth]

theorem BoardOk.setMark {board : Board} (hboard : BoardOk board) (hsha : mark.mergeSha ≠ "")
    (hchg : mark.charged = board.charged ref)
    (hended : ∀ resolution, mark.state.ended = some resolution → EndedBy board ref mark resolution) :
    BoardOk (board.setMark ref (some mark)) := { hboard with
  mark_named := by
    intro o f hfnd
    by_cases hoth : o = ref
    · subst hoth
      rw [Board.setMark_mark_self] at hfnd
      cases hfnd
      exact hsha
    · rw [board.setMark_mark_of_ne _ hoth] at hfnd
      exact hboard.mark_named o f hfnd
  charged_known := by
    intro o id hid
    rw [charged_setMark hchg] at hid
    exact hboard.charged_known o id hid
  ended := by
    intro o f resolution hfnd hres
    by_cases hoth : o = ref
    · subst hoth
      rw [Board.setMark_mark_self] at hfnd
      cases hfnd
      exact hended resolution hres
    · rw [board.setMark_mark_of_ne _ hoth] at hfnd
      exact hboard.ended o f resolution hfnd hres }

theorem BoardOk.setRun {board : Board} (hboard : BoardOk board) {i : ℕ} {old : E2eRun}
    (hold : (board.runs ref)[i]? = some old) (hstep : RunStep old run) (hrun : RunOk run) :
    BoardOk (board.setRun ref i run) where
  run_ok := by
    intro o f hfnd
    obtain hfnd | ⟨-, rfl⟩ := Board.mem_setRun hfnd
    · exact hboard.run_ok o f hfnd
    · exact hrun
  numbered := by
    intro o j f hfnd
    by_cases hoth : o = ref
    · subst hoth
      rw [Board.setRun_runs_self, List.getElem?_set] at hfnd
      split_ifs at hfnd with hij hlen
      · cases hfnd
        obtain ⟨token, htoken⟩ := hboard.numbered o i old hold
        exact ⟨token, hij ▸ hstep.dispatchId.trans htoken⟩
      · exact hboard.numbered o j f hfnd
    · rw [board.setRun_runs_of_ne i run hoth] at hfnd
      exact hboard.numbered o j f hfnd
  mark_named := hboard.mark_named
  charged_known := fun o id hid ↦
    (Board.advances_setRun hold hstep).has (hboard.charged_known o id hid)
  ended := fun o mark res hmark hres ↦
    (hboard.ended o mark res hmark hres).advance (Board.advances_setRun hold hstep)

/-! ### The intent of a run -/

/-- The mark an intent writes on a covered card. -/
def Board.intentMark (board : Board) (carrier sprint : String) (run : E2eRun) (item : Covered) :
    AfterMergeMark where
  mergeSha := item.mergeSha
  state := .covered
  dispatchId := run.dispatchId
  carrier := carrier
  charged := if sprint = "" then board.charged item.ref ++ [run.dispatchId] else board.charged item.ref

/-- The board with the intent of a run. -/
def Board.withIntent (board : Board) (carrier sprint : String) (run : E2eRun) : Board where
  mark ref :=
    match run.covered.find? (·.ref = ref) with
    | some item => some (board.intentMark carrier sprint run item)
    | none => board.mark ref
  runs := Function.update board.runs carrier (board.runs carrier ++ [run])

theorem find_ref_eq_some {items : List Covered} {item : Covered}
    (hfnd : items.find? (·.ref = ref) = some item) : item ∈ items ∧ item.ref = ref :=
  ⟨List.mem_of_find?_eq_some hfnd, by simpa using List.find?_some hfnd⟩

theorem find_ref_eq_none {items : List Covered} :
    items.find? (·.ref = ref) = none ↔ ref ∉ items.map Covered.ref := by
  simp

/-- Reading the cards back after an intent. -/
theorem AmWorld.withIntent_board {world : AmWorld} (hboard : BoardOk world.board) {carrier : String}
    (sprint : String) (hrun : RunOk run) (hcarry : carrier ∈ run.covered.map Covered.ref)
    (hnamed : ∀ item ∈ run.covered, item.mergeSha ≠ "") :
    (world.withIntent carrier sprint run).board = world.board.withIntent carrier sprint run := by
  have hruns : ∀ ref, (world.cards ref).afterMergeRuns.filterMap E2eRun.reread =
      (world.cards ref).afterMergeRuns := fun ref ↦ filterMap_reread (hboard.run_ok ref)
  have hmark : ∀ item ∈ run.covered,
      (world.board.intentMark carrier sprint run item).reread =
        some (world.board.intentMark carrier sprint run item) := by
    intro item hitem
    refine mark_reread_eq (hnamed item hitem) fun id hid ↦ ?_
    have hid : id ∈ world.board.charged item.ref ∨ id = run.dispatchId := by
      simp only [Board.intentMark] at hid
      split at hid
      · simpa using hid
      · exact .inl hid
    obtain hid | rfl := hid
    · exact hboard.id_ne_empty (hboard.charged_known item.ref id hid)
    · exact hrun.id_ne_empty
  simp only [AmWorld.board, AmWorld.withIntent, Board.withIntent, Board.mk.injEq]
  constructor
  · funext ref
    cases hfnd : run.covered.find? (·.ref = ref) with
    | none => rfl
    | some item =>
      obtain ⟨hitem, rfl⟩ := find_ref_eq_some hfnd
      exact hmark item hitem
  · funext ref
    cases hfnd : run.covered.find? (·.ref = ref) with
    | none =>
      have hoth : ref ≠ carrier := fun hsame ↦ find_ref_eq_none.mp hfnd (hsame ▸ hcarry)
      rw [Function.update_of_ne hoth]
    | some item =>
      obtain ⟨-, rfl⟩ := find_ref_eq_some hfnd
      by_cases hitem : item.ref = carrier
      · simp [E2eState.reread, E2eState.withIntent, hitem, hruns, hrun.reread_eq]
      · simp [E2eState.reread, E2eState.withIntent, hitem, hruns]

section Intent

variable {board : Board} {carrier sprint : String}

theorem mem_withIntent {found : E2eRun} (hfnd : found ∈ (board.withIntent carrier sprint run).runs ref) :
    found ∈ board.runs ref ∨ ref = carrier ∧ found = run := by
  by_cases href : ref = carrier
  · subst href
    simp only [Board.withIntent, Function.update_self, List.mem_append, List.mem_singleton] at hfnd
    exact hfnd.imp id fun heq ↦ ⟨rfl, heq⟩
  · simp only [Board.withIntent, Function.update_of_ne href] at hfnd
    exact .inl hfnd

theorem run_mem_withIntent : run ∈ (board.withIntent carrier sprint run).runs carrier := by
  simp [Board.withIntent]

theorem mem_withIntent_of_mem {found : E2eRun} (hfnd : found ∈ board.runs ref) :
    found ∈ (board.withIntent carrier sprint run).runs ref := by
  by_cases href : ref = carrier
  · subst href
    simp [Board.withIntent, hfnd]
  · simpa [Board.withIntent, Function.update_of_ne href] using hfnd

theorem Board.advances_withIntent : board.Advances (board.withIntent carrier sprint run) :=
  fun _ f hfnd ↦ ⟨f, mem_withIntent_of_mem hfnd, RunStep.refl f⟩

/-- A mark after an intent is a covered card's, or the one before. -/
theorem withIntent_mark_cases (hmark : (board.withIntent carrier sprint run).mark ref = some mark) :
    (∃ item ∈ run.covered, item.ref = ref ∧ mark = board.intentMark carrier sprint run item) ∨
      ref ∉ run.covered.map Covered.ref ∧ board.mark ref = some mark := by
  cases hfnd : run.covered.find? (·.ref = ref) with
  | none =>
    simp only [Board.withIntent, hfnd] at hmark
    exact .inr ⟨find_ref_eq_none.mp hfnd, hmark⟩
  | some item =>
    obtain ⟨hitem, href⟩ := find_ref_eq_some hfnd
    simp only [Board.withIntent, hfnd, Option.some_inj] at hmark
    exact .inl ⟨item, hitem, href, hmark.symm⟩

theorem withIntent_mark_of_notMem (href : ref ∉ run.covered.map Covered.ref) :
    (board.withIntent carrier sprint run).mark ref = board.mark ref := by
  simp only [Board.withIntent, find_ref_eq_none.mpr href]

theorem withIntent_mark_of_mem (hrun : RunOk run) {item : Covered} (hitem : item ∈ run.covered) :
    (board.withIntent carrier sprint run).mark item.ref =
      some (board.intentMark carrier sprint run item) := by
  cases hfnd : run.covered.find? (·.ref = item.ref) with
  | none => exact absurd (List.mem_map_of_mem hitem) (find_ref_eq_none.mp hfnd)
  | some o =>
    obtain ⟨hoth, href⟩ := find_ref_eq_some hfnd
    obtain rfl : o = item := List.inj_on_of_nodup_map hrun.covered_once hoth hitem href
    simp only [Board.withIntent, hfnd]

/-- Which list of a card an intent is charged to. -/
theorem withIntent_charged (ref : String) :
    (board.withIntent carrier sprint run).charged ref =
      if sprint = "" ∧ ref ∈ run.covered.map Covered.ref then board.charged ref ++ [run.dispatchId]
      else board.charged ref := by
  cases hfnd : run.covered.find? (·.ref = ref) with
  | none =>
    have hnot := find_ref_eq_none.mp hfnd
    rw [if_neg fun hboth ↦ hnot hboth.2, Board.charged, withIntent_mark_of_notMem hnot]
    rfl
  | some item =>
    obtain ⟨hitem, rfl⟩ := find_ref_eq_some hfnd
    have hin : item.ref ∈ run.covered.map Covered.ref := List.mem_map_of_mem hitem
    have hmark : (board.withIntent carrier sprint run).mark item.ref =
        some (board.intentMark carrier sprint run item) := by
      simp only [Board.withIntent, hfnd]
    rw [Board.charged, hmark]
    by_cases hspr : sprint = "" <;> simp [Board.intentMark, hspr, hin]

end Intent

end Ummanu.E2e
