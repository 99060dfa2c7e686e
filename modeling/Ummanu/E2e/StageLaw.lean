import Ummanu.E2e.Stage
import Ummanu.Library.KeyedTable

/-!
# One dispatch per intent, and only its own SHA is authorized

The e2e stage of a card is re-entered at every tick, and a tick can be cut short after any of its
durable writes. This module proves what holds of the card through all of it: GitHub receives at most
one dispatch per dispatch id, and only after the id's intent and its sprint charge are on record; a
run is started only when the run before it was acted on and its Blocked move, if it has one, is
committed, and never for a SHA with a green run; and the stage proceeds for a SHA only on the strength
of a recorded run that ran on its own SHA, ended in success, and is that SHA's or was reconciled to it.

The argument is one invariant of the record. A run's head SHA is written together with the closing of
a run that ran on another SHA, and a result is copied only to a run that is not closed, so that a run
with a result ran on its own SHA (`RunSound`). The number in a run's dispatch id is its position on the
card, and a record never loses a run, so that a new intent always has a new id (`StateSound`,
`WorldSound`). `StageGuarantee` is what every durable write keeps, and `runStage_meets` shows that all
writes of a tick do.
-/

set_option autoImplicit false

namespace Ummanu.E2e

open Library E2eRun

variable {i : ℕ} {world : StageWorld} {memory : E2eState}

/-! ### Closed runs are named -/

theorem stageRequestId_ne_empty (action dispatchId : String) : stageRequestId action dispatchId ≠ "" := by
  intro hnil
  have hlist := congrArg String.toList hnil
  simp [stageRequestId, Ledger.joinedTokens] at hlist

@[simp] theorem close_closing_ne_empty (run : E2eRun) (reason : String) : (run.close reason).closing ≠ "" :=
  stageRequestId_ne_empty _ _

/-! ### The invariant of a run -/

/-- What holds of every run of a record: it is named, a closed run was acted on, a run that ran on
another SHA is closed, and a run with a result ran on its own SHA. -/
structure RunSound (run : E2eRun) : Prop where
  id_ne_empty : run.dispatchId ≠ ""
  sha_ne_empty : run.sha ≠ ""
  acted_of_closing : run.closing ≠ "" → run.acted = true
  closing_of_foreign : run.headSha ≠ "" → run.headSha ≠ run.sha → run.closing ≠ ""
  head_of_result : run.result.isSome = true → run.headSha = run.sha

/-- Closing a run keeps its invariant. -/
theorem RunSound.close {run : E2eRun} (hrun : RunSound run) (reason : String) :
    RunSound (run.close reason) := { hrun with
  acted_of_closing := fun _ ↦ rfl
  closing_of_foreign := fun _ _ ↦ close_closing_ne_empty run reason }

/-- A run that is not closed and whose head SHA is known ran on its own SHA. -/
theorem RunSound.head_eq {run : E2eRun} (hrun : RunSound run) (hopen : run.closing = "")
    (hhead : run.headSha ≠ "") : run.headSha = run.sha := by
  by_contra hfor
  exact hrun.closing_of_foreign hhead hfor hopen

/-- What parsing makes of a sound run. -/
theorem RunSound.reread_eq {run : E2eRun} (hrun : RunSound run) :
    run.reread = some { run with
      result := run.result.filter (·.outcome ≠ "")
      covered := run.covered.filter (·.ref ≠ "") } := by
  rw [reread, if_neg (not_or.mpr ⟨hrun.id_ne_empty, hrun.sha_ne_empty⟩)]

/-- The fields the stage is judged by survive parsing, and a run is green before if it is after. -/
theorem reread_spec {run parsed : E2eRun} (hparse : run.reread = some parsed) :
    parsed.dispatchId = run.dispatchId ∧ parsed.sha = run.sha ∧ parsed.headSha = run.headSha ∧
      parsed.closing = run.closing ∧ parsed.acted = run.acted ∧
      (parsed.result.isSome = true → run.result.isSome = true) ∧
      (parsed.green = true → run.green = true) := by
  unfold reread at hparse
  split at hparse
  · cases hparse
  · cases hparse
    refine ⟨rfl, rfl, rfl, rfl, rfl, ?_, ?_⟩
    · cases hres : run.result <;> simp
    · cases hres : run.result with
      | none => simp [green]
      | some result =>
        by_cases hblank : result.outcome = "" <;>
          simp [green, outcome, E2eRun.conclusion, hres, hblank, Option.filter_some]

theorem RunSound.of_reread {run parsed : E2eRun} (hrun : RunSound run)
    (hparse : run.reread = some parsed) : RunSound parsed := by
  obtain ⟨hid, hsha, hhead, hclos, hacted, hres, -⟩ := reread_spec hparse
  constructor
  · rw [hid]
    exact hrun.id_ne_empty
  · rw [hsha]
    exact hrun.sha_ne_empty
  · rw [hclos, hacted]
    exact hrun.acted_of_closing
  · rw [hhead, hsha, hclos]
    exact hrun.closing_of_foreign
  · intro hsome
    rw [hhead, hsha]
    exact hrun.head_of_result (hres hsome)

/-- A green run is still green after parsing. -/
theorem RunSound.green_reread {run : E2eRun} (hrun : RunSound run) (hgreen : run.green = true) :
    ∃ parsed, run.reread = some parsed ∧ parsed.green = true ∧ parsed.sha = run.sha := by
  refine ⟨_, hrun.reread_eq, ?_, rfl⟩
  cases hres : run.result with
  | none => simp [green, hres] at hgreen
  | some res =>
    have hout : res.outcome = targetReached := by
      simp only [green, outcome, hres, Option.isSome_some, Option.map_some,
        Option.getD_some, Bool.true_and, Bool.and_eq_true, decide_eq_true_eq] at hgreen
      exact hgreen.1
    have hnamed : res.outcome ≠ "" := by
      rw [hout]
      decide
    simpa [green, outcome, E2eRun.conclusion, hres, hnamed, Option.filter_some] using hgreen

/-! ### The invariant of a record -/

/-- Every run is sound, and its dispatch id carries its position on the card. -/
structure StateSound (card : String) (state : E2eState) : Prop where
  sound : ∀ run ∈ state.runs, RunSound run
  numbered : ∀ (i : ℕ) (run : E2eRun), state.runs[i]? = some run →
    ∃ token, run.dispatchId = dispatchId beforeMergeInfix card (i + 1) token

variable {card : String} {state : E2eState}

theorem run_mem (hi : i < state.runs.length) : state.run i ∈ state.runs := by
  have hget : state.run i = state.runs[i] := by simp [E2eState.run, hi]
  rw [hget]
  exact List.getElem_mem hi

section

variable (hstate : StateSound card state)
include hstate

theorem StateSound.run (hi : i < state.runs.length) : RunSound (state.run i) :=
  hstate.sound _ (run_mem hi)

/-- Changing a run keeps the record's invariant if it keeps the run's and its dispatch id. -/
theorem StateSound.updateRun {f : E2eRun → E2eRun} (hsound : i < state.runs.length → RunSound (f (state.run i)))
    (hid : ∀ run, (f run).dispatchId = run.dispatchId) : StateSound card (state.updateRun i f) := by
  constructor
  · intro run hrun
    obtain ⟨j, hj, rfl⟩ := List.mem_iff_getElem.mp hrun
    simp only [E2eState.updateRun, List.length_modify] at hj
    simp only [E2eState.updateRun, List.getElem_modify]
    split
    next hij =>
      subst hij
      simpa [E2eState.run, hj] using hsound hj
    next => exact hstate.sound _ (List.getElem_mem hj)
  · intro j run hrun
    rw [E2eState.updateRun, List.getElem?_modify, Option.map_eq_map, Option.map_eq_some_iff] at hrun
    obtain ⟨pre, hbefore, hrun⟩ := hrun
    obtain ⟨token, htoken⟩ := hstate.numbered j pre hbefore
    refine ⟨token, ?_⟩
    rw [← htoken, ← hrun]
    split
    · exact hid pre
    · rfl

/-- Parsing a sound record keeps its runs one by one. -/
theorem StateSound.reread_runs :
    state.reread.runs = state.runs.map fun run ↦ { run with
      result := run.result.filter (·.outcome ≠ "")
      covered := run.covered.filter (·.ref ≠ "") } := by
  have hparse : ∀ runs : List E2eRun, (∀ run ∈ runs, RunSound run) →
      runs.filterMap reread = runs.map fun run ↦ { run with
        result := run.result.filter (·.outcome ≠ "")
        covered := run.covered.filter (·.ref ≠ "") } := by
    intro runs hruns
    induction runs with
    | nil => rfl
    | cons run _ ih =>
      rw [List.filterMap_cons_some (hruns run (by simp)).reread_eq, List.map_cons,
        ih fun o hoth ↦ hruns o (by simp [hoth])]
  exact hparse state.runs hstate.sound

theorem StateSound.reread_length : state.reread.runs.length = state.runs.length := by
  rw [hstate.reread_runs, List.length_map]

theorem StateSound.reread : StateSound card state.reread := by
  constructor
  · intro parsed hparse
    obtain ⟨run, hrun, hread⟩ := List.mem_filterMap.mp hparse
    exact (hstate.sound run hrun).of_reread hread
  · intro i parsed hparse
    rw [hstate.reread_runs, List.getElem?_map, Option.map_eq_some_iff] at hparse
    obtain ⟨run, hrun, rfl⟩ := hparse
    exact hstate.numbered i run hrun

/-- A record that was parsed once reads back the same. -/
theorem StateSound.reread_reread_runs : state.reread.reread.runs = state.reread.runs := by
  rw [hstate.reread.reread_runs, hstate.reread_runs, List.map_map]
  apply List.map_congr_left
  intro _ _
  simp [Option.filter_filter]

end

@[simp] theorem updateRun_length (state : E2eState) (i : ℕ) (f : E2eRun → E2eRun) :
    (state.updateRun i f).runs.length = state.runs.length := by
  simp [E2eState.updateRun]

theorem run_updateRun (hi : i < state.runs.length) (f : E2eRun → E2eRun) :
    (state.updateRun i f).run i = f (state.run i) := by
  simp [E2eState.run, E2eState.updateRun, hi]

/-! ### The guarantee of every write -/

/-- What holds of the durable state between any two writes. -/
structure WorldSound (card : String) (world : StageWorld) : Prop where
  record : StateSound card world.record
  numbered : ∀ sent ∈ world.dispatches, ∃ n token,
    n ≤ world.record.runs.length ∧ sent.dispatchId = dispatchId beforeMergeInfix card n token
  once : (world.dispatches.map Dispatch.dispatchId).Nodup

/-- The newest run was acted on, and its Blocked move, if it names one, is committed. -/
def LastOver (runs : List E2eRun) (committed : List String) : Prop :=
  ∀ last ∈ runs.getLast?, last.acted = true ∧ (last.closing ≠ "" → last.closing ∈ committed)

/-- What the durable state shows when a dispatch call reaches GitHub: the newest record is the
call's intent, a sprint card is charged for it, the run before it is over, and no run before it is
green for its SHA. -/
structure Authorised (world : StageWorld) (sent : Dispatch) : Prop where
  intent : ∃ earlier run, world.record.runs = earlier ++ [run] ∧
    run.dispatchId = sent.dispatchId ∧ run.sha = sent.sha ∧
    LastOver earlier world.committed ∧ ∀ other ∈ earlier, other.sha = sent.sha → other.green = false
  charged : sent.sprint ≠ "" → { sprint := sent.sprint, dispatchId := sent.dispatchId } ∈ world.charges

/-- What every durable write of the stage does to the dispatch calls. -/
def DispatchStep (world next : StageWorld) : Prop :=
  next.dispatches = world.dispatches ∨ ∃ sent, next.dispatches = world.dispatches ++ [sent] ∧ Authorised world sent

/-- What every durable write of the stage guarantees. -/
def StageGuarantee (card : String) (world next : StageWorld) : Prop :=
  WorldSound card next ∧ DispatchStep world next

/-- The memory of a tick beside the durable state: a sound record with as many runs. -/
structure InStep (card : String) (world : StageWorld) (memory : E2eState) : Prop where
  stored : WorldSound card world
  held : StateSound card memory
  length : memory.runs.length = world.record.runs.length

/-- Nothing in memory is left to write. -/
def Saved (world : StageWorld) (memory : E2eState) : Prop :=
  world.record.reread.runs = memory.reread.runs

theorem saved_of_record (hrec : world.record = memory) : Saved world memory := by
  rw [Saved, hrec]

/-- A green run in memory is on the card. -/
theorem Saved.green_stored (hsaved : Saved world memory) (hstep : InStep card world memory) {run : E2eRun}
    (hrun : run ∈ memory.runs) (hgreen : run.green = true) :
    ∃ stored ∈ world.record.runs, stored.green = true ∧ stored.sha = run.sha ∧
      stored.headSha = stored.sha := by
  obtain ⟨parsed, hparse, hstill, hsha⟩ := (hstep.held.sound run hrun).green_reread hgreen
  have hmem : parsed ∈ world.record.reread.runs := by
    rw [hsaved]
    exact List.mem_filterMap.mpr ⟨run, hrun, hparse⟩
  obtain ⟨stored, hdisk, hread⟩ := List.mem_filterMap.mp hmem
  obtain ⟨-, hsame, -, -, -, -, hback⟩ := reread_spec hread
  have hgreen := hback hstill
  have hres : stored.result.isSome = true := by
    simp only [green, Bool.and_eq_true] at hgreen
    exact hgreen.1.1
  exact ⟨stored, hdisk, hgreen, hsame.symm.trans hsha, (hstep.stored.record.sound stored hdisk).head_of_result hres⟩

/-- Writing a sound record of the same length keeps the invariant. -/
theorem InStep.write_record (hstep : InStep card world memory) :
    StageGuarantee card world { world with record := memory } := by
  refine ⟨⟨hstep.held, fun sent hsent ↦ ?_, hstep.stored.once⟩, .inl rfl⟩
  obtain ⟨n, token, hn, hid⟩ := hstep.stored.numbered sent hsent
  exact ⟨n, token, hstep.length ▸ hn, hid⟩

/-! ### Programs that keep the number of runs -/

/-- How a program that starts no run leaves the state it was started on. -/
structure Kept (card : String) (world : StageWorld) (memory : E2eState) (world' : StageWorld)
    (memory' : E2eState) : Prop where
  step : InStep card world' memory'
  length : memory'.runs.length = memory.runs.length
  committed : ∀ id ∈ world.committed, id ∈ world'.committed

theorem Kept.refl (hstep : InStep card world memory) : Kept card world memory world memory :=
  ⟨hstep, rfl, fun _ hid ↦ hid⟩

theorem Kept.trans {world' world'' : StageWorld} {memory' memory'' : E2eState}
    (hfst : Kept card world memory world' memory') (hsnd : Kept card world' memory' world'' memory'') :
    Kept card world memory world'' memory'' :=
  ⟨hsnd.step, hsnd.length.trans hfst.length, fun id hid ↦ hsnd.committed id (hfst.committed id hid)⟩

/-- A program that starts no run: all its writes keep the guarantee, and when it returns, nothing is
left to write and the postcondition holds. -/
def Runs {α : Type} (card : String) (program : StageProgram α)
    (post : α → StageWorld → E2eState → Prop) (world : StageWorld) (memory : E2eState) : Prop :=
  Meets (StageGuarantee card) program
    (fun result world' memory' ↦ Kept card world memory world' memory' ∧
      ∀ a, result = .ok a → Saved world' memory' ∧ post a world' memory') world memory

section Rules

variable {α β : Type}

variable {post : α → StageWorld → E2eState → Prop} {program : StageProgram α}

theorem Runs.pure {a : α} (hstep : InStep card world memory) (hsaved : Saved world memory)
    (hpost : post a world memory) : Runs card (pure a) post world memory := by
  rw [Runs, meets_pure]
  refine ⟨Kept.refl hstep, fun b hb ↦ ?_⟩
  cases hb
  exact ⟨hsaved, hpost⟩

theorem Runs.throw {e : TaskError} (hstep : InStep card world memory) :
    Runs card (throw e) post world memory := by
  rw [Runs, meets_throw]
  exact ⟨Kept.refl hstep, nofun⟩

theorem Runs.mono {post post' : α → StageWorld → E2eState → Prop} (hruns : Runs card program post world memory)
    (hpost : ∀ a world' memory', Kept card world memory world' memory' → post a world' memory' →
      post' a world' memory') :
    Runs card program post' world memory :=
  Meets.mono hruns fun _ _ _ ⟨hkept, hok⟩ ↦
    ⟨hkept, fun a ha ↦ ⟨(hok a ha).1, hpost a _ _ hkept (hok a ha).2⟩⟩

theorem Runs.bind {next : α → StageProgram β} {post' : β → StageWorld → E2eState → Prop}
    (hfst : Runs card program post world memory)
    (hnext : ∀ a world' memory', Kept card world memory world' memory' → Saved world' memory' →
      post a world' memory' → Runs card (next a) post' world' memory') :
    Runs card (program >>= next) post' world memory := by
  rw [Runs, meets_bind]
  refine Meets.mono hfst fun res world' memory' ⟨hkept, hok⟩ ↦ ?_
  cases res with
  | error e => exact ⟨hkept, nofun⟩
  | ok a =>
    obtain ⟨hsaved, hpost⟩ := hok a rfl
    exact Meets.mono (hnext a world' memory' hkept hsaved hpost) fun _ _ _ ⟨hthen, hres⟩ ↦
      ⟨hkept.trans hthen, hres⟩

/-- A program that answers with what another one ended with. -/
theorem Runs.answer {f : α → β} {post' : β → StageWorld → E2eState → Prop}
    (hfst : Runs card program post world memory)
    (hpost : ∀ a world' memory', post a world' memory' → post' (f a) world' memory') :
    Runs card (program >>= fun a ↦ Pure.pure (f a)) post' world memory :=
  hfst.bind fun a _ _ hkept hsaved hends ↦ .pure hkept.step hsaved (hpost a _ _ hends)

/-- A handler is judged from any state its program can have raised in. -/
theorem Runs.tryCatch {handler : TaskError → StageProgram α} (hprog : Runs card program post world memory)
    (hhand : ∀ e world' memory', Kept card world memory world' memory' → Runs card (handler e) post world' memory') :
    Runs card (tryCatch program handler) post world memory := by
  rw [Runs, meets_tryCatch]
  refine Meets.mono hprog fun res world' memory' ⟨hkept, hok⟩ ↦ ?_
  cases res with
  | ok a => exact ⟨hkept, fun b hb ↦ by cases hb; exact hok a rfl⟩
  | error e =>
    exact Meets.mono (hhand e world' memory' hkept) fun _ _ _ ⟨hthen, hres⟩ ↦
      ⟨hkept.trans hthen, hres⟩

/-! Reading changes nothing. -/

theorem runs_recall {next : E2eState → StageProgram β} {post : β → StageWorld → E2eState → Prop} :
    Runs card (Durable.remembered >>= next) post world memory ↔
      Runs card (next memory) post world memory := by
  simp [Runs]

theorem runs_currentRun {next : E2eRun → StageProgram β} {post : β → StageWorld → E2eState → Prop} :
    Runs card (currentRun i >>= next) post world memory ↔
      Runs card (next (memory.run i)) post world memory := by
  simp [Runs, currentRun]

variable (tick : StageTick)

/-- A change of the record that keeps its runs in number, written to the card. -/
theorem edited_runs {f : E2eState → E2eState} (call : StageCall) (hstep : InStep card world memory)
    (hheld : StateSound card (f memory)) (hlen : (f memory).runs.length = memory.runs.length) :
    Runs card (do Durable.remember f; persist tick call)
      (fun _ world' memory' ↦ world'.committed = world.committed ∧ memory' = f memory) world memory := by
  have hafter : InStep card world (f memory) := ⟨hstep.stored, hheld, hlen.trans hstep.length⟩
  rw [Runs, persist]
  simp only [meets_bind, meets_remember, meets_remembered, meets_attempt]
  constructor
  · intro _
    refine ⟨hafter.write_record, ⟨⟨hafter.write_record.1, hheld, rfl⟩, hlen, fun _ hid ↦ hid⟩, ?_⟩
    exact fun _ _ ↦ ⟨saved_of_record rfl, trivial, trivial⟩
  · exact fun e _ ↦ ⟨⟨hafter, hlen, fun _ hid ↦ hid⟩, by simp⟩

/-- A change of one run. -/
theorem amendRun_runs {f : E2eRun → E2eRun} (call : StageCall) (hstep : InStep card world memory)
    (hsound : i < memory.runs.length → RunSound (f (memory.run i)))
    (hid : ∀ run, (f run).dispatchId = run.dispatchId) :
    Runs card (amendRun tick i call f)
      (fun _ world' memory' ↦ world'.committed = world.committed ∧ memory' = memory.updateRun i f)
      world memory :=
  edited_runs tick call hstep (hstep.held.updateRun hsound hid) (updateRun_length memory i f)

theorem closeRun_runs (call : StageCall) (reason : String) (hstep : InStep card world memory)
    (hi : i < memory.runs.length) :
    Runs card (closeRun tick i call reason)
      (fun _ _ memory' ↦ (memory'.run i).closing ≠ "" ∧
        (memory'.run i).result = (memory.run i).result) world memory := by
  have hsound : i < memory.runs.length → RunSound ((memory.run i).close reason) :=
    fun hi ↦ (hstep.held.run hi).close reason
  have hamend := amendRun_runs tick (f := (·.close reason)) call hstep hsound fun _ ↦ rfl
  refine hamend.mono fun _ _ memory' _ ⟨_, hlocal⟩ ↦ ?_
  rw [hlocal, run_updateRun hi]
  exact ⟨close_closing_ne_empty _ _, rfl⟩

variable (hstep : InStep card world memory) (hsaved : Saved world memory)
include hstep hsaved

/-- A committed request changes nothing in memory, whether the board takes or refuses it. -/
theorem commitRequest_meets (call : StageCall) (requestId : String) :
    Meets (StageGuarantee card) (commitRequest tick call requestId) (fun _ world' memory' ↦
      Kept card world memory world' memory' ∧ Saved world' memory' ∧ memory' = memory)
      world memory := by
  have hafter : WorldSound card { world with committed := requestId :: world.committed } :=
    ⟨hstep.stored.record, hstep.stored.numbered, hstep.stored.once⟩
  rw [commitRequest, meets_attempt]
  constructor
  · intro _
    refine ⟨⟨hafter, .inl rfl⟩, ⟨⟨hafter, hstep.held, hstep.length⟩, rfl, ?_⟩, hsaved, rfl⟩
    exact fun _ hid ↦ List.mem_cons_of_mem _ hid
  · exact fun e _ ↦ ⟨Kept.refl hstep, hsaved, rfl⟩

theorem commitRequest_runs (call : StageCall) (requestId : String) :
    Runs card (commitRequest tick call requestId) (fun _ _ memory' ↦ memory' = memory) world memory :=
  (commitRequest_meets tick hstep hsaved call requestId).mono
    fun _ _ _ ⟨hkept, hstill, hsame⟩ ↦ ⟨hkept, fun _ _ ↦ ⟨hstill, hsame⟩⟩

theorem block_runs (requestId outcome : String) :
    Runs card (block tick requestId outcome) (fun _ _ memory' ↦ memory' = memory) world memory :=
  (commitRequest_runs tick hstep hsaved _ requestId).answer fun _ _ _ hsame ↦ hsame

theorem blockRun_runs (i : ℕ) :
    Runs card (blockRun tick i) (fun _ _ memory' ↦ memory' = memory) world memory := by
  exact block_runs tick hstep hsaved _ _

end Rules

/-! ### Settling a run -/

/-- A lookup leaves the run without a result, and closed if it says so. -/
structure Lookup.Post (i : ℕ) (found : Lookup) (memory : E2eState) : Prop where
  result : (memory.run i).result = none
  closed : found = .closed → (memory.run i).closing ≠ ""

/-- A run is closed, or its head SHA is known. -/
def Identified (run : E2eRun) : Prop := run.closing ≠ "" ∨ run.headSha ≠ ""

/-- The head SHA of a run without a result is written together with the closing of a run that ran on
another SHA. -/
theorem RunSound.checkHead {run : E2eRun} (hrun : RunSound run) {head : String} (hhead : head ≠ "")
    (hres : run.result = none) :
    RunSound (run.checkHead head) ∧ Identified (run.checkHead head) := by
  unfold E2eRun.checkHead
  split
  next hsame =>
    subst hsame
    exact ⟨⟨hrun.id_ne_empty, hrun.sha_ne_empty, hrun.acted_of_closing, fun _ hfor ↦
      absurd rfl hfor, fun _ ↦ rfl⟩, .inr hhead⟩
  next =>
    refine ⟨⟨hrun.id_ne_empty, hrun.sha_ne_empty, fun _ ↦ rfl, fun _ _ ↦
      close_closing_ne_empty _ _, fun hsome ↦ ?_⟩, .inl (close_closing_ne_empty _ _)⟩
    have hsome : run.result.isSome = true := hsome
    rw [hres] at hsome
    exact absurd hsome (by decide)

theorem checkHead_dispatchId (run : E2eRun) (head : String) :
    (run.checkHead head).dispatchId = run.dispatchId := by
  unfold E2eRun.checkHead
  split <;> rfl

/-- A run is over without a Blocked move of its own. -/
def Settled (run : E2eRun) : Prop := run.acted = true ∧ run.closing = ""

section Settling

variable (tick : StageTick) (declaration : E2eDeclaration) (hstep : InStep card world memory)
  (hsaved : Saved world memory) (hi : i < memory.runs.length)
include hstep hsaved hi

theorem lookUpLost_runs (hres : (memory.run i).result = none) :
    Runs card (lookUpLost tick declaration i) (fun found _ memory' ↦ found.Post i memory')
      world memory := by
  rw [lookUpLost, runs_currentRun]
  split
  · exact .pure hstep hsaved ⟨hres, nofun⟩
  · split
    · exact .pure hstep hsaved ⟨hres, nofun⟩
    · dsimp only
      split
      · exact .pure hstep hsaved ⟨hres, nofun⟩
      · -- one match: it is named on the run, and the recovery is commented on
        refine .bind (amendRun_runs tick _ hstep (fun hi ↦ ?_) fun _ ↦ rfl) fun _ _ _ hkept hsaved ⟨_, hlocal⟩ ↦ ?_
        · obtain ⟨hid, hsha, hacted, hfor, hres⟩ := hstep.held.run hi
          exact ⟨hid, hsha, hacted, hfor, hres⟩
        · refine (commitRequest_runs tick hkept.step hsaved _ _).answer fun _ _ _ hsame ↦ ⟨?_, nofun⟩
          rw [hsame, hlocal, run_updateRun hi]
          exact hres
      · refine (closeRun_runs tick _ _ hstep hi).answer fun _ _ _ ⟨hshut, hsame⟩ ↦ ⟨?_, fun _ ↦ hshut⟩
        rw [hsame, hres]

theorem lookUp_runs (hres : (memory.run i).result = none) :
    Runs card (lookUp tick declaration i) (fun found _ memory' ↦ found.Post i memory')
      world memory := by
  rw [lookUp, runs_currentRun]
  split
  · exact lookUpLost_runs tick declaration hstep hsaved hi hres
  · split <;> exact .pure hstep hsaved ⟨hres, nofun⟩

theorem identify_runs (hres : (memory.run i).result = none) :
    Runs card (identify tick declaration i)
      (fun outcome _ memory' ↦ outcome = none → Identified (memory'.run i)) world memory := by
  refine (lookUp_runs tick declaration hstep hsaved hi hres).bind fun f _ memory hkept hsaved hfnd ↦ ?_
  have hi : i < memory.runs.length := hkept.length ▸ hi
  rw [runs_currentRun]
  cases f with
  | settling => exact .pure hkept.step hsaved nofun
  | closed => exact .pure hkept.step hsaved fun _ ↦ .inl (hfnd.closed rfl)
  | head head _ =>
    dsimp only
    split
    · split
      · exact .pure hkept.step hsaved nofun
      · exact (closeRun_runs tick _ _ hkept.step hi).answer fun _ _ _ hshut ↦ fun _ ↦ .inl hshut.1
    next hhead =>
      refine .answer (amendRun_runs tick _ hkept.step
          (fun hi ↦ ((hkept.step.held.run hi).checkHead hhead hfnd.result).1)
          (checkHead_dispatchId · head)) fun _ _ _ ⟨_, hlocal⟩ _ ↦ ?_
      rw [hlocal, run_updateRun hi]
      exact ((hkept.step.held.run hi).checkHead hhead hfnd.result).2

theorem createWait_runs (hident : Identified (memory.run i)) :
    Runs card (createWait tick i) (fun _ _ memory' ↦ Identified (memory'.run i)) world memory := by
  rw [createWait, runs_currentRun]
  refine (commitRequest_runs tick hstep hsaved _ _).bind fun _ _ _ hkept hsaved hsame ↦ ?_
  subst hsame
  refine .mono (amendRun_runs tick _ hkept.step (fun hi ↦ ?_) fun _ ↦ rfl) fun _ _ _ _ ⟨_, hlocal⟩ ↦ ?_
  · obtain ⟨hid, hsha, hacted, hfor, hres⟩ := hkept.step.held.run hi
    exact ⟨hid, hsha, hacted, hfor, hres⟩
  · rw [hlocal, run_updateRun hi]
    exact hident

theorem ensureWait_runs (hident : Identified (memory.run i)) :
    Runs card (ensureWait tick i) (fun _ _ memory' ↦ Identified (memory'.run i)) world memory := by
  rw [ensureWait, runs_currentRun]
  refine (createWait_runs tick hstep hsaved hi hident).tryCatch fun e _ _ hkept ↦ ?_
  exact (closeRun_runs tick _ _ hkept.step (hkept.length ▸ hi)).mono fun _ _ _ _ hshut ↦ .inl hshut.1

/-- A result is copied only to a run that is known to have run on its own SHA. -/
theorem readWait_runs (hopen : (memory.run i).closing = "") (hident : Identified (memory.run i)) :
    Runs card (readWait tick i) (fun _ _ _ ↦ True) world memory := by
  rw [readWait, runs_currentRun]
  split
  · exact .throw hstep
  · exact (closeRun_runs tick _ _ hstep hi).answer fun _ _ _ _ ↦ trivial
  · exact .pure hstep hsaved trivial
  · refine .answer (amendRun_runs tick _ hstep (fun hi ↦ ?_) fun _ ↦ rfl) fun _ _ _ _ ↦ trivial
    have hrun := hstep.held.run hi
    obtain hshut | hhead := hident
    · exact absurd hopen hshut
    · exact ⟨hrun.id_ne_empty, hrun.sha_ne_empty, hrun.acted_of_closing, hrun.closing_of_foreign,
        fun _ ↦ hrun.head_eq hopen hhead⟩

theorem markActed_runs (hopen : (memory.run i).closing = "") :
    Runs card (markActed tick i) (fun _ _ memory' ↦ Settled (memory'.run i)) world memory := by
  rw [markActed, runs_currentRun]
  split
  next hacted => exact .pure hstep hsaved ⟨hacted, hopen⟩
  next =>
    refine .mono (amendRun_runs tick _ hstep (fun hi ↦ ?_) fun _ ↦ rfl) fun _ _ _ _ ⟨_, hlocal⟩ ↦ ?_
    · obtain ⟨hid, hsha, -, hfor, hres⟩ := hstep.held.run hi
      exact ⟨hid, hsha, fun _ ↦ rfl, hfor, hres⟩
    · rw [hlocal, run_updateRun hi]
      exact ⟨rfl, hopen⟩

theorem act_runs (hopen : (memory.run i).closing = "") :
    Runs card (act tick i) (fun outcome _ memory' ↦ outcome = none → Settled (memory'.run i))
      world memory := by
  rw [act, runs_currentRun]
  have hblock : ∀ (call : StageCall) (why : String),
      Runs card (do
        closeRun tick i call why
        let outcome ← blockRun tick i
        pure (some outcome)) (fun outcome _ memory' ↦ outcome = none → Settled (memory'.run i))
      world memory := by
    intro call why
    refine (closeRun_runs tick _ _ hstep hi).bind fun _ _ _ hkept hsaved _ ↦ ?_
    exact (blockRun_runs tick hkept.step hsaved i).answer fun _ _ _ _ ↦ nofun
  split
  · refine (commitRequest_runs tick hstep hsaved _ _).bind fun _ _ _ hkept hstill hsame ↦ ?_
    subst hsame
    exact (markActed_runs tick hkept.step hstill hi hopen).answer fun _ _ _ hdone ↦ fun _ ↦ hdone
  · split
    · split
      · exact hblock _ _
      · exact (markActed_runs tick hstep hsaved hi hopen).answer fun _ _ _ _ ↦ nofun
    · exact hblock _ _

theorem conclude_runs :
    Runs card (conclude tick i) (fun outcome _ memory' ↦ outcome = none → Settled (memory'.run i))
      world memory := by
  rw [conclude, runs_currentRun]
  split
  · exact (blockRun_runs tick hstep hsaved i).answer fun _ _ _ _ ↦ nofun
  next hopen => exact act_runs tick hstep hsaved hi (not_not.mp hopen)

theorem readResult_runs (hident : Identified (memory.run i)) :
    Runs card (readResult tick i) (fun outcome _ memory' ↦ outcome = none → Settled (memory'.run i))
      world memory := by
  rw [readResult, runs_currentRun]
  split
  next hopen =>
    refine (readWait_runs tick hstep hsaved hi hopen hident).bind fun waiting _ _ hkept hsaved _ ↦ ?_
    cases waiting with
    | some _ => exact .pure hkept.step hsaved nofun
    | none => exact conclude_runs tick hkept.step hsaved (hkept.length ▸ hi)
  next => exact conclude_runs tick hstep hsaved hi

theorem awaitResult_runs (hident : Identified (memory.run i)) :
    Runs card (awaitResult tick i) (fun outcome _ memory' ↦ outcome = none → Settled (memory'.run i))
      world memory := by
  rw [awaitResult, runs_currentRun]
  split
  · refine (ensureWait_runs tick hstep hsaved hi hident).bind fun _ _ _ hkept hsaved hident ↦ ?_
    exact readResult_runs tick hkept.step hsaved (hkept.length ▸ hi) hident
  · exact readResult_runs tick hstep hsaved hi hident

/-- A run that is settled without an outcome for the tick is over. -/
theorem settleRun_runs :
    Runs card (settleRun tick declaration i)
      (fun outcome _ memory' ↦ outcome = none → Settled (memory'.run i)) world memory := by
  rw [settleRun, runs_currentRun]
  split
  next hwait =>
    split
    · refine (identify_runs tick declaration hstep hsaved hi hwait.2).bind fun pending _ _ hkept hsaved hident ↦ ?_
      cases pending with
      | some _ => exact .pure hkept.step hsaved nofun
      | none =>
        exact awaitResult_runs tick hkept.step hsaved (hkept.length ▸ hi) (hident rfl)
    next hnamed => exact awaitResult_runs tick hstep hsaved hi (.inr (not_or.mp hnamed).2)
  next => exact conclude_runs tick hstep hsaved hi

end Settling

/-! ### The stage -/

/-- What a reply says of the durable state: the stage proceeds for an exact SHA only on a stored run
that ran on its own SHA, ended in success, and is that SHA's or was reconciled to it. -/
def Supported (tick : StageTick) (world : StageWorld) : StageReply → Prop
  | .proceed result reconciliation => validatedSha result ≠ "" →
    ∃ run ∈ world.record.runs, run.headSha = run.sha ∧ run.outcome = targetReached ∧
      run.conclusion = success ∧ (run.sha = validatedSha result ∨
        ∃ move, reconciliation = some move ∧ tick.reconcile run.sha (validatedSha result) = some move)
  | _ => True

/-- A program of the stage that may start a run: all its writes keep the guarantee, and its reply is
supported by what they leave. -/
def Replies (card : String) (tick : StageTick) (program : StageProgram StageReply) (world : StageWorld)
    (memory : E2eState) : Prop :=
  Meets (StageGuarantee card) program
    (fun result world' _ ↦ ∀ reply, result = .ok reply → Supported tick world' reply) world memory

section Stage

variable {α : Type} {tick : StageTick}

theorem Replies.pure {reply : StageReply} (hreply : Supported tick world reply) :
    Replies card tick (pure reply) world memory := by
  rw [Replies, meets_pure]
  intro _ hoth
  cases hoth
  exact hreply

/-- A program that starts no run, and one that goes on from where it ended. -/
theorem Runs.replies {program : StageProgram α} {next : α → StageProgram StageReply}
    {post : α → StageWorld → E2eState → Prop} (hfst : Runs card program post world memory)
    (hnext : ∀ a world' memory', Kept card world memory world' memory' → Saved world' memory' →
      post a world' memory' → Replies card tick (next a) world' memory') :
    Replies card tick (program >>= next) world memory := by
  rw [Replies, meets_bind]
  refine Meets.mono hfst fun res world' memory' ⟨hkept, hok⟩ ↦ ?_
  cases res with
  | error e => exact nofun
  | ok a =>
    obtain ⟨hsaved, hpost⟩ := hok a rfl
    exact hnext a world' memory' hkept hsaved hpost

theorem replies_recall {next : E2eState → StageProgram StageReply} :
    Replies card tick (Durable.remembered >>= next) world memory ↔
      Replies card tick (next memory) world memory := by
  simp [Replies]

theorem replies_stored {next : StageWorld → StageProgram StageReply} :
    Replies card tick (Durable.stored >>= next) world memory ↔
      Replies card tick (next world) world memory := by
  simp [Replies]

/-- A program that only answers with an outcome is supported. -/
theorem replies_outcome {program : StageProgram StageOutcome} {post : StageOutcome → StageWorld → E2eState → Prop}
    (hruns : Runs card program post world memory) :
    Replies card tick (do let outcome ← program; pure (StageReply.outcome outcome)) world memory :=
  hruns.replies fun _ _ _ _ _ _ ↦ .pure trivial

/-! The budget. -/

/-- Only the budget wait of the record is rewritten. -/
theorem setBudgetWait_runs (call : StageCall) (waiting : Option BudgetWait) (hstep : InStep card world memory) :
    Runs card (setBudgetWait tick call waiting)
      (fun _ world' memory' ↦ memory'.runs = memory.runs ∧ world'.committed = world.committed)
      world memory := by
  have hheld : StateSound card { memory with budgetWait := waiting } :=
    ⟨hstep.held.sound, hstep.held.numbered⟩
  exact (edited_runs tick call hstep hheld rfl).mono fun _ _ _ _ ⟨hsame, hlocal⟩ ↦ ⟨by rw [hlocal], hsame⟩

section Budget

variable (hstep : InStep card world memory) (hsaved : Saved world memory)
include hstep hsaved

/-- A decision that could not be cut leaves the tick where it was. -/
theorem decisionCard_runs (scopeRef : String) (generation : ℕ) :
    Runs card (tryCatch (do decisionCard card tick scopeRef generation; pure true)
      fun _ ↦ pure false) (fun _ _ memory' ↦ memory' = memory) world memory := by
  have hcut : Meets (StageGuarantee card) (decisionCard card tick scopeRef generation)
      (fun _ w' memory' ↦
        Kept card world memory w' memory' ∧ Saved w' memory' ∧ memory' = memory)
      world memory := by
    rw [decisionCard, meets_bind, meets_stored]
    dsimp only
    split
    · exact commitRequest_meets tick hstep hsaved _ _
    · split
      · rw [meets_throw]
        exact ⟨Kept.refl hstep, hsaved, rfl⟩
      · rw [meets_pure]
        exact ⟨Kept.refl hstep, hsaved, rfl⟩
      · exact commitRequest_meets tick hstep hsaved _ _
  rw [Runs, meets_tryCatch, meets_bind]
  refine hcut.mono fun res w' memory' ⟨hkept, hstill, hsame⟩ ↦ ?_
  cases res <;> simpa only [meets_pure] using ⟨hkept, fun _ _ ↦ ⟨hstill, hsame⟩⟩

theorem awaitDecision_runs (scope : BudgetScope) (scopeRef : String) (generation : ℕ) (sha : String) :
    Runs card (awaitDecision card tick scope scopeRef generation sha) (fun _ _ _ ↦ True)
      world memory := by
  refine (decisionCard_runs hstep hsaved scopeRef generation).bind fun _ _ _ hkept hsaved _ ↦ ?_
  split
  · rw [runs_recall]
    split
    · exact (setBudgetWait_runs _ _ hkept.step).answer fun _ _ _ _ ↦ trivial
    · exact .pure hkept.step hsaved trivial
  · exact (block_runs tick hkept.step hsaved _ _).mono fun _ _ _ _ _ ↦ trivial

theorem capSpent_runs (sha : String) :
    Runs card (capSpent card tick sha) (fun _ _ _ ↦ True) world memory := by
  rw [capSpent]
  split
  · exact awaitDecision_runs hstep hsaved _ _ _ _
  · exact (block_runs tick hstep hsaved _ _).mono fun _ _ _ _ _ ↦ trivial

theorem budgetRecheck_runs (waiting : BudgetWait) :
    Runs card (budgetRecheck card tick waiting)
      (fun outcome _ memory' ↦ outcome = none → memory'.runs = memory.runs) world memory := by
  have hdecline : Runs card (declineBudget card tick waiting)
      (fun outcome _ memory' ↦ outcome = none → memory'.runs = memory.runs) world memory := by
    refine (setBudgetWait_runs _ _ hstep).bind fun _ _ _ hkept hsaved _ ↦ ?_
    exact (block_runs tick hkept.step hsaved _ _).answer fun _ _ _ _ ↦ nofun
  rw [budgetRecheck, runs_recall]
  dsimp only
  split
  · exact (setBudgetWait_runs _ _ hstep).answer fun _ _ _ hsame ↦ fun _ ↦ hsame.1
  · split
    · exact .throw hstep
    · exact .pure hstep hsaved nofun
    · exact hdecline
    · exact hdecline

end Budget

/-! Starting a run. -/

theorem recordIntent_eq_some {written : StageWorld} {room : Bool} {charge : Charge} {state : E2eState}
    (hwrote : world.recordIntent room charge state = some written) :
    written.record = state ∧ written.committed = world.committed ∧
      written.dispatches = world.dispatches ∧ (charge.sprint ≠ "" → charge ∈ written.charges) := by
  unfold StageWorld.recordIntent at hwrote
  split at hwrote
  next hnone =>
    cases hwrote
    exact ⟨rfl, rfl, rfl, fun hspr ↦ absurd hnone hspr⟩
  next =>
    obtain ⟨_, hchg, rfl⟩ := Option.map_eq_some_iff.mp hwrote
    unfold StageWorld.charge at hchg
    split at hchg
    · cases hchg
      exact ⟨rfl, rfl, rfl, fun _ ↦ by simp⟩
    · split at hchg
      next hknown =>
        cases hchg
        exact ⟨rfl, rfl, rfl, fun _ ↦ hknown⟩
      next => cases hchg

theorem DispatchAnswer.apply_dispatchId (answer : DispatchAnswer) (sha : String) (run : E2eRun) :
    (answer.apply tick sha run).dispatchId = run.dispatchId := by
  unfold DispatchAnswer.apply
  split
  · split <;> rfl
  · rfl
  · rfl

theorem RunSound.apply {run : E2eRun} (hrun : RunSound run) (answer : DispatchAnswer) (sha : String) :
    RunSound (answer.apply tick sha run) := by
  obtain ⟨hid, hsha, hacted, hfor, hres⟩ := hrun
  unfold DispatchAnswer.apply
  split
  · split <;> exact ⟨hid, hsha, hacted, hfor, hres⟩
  · apply RunSound.close
    exact ⟨hid, hsha, hacted, hfor, hres⟩
  · exact ⟨hid, hsha, hacted, hfor, hres⟩

/-- A new run takes the next number of its card. -/
theorem StateSound.withRun (hstate : StateSound card state) {run : E2eRun} {token : String} (hrun : RunSound run)
    (hid : run.dispatchId = dispatchId beforeMergeInfix card (state.runs.length + 1) token) :
    StateSound card (state.withRun run) := by
  constructor
  · intro o hother
    obtain hother | hother := List.mem_append.mp hother
    · exact hstate.sound o hother
    · rw [List.mem_singleton.mp hother]
      exact hrun
  · intro i o hother
    rw [E2eState.withRun] at hother
    obtain hi | hi := Nat.lt_or_ge i state.runs.length
    · rw [List.getElem?_append_left hi] at hother
      exact hstate.numbered i o hother
    · rw [List.getElem?_append_right hi, List.getElem?_singleton] at hother
      split at hother
      next _ =>
        cases hother
        have hlast : i = state.runs.length := by omega
        exact ⟨token, hlast ▸ hid⟩
      next => cases hother

/-- A SHA may get a run: the newest run is over, and none is green for the SHA. -/
structure MayStart (card : String) (world : StageWorld) (memory : E2eState) (sha : String) :
    Prop where
  step : InStep card world memory
  saved : Saved world memory
  lastOver : LastOver memory.runs world.committed
  fresh : ∀ run ∈ memory.runs, run.sha = sha → run.green = false
  sha_ne_empty : sha ≠ ""

/-- The intent on record, and the dispatch call that follows it. -/
theorem intent_guarantees {sha : String} (hstart : MayStart card world memory sha) {run : E2eRun}
    {token sprint : String} {room : Bool} {written : StageWorld} (hrun : RunSound run)
    (hid : run.dispatchId = dispatchId beforeMergeInfix card (memory.runs.length + 1) token)
    (hsha : run.sha = sha)
    (hwrote : world.recordIntent room { sprint, dispatchId := run.dispatchId } (memory.withRun run) = some written) :
    StageGuarantee card world written ∧
      StageGuarantee card written { written with
        dispatches := written.dispatches ++ [{ dispatchId := run.dispatchId, sha, sprint }] } := by
  obtain ⟨hrec, hcom, hdisp, hchg⟩ := recordIntent_eq_some hwrote
  have hlen : written.record.runs.length = memory.runs.length + 1 := by
    rw [hrec, E2eState.withRun, List.length_append, List.length_singleton]
  have hearl : ∀ sent ∈ written.dispatches, ∃ n token',
      n ≤ memory.runs.length ∧ sent.dispatchId = dispatchId beforeMergeInfix card n token' := by
    intro sent hsent
    rw [hdisp] at hsent
    rw [hstart.step.length]
    exact hstart.step.stored.numbered sent hsent
  have hstate : StateSound card written.record := by
    rw [hrec]
    exact hstart.step.held.withRun hrun hid
  have hsound : WorldSound card written := by
    refine ⟨hstate, fun sent hsent ↦ ?_, ?_⟩
    · obtain ⟨n, token', hn, hsame⟩ := hearl sent hsent
      exact ⟨n, token', by omega, hsame⟩
    · rw [hdisp]
      exact hstart.step.stored.once
  refine ⟨⟨hsound, .inl hdisp⟩, ⟨hstate, ?_, ?_⟩, .inr ⟨_, rfl, ?_, hchg⟩⟩
  · intro sent hsent
    obtain hsent | hsent := List.mem_append.mp hsent
    · exact hsound.numbered sent hsent
    · rw [List.mem_singleton.mp hsent]
      exact ⟨memory.runs.length + 1, token, hlen.ge, hid⟩
  · -- an earlier dispatch has a smaller number in its id
    refine nodup_map_concat hsound.once fun sent hsent hsame ↦ ?_
    obtain ⟨n, token', hn, hnum⟩ := hearl sent hsent
    rw [hid, hnum] at hsame
    have := dispatchId_number_inj hsame
    omega
  · refine ⟨memory.runs, run, ?_, rfl, hsha, ?_, hstart.fresh⟩
    · rw [hrec, E2eState.withRun]
    · rw [hcom]
      exact hstart.lastOver

/-- A started run is the newest one of the record. -/
def Started.Post (card : String) (started : Started) (world : StageWorld) (memory : E2eState) : Prop :=
  InStep card world memory ∧ Saved world memory ∧ ∀ i, started = .run i → i < memory.runs.length

section

variable (declaration : E2eDeclaration)

theorem newRun_sound (repo : String) {sha : String} (number : ℕ) (hsha : sha ≠ "") :
    RunSound (newRun card tick declaration repo sha number) where
  id_ne_empty := dispatchId_ne_empty _ _ _ _
  sha_ne_empty := hsha
  acted_of_closing := fun hshut ↦ absurd rfl hshut
  closing_of_foreign := fun hhead ↦ absurd rfl hhead
  head_of_result := nofun

theorem startRun_meets {sha : String} (hstart : MayStart card world memory sha) :
    Meets (StageGuarantee card) (startRun card tick declaration sha)
      (fun result world' memory' ↦
        ∀ started, result = .ok started → started.Post card world' memory') world memory := by
  have hsame : ∀ started : Started, (∀ i, started ≠ .run i) → started.Post card world memory :=
    fun started hnone ↦ ⟨hstart.step, hstart.saved, fun i hi ↦ absurd hi (hnone i)⟩
  rw [startRun]
  split
  · rw [meets_pure]
    rintro _ ⟨⟩
    exact hsame _ (by simp)
  · simp only [meets_bind, meets_remembered, meets_stored]
    split
    · rw [meets_pure]
      rintro _ ⟨⟩
      exact hsame _ (by simp)
    next repo _ _ _ hwrote =>
      simp only [meets_bind, meets_attempt, meets_remember, meets_commit]
      have hrun : RunSound (newRun card tick declaration repo sha (memory.runs.length + 1)) :=
        newRun_sound declaration repo _ hstart.sha_ne_empty
      obtain ⟨hint, hsent⟩ := intent_guarantees hstart hrun rfl rfl hwrote
      refine ⟨fun _ ↦ ⟨hint, hsent, ?_⟩, by simp⟩
      -- the answer is written to the run the intent recorded
      have hrec := (recordIntent_eq_some hwrote).1
      have hheld := hstart.step.held.withRun hrun rfl
      refine Meets.mono (amendRun_runs tick _ ⟨hsent.1, hheld, by rw [hrec]⟩
        (fun hi ↦ (hheld.run hi).apply _ _) fun _ ↦ DispatchAnswer.apply_dispatchId _ _ _) ?_
      rintro result _ _ ⟨hkept, hok⟩
      cases result with
      | error e => rintro _ ⟨⟩
      | ok _ =>
        rw [meets_pure]
        rintro _ ⟨⟩
        refine ⟨hkept.step, (hok () rfl).1, fun i hi ↦ ?_⟩
        cases hi
        rw [hkept.length, E2eState.withRun, List.length_append, List.length_singleton]
        exact Nat.lt_succ_self _

theorem startAndSettle_replies {sha : String} (hstart : MayStart card world memory sha) :
    Replies card tick (startAndSettle card tick declaration sha) world memory := by
  rw [startAndSettle, replies_recall]
  split
  · exact replies_outcome (capSpent_runs hstart.step hstart.saved sha)
  · rw [Replies, meets_bind]
    refine Meets.mono (startRun_meets declaration hstart) fun res _ _ hok ↦ ?_
    cases res with
    | error e => exact nofun
    | ok started =>
      obtain ⟨hstep, hsaved, hi⟩ := hok started rfl
      cases started with
      | unnamed _ => exact Replies.pure trivial
      | spent => exact replies_outcome (awaitDecision_runs hstep hsaved _ _ _ _)
      | run i =>
        exact (settleRun_runs tick declaration hstep hsaved (hi i rfl)).replies fun _ _ _ _ _ _ ↦ .pure trivial

/-- A green run in memory supports proceeding for its SHA, and for one it is reconciled to. -/
theorem supported_of_green (hstep : InStep card world memory) (hsaved : Saved world memory)
    {result : Release.GateResult} {reconciliation : Option Release.BaseMove} {run : E2eRun}
    (hrun : run ∈ memory.runs) (hgreen : run.green = true)
    (hfor : run.sha = validatedSha result ∨ ∃ move, reconciliation = some move ∧
      tick.reconcile run.sha (validatedSha result) = some move) :
    Supported tick world (.proceed result reconciliation) := by
  intro _
  obtain ⟨row, hdisk, hstill, hsha, hhead⟩ := hsaved.green_stored hstep hrun hgreen
  simp only [green, Bool.and_eq_true, decide_eq_true_eq] at hstill
  rw [← hsha] at hfor
  exact ⟨row, hdisk, hhead, hstill.1.2, hstill.2, hfor⟩

theorem carryOrStart_replies {result : Release.GateResult}
    (hstart : MayStart card world memory (validatedSha result)) :
    Replies card tick (carryOrStart card tick declaration result (validatedSha result))
      world memory := by
  rw [carryOrStart, replies_recall]
  split
  · exact startAndSettle_replies declaration hstart
  next i hlast =>
    obtain ⟨run, hget, hgreen⟩ := E2eState.newest_eq_some hlast
    have hrun : memory.run i = run := by simp [E2eState.run, hget]
    split
    · exact startAndSettle_replies declaration hstart
    next move hmove =>
      rw [hrun] at hmove
      have hfor : run.sha = validatedSha result ∨ ∃ move', some move = some move' ∧
          tick.reconcile run.sha (validatedSha result) = some move' := .inr ⟨move, rfl, hmove⟩
      dsimp only
      split
      · -- the move is recorded on the run it carries, which stays green
        refine Runs.replies (amendRun_runs tick _ hstart.step (fun hi ↦ ?_) fun _ ↦ rfl)
          fun _ w' mem' hkept hsaved ⟨_, hlocal⟩ ↦ .pure ?_
        · obtain ⟨hid, hsha, hacted, hforeign, hres⟩ := hstart.step.held.run hi
          exact ⟨hid, hsha, hacted, hforeign, hres⟩
        · have hi : i < memory.runs.length := (List.getElem?_eq_some_iff.mp hget).1
          have hafter : mem'.run i ∈ mem'.runs := run_mem (hkept.length ▸ hi)
          have hsame : mem'.run i = { run with reconciled := run.reconciled ++ [move] } := by
            rw [hlocal, run_updateRun hi, hrun]
          refine supported_of_green hkept.step hsaved hafter ?_ ?_
          · rw [hsame]
            exact hgreen
          · rw [hsame]
            exact hfor
      · exact .pure (supported_of_green hstart.step hstart.saved (List.mem_of_getElem? hget) hgreen hfor)

theorem lastOver_of_run {committed : List String}
    (hover : (memory.run (memory.runs.length - 1)).acted = true ∧
      ((memory.run (memory.runs.length - 1)).closing ≠ "" →
        (memory.run (memory.runs.length - 1)).closing ∈ committed)) :
    LastOver memory.runs committed := by
  intro last hlast
  have hget : memory.run (memory.runs.length - 1) = last := by
    rw [Option.mem_def, List.getLast?_eq_getElem?] at hlast
    simp [E2eState.run, hlast]
  rwa [hget] at hover

variable (hstep : InStep card world memory) (hsaved : Saved world memory)
include hstep hsaved

theorem judgeGate_replies (hover : LastOver memory.runs world.committed) :
    Replies card tick (judgeGate card tick declaration) world memory := by
  rw [judgeGate]
  split
  · exact .pure trivial
  next res _ =>
    dsimp only
    rw [replies_recall]
    split
    next hnil => exact .pure fun hsha ↦ absurd hnil hsha
    next hsha =>
      split
      next hgreen =>
        obtain ⟨i, hi⟩ := Option.isSome_iff_exists.mp hgreen
        obtain ⟨run, hget, hmeets⟩ := E2eState.newest_eq_some hi
        rw [Bool.and_eq_true, decide_eq_true_eq] at hmeets
        exact .pure (supported_of_green hstep hsaved (List.mem_of_getElem? hget) hmeets.2 (.inl hmeets.1))
      next hgreen =>
        have hfresh : ∀ run ∈ memory.runs, run.sha = validatedSha res → run.green = false := by
          intro run hrun hsame
          have hnone := Option.not_isSome_iff_eq_none.mp hgreen
          simpa [hsame] using E2eState.newest_eq_none hnone run hrun
        have hstart : MayStart card world memory (validatedSha res) :=
          ⟨hstep, hsaved, hover, hfresh, hsha⟩
        split
        · exact carryOrStart_replies declaration hstart
        next i hlat =>
          split
          next hred =>
            have hi : i < memory.runs.length := by
              obtain ⟨run, hget, -⟩ := E2eState.newest_eq_some hlat
              exact (List.getElem?_eq_some_iff.mp hget).1
            refine (act_runs tick hstep hsaved hi hred.2).replies fun out _ _ _ _ _ ↦ ?_
            cases out <;> exact .pure trivial
          · exact carryOrStart_replies declaration hstart

theorem judgeBudget_replies (hover : LastOver memory.runs world.committed) :
    Replies card tick (judgeBudget card tick declaration) world memory := by
  rw [judgeBudget, replies_recall]
  split
  · exact judgeGate_replies declaration hstep hsaved hover
  · refine (budgetRecheck_runs hstep hsaved _).replies fun held _ _ hkept hsaved hsame ↦ ?_
    cases held with
    | some _ => exact .pure trivial
    | none =>
      refine judgeGate_replies declaration hkept.step hsaved ?_
      rw [hsame rfl]
      intro last hlast
      obtain ⟨hacted, hshut⟩ := hover last hlast
      exact ⟨hacted, fun hclos ↦ hkept.committed _ (hshut hclos)⟩

theorem judgeRuns_replies : Replies card tick (judgeRuns card tick declaration) world memory := by
  rw [judgeRuns, replies_recall]
  split
  next hnone =>
    refine judgeBudget_replies declaration hstep hsaved fun last hlast ↦ ?_
    rw [Option.mem_def, hnone] at hlast
    cases hlast
  next last hlast =>
    have hi : memory.runs.length - 1 < memory.runs.length := by
      have := List.length_pos_of_mem (List.mem_of_getLast? hlast)
      omega
    have hrun : memory.run (memory.runs.length - 1) = last := by
      rw [List.getLast?_eq_getElem?] at hlast
      simp [E2eState.run, hlast]
    have hsound := hstep.held.run hi
    rw [hrun] at hsound
    dsimp only
    rw [replies_stored]
    split
    · exact replies_outcome (blockRun_runs tick hstep hsaved _)
    next hmov =>
      split
      next _ =>
        refine (settleRun_runs tick declaration hstep hsaved hi).replies fun settled _ _ hkept hsaved hdone ↦ ?_
        cases settled with
        | some _ => exact .pure trivial
        | none =>
          obtain ⟨hacted, hclos⟩ := hdone rfl
          rw [← hkept.length] at hacted hclos
          exact judgeBudget_replies declaration hkept.step hsaved
            (lastOver_of_run ⟨hacted, fun hshut ↦ absurd hclos hshut⟩)
      next hover =>
        refine judgeBudget_replies declaration hstep hsaved (lastOver_of_run ?_)
        rw [hrun]
        by_cases hclos : last.closing = ""
        · exact ⟨by simpa [hclos] using hover, fun hshut ↦ absurd hclos hshut⟩
        · exact ⟨hsound.acted_of_closing hclos, fun _ ↦ not_not.mp fun hnot ↦
            hmov ⟨hclos, hnot⟩⟩

end

/-- A tick on a sound durable state: every write keeps the guarantee, and its reply is supported. -/
theorem runStage_meets (tick : StageTick) (hworld : WorldSound card world) :
    Replies card tick (runStage card tick) world world.parsed := by
  have hstep : InStep card world world.parsed :=
    ⟨hworld, hworld.record.reread, hworld.record.reread_length⟩
  have hsaved : Saved world world.parsed := hworld.record.reread_reread_runs.symm
  rw [runStage]
  split
  · exact .pure trivial
  · split
    · exact replies_outcome (block_runs tick hstep hsaved _ _)
    · exact .pure trivial
    · split
      · exact .pure trivial
      · exact judgeRuns_replies _ hstep hsaved

end Stage

/-- One e2e dispatch per intent, and only its own SHA is authorized. The card starts with no run
recorded and no dispatch made; each tick of the history may be cut short after any of its writes. -/
theorem stage_dispatchesOnce_and_authorizesOwnSha (card : String) (record : E2eState)
    (committed : List String) (charges : List Charge) (history : List (StageTick × Option ℕ)) :
    let start : StageWorld := { record := { record with runs := [] }, committed, charges }
    let worlds := start :: visited (runStage card) StageWorld.parsed start history
    (∀ world ∈ worlds, (world.dispatches.map Dispatch.dispatchId).Nodup) ∧ worlds.IsChain DispatchStep ∧
      ∀ world ∈ worlds, ∀ (tick : StageTick) (reply : StageReply),
        (runStage card tick world world.parsed).result = .ok reply →
          Supported tick ((runStage card tick).final world world.parsed) reply := by
  intro start worlds
  have hstart : WorldSound card start := ⟨⟨by simp [start], by simp [start]⟩, by simp [start], List.nodup_nil⟩
  have hstep : ∀ world next, WorldSound card world → StageGuarantee card world next →
      WorldSound card next := fun _ _ _ hnext ↦ hnext.1
  have hchain : worlds.IsChain (StageGuarantee card) :=
    visited_isChain (WorldSound card) history hstart (fun _ tick hworld ↦ (runStage_meets tick hworld).1) hstep
  have hsound : ∀ world ∈ worlds, WorldSound card world := by
    intro world hworld
    obtain rfl | hworld := List.mem_cons.mp hworld
    · exact hstart
    · exact (isChain_invariant (WorldSound card) hstart hchain hstep).1 world hworld
  refine ⟨fun world hworld ↦ (hsound world hworld).once, hchain.imp fun _ _ hnext ↦ hnext.2, ?_⟩
  intro world hworld tick reply hreply
  exact (runStage_meets tick (hsound world hworld)).2 reply hreply

end Ummanu.E2e
