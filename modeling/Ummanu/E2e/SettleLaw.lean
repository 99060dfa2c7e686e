import Ummanu.E2e.QueueSteps
import Ummanu.E2e.StageLaw

/-!
# Settling the run in flight

The programs that take a run from its dispatch to its end, judged from any point a crash can have left it
at. Up to its resolution a run's record is filled in; from there on the record is frozen, and every comment
it is the text of is committed once, whatever is replayed.
-/

set_option autoImplicit false

namespace Ummanu.E2e

open Library Payload Entry

variable {item : Covered}
variable {clean ready : Prop} {flight : InFlight} {world : AmWorld} {memory : AmMemory} {i : ℕ} {run : E2eRun}

/-! ### How a record is filled in -/

theorem shut_closing_ne_empty (run : E2eRun) (reason : String) : (run.shut reason).closing ≠ "" :=
  stageRequestId_ne_empty _ _

/-- A record without a resolution may change in everything but what it is a record of. -/
theorem RunStep.of_open {before after : E2eRun} (hopen : before.resolution = none)
    (hsame : (after.dispatchId, after.sha, after.covered, after.gitRef, after.workflow, after.acted, after.hotfix) =
      (before.dispatchId, before.sha, before.covered, before.gitRef, before.workflow, before.acted, before.hotfix))
    (hrunId : before.runId ≠ 0 → after.runId ≠ 0) : RunStep before after := by
  simp only [Prod.mk.injEq] at hsame
  obtain ⟨hid, hsha, hcov, hgitRef, hworkflow, hacted, hhot⟩ := hsame
  exact ⟨hid, hsha, hcov, hgitRef, hworkflow, hrunId, hacted.trans, fun _ ↦ hhot, fun hset ↦ by
    rw [hopen] at hset
    cases hset⟩

section Filling

theorem RunStep.shut (hopen : run.resolution = none) (reason : String) : RunStep run (run.shut reason) :=
  .of_open hopen rfl id

theorem RunOk.shut (hrun : RunOk run) (reason : String) : RunOk (run.shut reason) :=
  { hrun with
    closing_of_foreign := fun _ _ ↦ shut_closing_ne_empty run reason
    end_of_resolved := fun _ ↦ .inl (shut_closing_ne_empty run reason) }

/-- A foreign head SHA closes the run. -/
theorem RunOk.shut_head (hrun : RunOk run) {head : String} (hres : run.result = none) (reason : String) :
    RunOk ({ run with headSha := head }.shut reason) :=
  { hrun with
    closing_of_foreign := fun _ _ ↦ shut_closing_ne_empty _ reason
    head_of_result := fun hsome ↦ by
      rw [hres] at hsome
      cases hsome
    end_of_resolved := fun _ ↦ .inl (shut_closing_ne_empty _ reason) }

theorem RunOk.ownHead (hrun : RunOk run) : RunOk { run with headSha := run.sha } :=
  { hrun with
    closing_of_foreign := fun _ hfor ↦ absurd rfl hfor
    head_of_result := fun _ ↦ rfl }

/-- A result is taken on by a run that ran on its own SHA. -/
theorem RunOk.answered (hrun : RunOk run) (hhead : run.headSha = run.sha) {result : RunResult}
    (hnamed : result.outcome ≠ "") : RunOk { run with result := some result } :=
  { hrun with
    head_of_result := fun _ ↦ hhead
    result_named := fun _ hfnd ↦ by
      cases hfnd
      exact hnamed
    result_of_ended := fun _ ↦ rfl
    end_of_resolved := fun _ ↦ .inr rfl }

theorem mem_matchingRuns {listed : List FoundRun} {branch sha dispatchId : String} {since : ℕ}
    {found : FoundRun} (hfnd : found ∈ matchingRuns listed branch sha since dispatchId) :
    found.id ≠ 0 := by
  have hlist : 0 < found.id := by
    rw [matchingRuns] at hfnd
    split at hfnd <;> simp_all
  omega

end Filling

/-! ### A run in hand -/

/-- The run in flight is in hand. -/
structure Settling (clean ready : Prop) (flight : InFlight) (world : AmWorld) (memory : AmMemory) (i : ℕ)
    (run : E2eRun) : Prop where
  hand : Hand clean ready world memory flight.carrier i run
  slot : memory.payload.run = some flight
  id_eq : run.dispatchId = flight.dispatchId

/-- The run in hand after a program that moved it forward and left the production state alone. -/
structure MovedOn (clean ready : Prop) (flight : InFlight) (payload : Payload) (i : ℕ) (run : E2eRun)
    (world' : AmWorld) (memory' : AmMemory) (run' : E2eRun) : Prop where
  now : Settling clean ready flight world' memory' i run'
  step : RunStep run run'
  payload : memory'.payload = payload

section Settling

/-- The program moves the run in hand forward, and leaves it in hand. -/
def Settling.Moves {α : Type} (_ : Settling clean ready flight world memory i run) (program : AmProgram α)
    (post : α → E2eRun → Prop) : Prop :=
  Keeps clean program (fun a world' memory' ↦ ∃ run',
    MovedOn clean ready flight memory.payload i run world' memory' run' ∧ post a run') world memory

section

variable (hrun : Settling clean ready flight world memory i run)
include hrun

theorem Settling.inv : Inv clean ready world memory.payload := hrun.hand.inv

theorem Settling.carried : memory.state.carried i = run := hrun.hand.ok.carried

theorem Settling.run_ok : RunOk run := hrun.hand.ok.ok

theorem Settling.carries : Carries world.board flight run := ⟨hrun.hand.mem, hrun.id_eq⟩

theorem Settling.flight_ok : FlightOk world.board flight := hrun.inv.slot.flight flight hrun.slot

/-- A covered item is an entry in flight. -/
theorem Settling.exists_entry (hitem : item ∈ run.covered) :
    ∃ entry ∈ flight.entries, entry.pair = item ∧ entry ∈ memory.payload.entries ∧ entry.marked = true := by
  rw [hrun.flight_ok.covered run hrun.carries] at hitem
  obtain ⟨entry, hent, hpair⟩ := List.mem_map.mp hitem
  exact ⟨entry, hent, hpair, mem_entries.mpr (.inr ⟨flight, hrun.slot, hent⟩), hrun.flight_ok.marked entry hent⟩

/-- A write of the logs leaves the run in hand. -/
theorem Settling.of_cards {world' : AmWorld} (hcards : world'.cards = world.cards)
    (hinv : Inv clean ready world' memory.payload) : Settling clean ready flight world' memory i run := by
  have hboard : world'.board = world.board := by rw [AmWorld.board, AmWorld.board, hcards]
  have hok := hrun.hand.ok
  exact { hrun with hand := ⟨hinv, { hok with
    at_index := hboard ▸ hok.at_index
    runs := hboard ▸ hok.runs
    mark := hboard ▸ hok.mark }⟩ }

/-- The run in hand is read. -/
theorem Settling.moves_runInHand {β : Type} {next : E2eRun → AmProgram β} {post : β → E2eRun → Prop} :
    hrun.Moves (runInHand i >>= next) post ↔ hrun.Moves (next run) post := by
  rw [Settling.Moves, keeps_runInHand, hrun.carried, Settling.Moves]

variable (tick : AmTick)

/-- The run in hand is changed and written. -/
theorem Settling.amend {step : String} {f : E2eRun → E2eRun} (hstep : RunStep run (f run)) (hok : RunOk (f run)) :
    Keeps clean (amendHand tick flight.carrier i step f)
      (fun _ world' memory' ↦ MovedOn clean ready flight memory.payload i run world' memory' (f run) ∧
        OnlyCards world world' ∧ world'.board = world.board.setRun flight.carrier i (f run))
      world memory := by
  refine (amendHand_keeps tick hrun.inv hrun.hand.ok hstep hok).mono ?_
  rintro _ _ _ ⟨hload, hhand, honly, hboard⟩
  exact ⟨⟨⟨hhand, hload ▸ hrun.slot, hstep.dispatchId.trans hrun.id_eq⟩, hstep, hload⟩, honly, hboard⟩

theorem Settling.amends {step : String} {f : E2eRun → E2eRun} (hstep : RunStep run (f run)) (hok : RunOk (f run)) :
    hrun.Moves (amendHand tick flight.carrier i step f) fun _ run' ↦ run' = f run :=
  (hrun.amend tick hstep hok).mono fun _ _ _ hamended ↦ ⟨f run, hamended.1, rfl⟩

/-- A run without a resolution is closed. -/
theorem Settling.shuts (hopen : run.resolution = none) {step reason : String} :
    hrun.Moves (amendHand tick flight.carrier i step (·.shut reason)) fun _ run' ↦ run' = run.shut reason :=
  hrun.amends tick (.shut hopen reason) (hrun.run_ok.shut reason)

end

section Moves

variable {α β : Type} {hrun : Settling clean ready flight world memory i run} {program : AmProgram α}
  {next : α → AmProgram β} {post post' : α → E2eRun → Prop} {last : β → E2eRun → Prop}

theorem Settling.Moves.pure {a : α} (hpost : post a run) : hrun.Moves (pure a) post :=
  Keeps.pure ⟨run, ⟨hrun, RunStep.refl run, rfl⟩, hpost⟩

theorem Settling.Moves.throw {e : TaskError} : hrun.Moves (throw e) post := Keeps.throw hrun.inv

theorem Settling.Moves.mono (hmoves : hrun.Moves program post) (hpost : ∀ a run', post a run' → post' a run') :
    hrun.Moves program post' :=
  Keeps.mono hmoves fun a _ _ ⟨run', hmov, hend⟩ ↦ ⟨run', hmov, hpost a run' hend⟩

theorem Settling.Moves.bind (hfst : hrun.Moves program post)
    (hnext : ∀ a world' memory' run' (hnow : Settling clean ready flight world' memory' i run'),
      RunStep run run' → post a run' → hnow.Moves (next a) last) : hrun.Moves (program >>= next) last := by
  refine Keeps.bind hfst ?_
  rintro a world' memory' ⟨run', hmov, hpost⟩
  refine Keeps.mono (hnext a world' memory' run' hmov.now hmov.step hpost) ?_
  rintro _ _ _ ⟨run'', hmoved', hlast⟩
  exact ⟨run'', ⟨hmoved'.now, hmov.step.trans hmoved'.step, hmoved'.payload.trans hmov.payload⟩, hlast⟩

/-- A loop that leaves the run as it is. -/
theorem Settling.moves_forM {items : List β} {f : β → AmProgram Unit}
    (hround : ∀ item ∈ items, ∀ world' memory' (hnow : Settling clean ready flight world' memory' i run),
      hnow.Moves (f item) fun _ run' ↦ run' = run) :
    hrun.Moves (items.forM f) fun _ run' ↦ run' = run := by
  refine (Keeps.forM_mem (fun world' memory' ↦ MovedOn clean ready flight memory.payload i run world' memory' run)
    ⟨hrun, RunStep.refl run, rfl⟩ ?_).mono fun _ _ _ hmov ↦ ⟨run, hmov, rfl⟩
  intro item hitem world' memory' hmov
  refine .mono (hround item hitem world' memory' hmov.now) ?_
  rintro _ _ _ ⟨_, hmoved', rfl⟩
  exact ⟨hmoved'.now, hmoved'.step, hmoved'.payload.trans hmov.payload⟩

end Moves

end Settling

/-! ### Identifying a run -/

/-- A run whose recovery was told is identified. -/
theorem Frozen.recovered_inv {board : Board} {committed : List Request} {request : Request} {id : String}
    (hice : Frozen board committed request) (hname : request.name = .recovered id) :
    ∃ ref, ∃ run ∈ board.runs ref, run.dispatchId = id ∧ run.runId ≠ 0 := by
  rwa [Frozen, hname] at hice

/-- Nothing is known of how the run ended. -/
def Unanswered (run : E2eRun) : Prop := run.resolution = none ∧ run.result = none

/-- The run was closed, or has a result. -/
def Answered (run : E2eRun) : Prop := run.closing ≠ "" ∨ run.result.isSome = true

section Identify

variable (tick : AmTick) (hrun : Settling clean ready flight world memory i run) (hopen : Unanswered run)
include hrun hopen

/-- The recovery of a lost run, and the comment that tells it. -/
theorem recover_moves (hlost : run.runId = 0) {runId : ℕ} (hfnd : runId ≠ 0) (rule : E2eRun → String)
    (body : E2eRun → String) (head : String) :
    hrun.Moves (do
        amendHand tick flight.carrier i "recovered" fun run ↦ { run with
          runId, runUrl := runPage run.repo runId, identifiedBy := .recovery, recoveryRule := rule run }
        let run ← runInHand i
        comment tick (.recovered run.dispatchId) flight.carrier (body run)
        pure (Lookup.head head ""))
      fun found run' ↦ Unanswered run' ∧ (found = .closed → run'.closing ≠ "") := by
  have hstep : RunStep run { run with
      runId, runUrl := runPage run.repo runId, identifiedBy := .recovery, recoveryRule := rule run } :=
    .of_open hopen.1 rfl fun _ ↦ hfnd
  have huntold : ∀ known ∈ world.committed, known.name ≠ .recovered run.dispatchId := by
    intro known hknown hname
    obtain ⟨_, _, hoth, hid, hother'⟩ := (hrun.inv.log.frozen known hknown).recovered_inv hname
    obtain ⟨-, rfl⟩ := hrun.inv.board.unique hoth hrun.hand.mem hid
    exact hother' hlost
  refine (hrun.amend tick (f := fun run ↦ { run with
    runId, runUrl := runPage run.repo runId, identifiedBy := .recovery, recoveryRule := rule run })
    hstep { hrun.run_ok with }).bind ?_
  rintro _ w' _ ⟨hmov, honly, -⟩
  rw [keeps_runInHand, hmov.now.carried]
  have hcan : Issuable w' {
      name := .recovered run.dispatchId, kind := .commented, card := flight.carrier
      body := body { run with
        runId, runUrl := runPage run.repo runId, identifiedBy := .recovery, recoveryRule := rule run } } := by
    refine ⟨fun known hknown hname _ ↦ ?_, ⟨flight.carrier, _, hmov.now.hand.mem, rfl, hfnd⟩⟩
    rw [honly] at hknown
    exact absurd hname (huntold known hknown)
  refine (comment_keeps tick hmov.now.inv hcan).bind ?_
  rintro _ _ _ ⟨rfl, hcards, hinv⟩
  exact .pure ⟨_, ⟨hmov.now.of_cards hcards hinv, hmov.step, hmov.payload⟩, hopen, nofun⟩

theorem findLost_moves (hlost : run.runId = 0) :
    hrun.Moves (findLost tick flight.carrier i)
      fun found run' ↦ Unanswered run' ∧ (found = .closed → run'.closing ≠ "") := by
  have hstay : ∀ found : Lookup, found ≠ .closed → hrun.Moves (pure found)
      fun found run' ↦ Unanswered run' ∧ (found = .closed → run'.closing ≠ "") := fun found hfnd ↦
    .pure ⟨hopen, fun hshut ↦ absurd hshut hfnd⟩
  rw [findLost, hrun.moves_runInHand]
  split
  · exact hstay _ (by simp)
  split
  · exact hstay _ (by simp)
  dsimp only
  split
  · exact hstay _ (by simp)
  split
  · exact hstay _ (by simp)
  · next found hmatch =>
    have hfnd : found.id ≠ 0 := mem_matchingRuns (by rw [hmatch]; exact List.mem_singleton_self _)
    exact recover_moves tick hrun hopen hlost hfnd _ _ _
  · refine (hrun.shuts tick hopen.1).bind ?_
    rintro _ _ _ _ _ - rfl
    exact .pure ⟨hopen, fun _ ↦ shut_closing_ne_empty run _⟩

theorem findRun_moves :
    hrun.Moves (findRun tick flight.carrier i)
      fun found run' ↦ Unanswered run' ∧ (found = .closed → run'.closing ≠ "") := by
  rw [findRun, hrun.moves_runInHand]
  split
  · next hlost => exact findLost_moves tick hrun hopen hlost
  · cases tick.headSha run.dispatchId with
    | ok _ => exact .pure ⟨hopen, nofun⟩
    | error _ => exact .pure ⟨hopen, nofun⟩

theorem attachHead_moves (head : String) :
    hrun.Moves (attachHead tick flight.carrier i head)
      fun _ run' ↦ Unanswered run' ∧ (run'.closing ≠ "" ∨ run'.headSha = run'.sha) := by
  rw [attachHead, hrun.moves_runInHand]
  split
  · refine (hrun.amends tick (.of_open hopen.1 rfl id) (hrun.run_ok.shut_head hopen.2 _)).mono ?_
    rintro _ _ rfl
    exact ⟨hopen, .inl (shut_closing_ne_empty _ _)⟩
  · next hown =>
    obtain rfl : head = run.sha := not_not.mp hown
    have hstep : RunStep run { run with headSha := run.sha } :=
      .of_open hopen.1 rfl id
    have hedited : HandOk world { memory with
        state := memory.state.updateCarried i fun o ↦ { o with headSha := run.sha } }
        flight.carrier i run { run with headSha := run.sha } :=
      hrun.hand.ok.update (f := fun o ↦ { o with headSha := run.sha }) hstep hrun.run_ok.ownHead
    rw [Settling.Moves, keeps_editHand]
    -- the head SHA is written with the first mark of the carrier, or at the end
    refine (Keeps.forM_mem (fun w' mem' ↦ mem'.payload = memory.payload ∧ Inv clean ready w' mem'.payload ∧
      ∃ old, HandOk w' mem' flight.carrier i old { run with headSha := run.sha }) ?_ ?_).bind ?_
    · exact ⟨rfl, hrun.inv, run, hedited⟩
    · rintro _ hitem w' mem' ⟨hload, hinv, old, hhand⟩
      obtain ⟨e, -, rfl, hent, hmarked⟩ := hrun.exists_entry hitem
      have hnote : Remarks w'.board mem'.payload.run e.ref fun mark ↦ { mark with runUrl := run.runUrl } :=
        hinv.remarks ⟨fun _ ↦ rfl, fun _ ↦ rfl, fun _ _ ↦ rfl⟩ (fun _ ↦ ⟨rfl, rfl⟩)
          fun mark hmark res hres ↦
            hinv.board.ended e.ref mark res hmark hres
      refine (remark_keeps tick hinv hhand (hload ▸ hent) hmarked hnote).mono ?_
      rintro _ w'' mem'' ⟨hload', hinv', old', -, hhand'⟩
      exact ⟨hload'.trans hload, hinv', old', hhand'⟩
    · rintro _ w' mem' ⟨hload, hinv, old, hhand⟩
      refine (persistHand_keeps tick hinv hhand).mono ?_
      rintro _ w'' mem'' ⟨rfl, hhand'⟩
      exact ⟨_, ⟨⟨hhand', hload ▸ hrun.slot, hrun.id_eq⟩, hstep, hload⟩, hopen, .inr rfl⟩

theorem identifyRun_moves :
    hrun.Moves (identifyRun tick flight.carrier i) fun identified run' ↦ Unanswered run' ∧
      (identified = true → run'.closing ≠ "" ∨ run'.headSha = run'.sha) := by
  refine (findRun_moves tick hrun hopen).bind ?_
  rintro f _ _ run' hnow - ⟨hopen', hshut⟩
  rw [hnow.moves_runInHand]
  cases f with
  | settling => exact .pure ⟨hopen', nofun⟩
  | closed => exact .pure ⟨hopen', fun _ ↦ .inl (hshut rfl)⟩
  | head head _ =>
    dsimp only
    split
    · split
      · exact .pure ⟨hopen', nofun⟩
      · refine (hnow.shuts tick hopen'.1).bind ?_
        rintro _ _ _ _ hnow' - rfl
        exact .pure ⟨hopen', fun _ ↦ .inl (shut_closing_ne_empty run' _)⟩
    · refine (attachHead_moves tick hnow hopen' head).bind ?_
      rintro _ _ _ _ hnow' - ⟨hopen'', hend⟩
      exact .pure ⟨hopen'', fun _ ↦ hend⟩

end Identify

/-! ### Waiting for a run -/

/-- A run that is waited for, as it is in hand, with the record it was on the board. -/
structure Waiting (clean ready : Prop) (flight : InFlight) (payload : Payload) (i : ℕ) (run : E2eRun)
    (world' : AmWorld) (memory' : AmMemory) (old run' : E2eRun) : Prop where
  inv : Inv clean ready world' memory'.payload
  payload : memory'.payload = payload
  hand : HandOk world' memory' flight.carrier i old run'
  step : RunStep run run'
  unanswered : Unanswered run'
  head : run'.headSha = run.headSha

theorem openSprint_meets {G : AmWorld → AmWorld → Prop} {world : AmWorld} {memory : AmMemory} (tick : AmTick)
    (sprint : String) :
    Meets G (openSprint tick sprint) (fun _ world' memory' ↦ world' = world ∧ memory' = memory)
      world memory := by
  rw [openSprint]
  split
  · simp
  · cases tick.sprintOpen sprint <;> simp

section Wait

variable (project : String) (tick : AmTick) (hrun : Settling clean ready flight world memory i run)
include hrun

/-- Creating the wait card; an exception may leave the card's ref in memory only. -/
theorem makeWait_meets (hopen : Unanswered run) :
    Meets (Follows clean) (makeWait project tick flight.carrier i)
      (fun result world' memory' ↦ ∃ old run',
        Waiting clean ready flight memory.payload i run world' memory' old run' ∧
          (∀ a, result = .ok a → old = run')) world memory := by
  simp only [makeWait, runInHand, meets_bind, meets_remembered, meets_pure, hrun.carried]
  have hstay : ∀ world', world'.cards = world.cards → Inv clean ready world' memory.payload →
      Waiting clean ready flight memory.payload i run world' memory run run := fun world' hcards hinv ↦
    ⟨hinv, rfl, (hrun.of_cards hcards hinv).hand.ok, RunStep.refl run, hopen, rfl⟩
  refine Meets.mono (openSprint_meets tick _) ?_
  rintro op _ _ ⟨rfl, rfl⟩
  cases op with
  | error e => exact ⟨run, run, hstay _ rfl hrun.inv, by simp⟩
  | ok _ =>
    refine Meets.mono (issue_meets tick hrun.inv (.rebuilt trivial ⟨rfl, rfl⟩)) ?_
    rintro result world' _ ⟨rfl, hcards, hinv, -⟩
    cases result with
    | error e => exact ⟨run, run, hstay world' hcards hinv, by simp⟩
    | ok created =>
      have hnow := hrun.of_cards hcards hinv
      have hstep : RunStep run { run with waitRef := created.made } :=
        .of_open hopen.1 rfl id
      refine Meets.mono (amendHand_meets tick (f := fun run ↦ { run with waitRef := created.made }) hinv
        hnow.hand.ok hstep { hrun.run_ok with }) ?_
      rintro result _ _ ⟨hload, hresult'⟩
      cases result with
      | error e =>
        obtain ⟨rfl, hhand⟩ := hresult'
        exact ⟨run, _, ⟨hload ▸ hinv, hload, hhand, hstep, hopen, rfl⟩, by simp⟩
      | ok a =>
        obtain ⟨hhand, -⟩ := hresult'
        exact ⟨_, _, ⟨hhand.inv, hload, hhand.ok, hstep, hopen, rfl⟩, fun _ _ ↦ rfl⟩

theorem requireWait_moves (hopen : Unanswered run) :
    hrun.Moves (requireWait project tick flight.carrier i)
      fun _ run' ↦ Unanswered run' ∧ run'.headSha = run.headSha := by
  rw [Settling.Moves, requireWait, keeps_runInHand, Keeps, meets_tryCatch]
  refine Meets.mono (makeWait_meets project tick hrun hopen) ?_
  rintro res _ mem' ⟨_, run', hwait, hexact⟩
  have hslot : mem'.payload.run = some flight := hwait.payload ▸ hrun.slot
  have hid : run'.dispatchId = flight.dispatchId := hwait.step.dispatchId.trans hrun.id_eq
  cases res with
  | ok a =>
    obtain rfl := hexact a rfl
    exact ⟨_, ⟨⟨⟨hwait.inv, hwait.hand⟩, hslot, hid⟩, hwait.step, hwait.payload⟩, hwait.unanswered, hwait.head⟩
  | error e =>
    refine (amendHand_keeps tick (f := (·.shut _)) hwait.inv hwait.hand
      (.shut hwait.unanswered.1 _) (hwait.hand.ok.shut _)).mono ?_
    rintro _ _ _ ⟨hload, hhand, -⟩
    refine ⟨_, ⟨⟨hhand, hload ▸ hslot, hid⟩, hwait.step.trans (.shut hwait.unanswered.1 _),
      hload.trans hwait.payload⟩, hwait.unanswered, hwait.head⟩

theorem readAnswer_moves (hopen : run.resolution = none) (hhead : run.headSha = run.sha) :
    hrun.Moves (readAnswer tick flight.carrier i) fun answered run' ↦ answered = true → Answered run' := by
  rw [readAnswer, hrun.moves_runInHand]
  cases tick.wait run.dispatchId with
  | failed _ => exact .throw
  | missing =>
    refine (hrun.shuts tick hopen).bind ?_
    rintro _ _ _ _ hnow - rfl
    exact .pure fun _ ↦ .inl (shut_closing_ne_empty run _)
  | pending => exact .pure nofun
  | frozen result named =>
    refine (hrun.amends tick (f := fun run ↦ { run with
      result := some { result with
        evidence := if result.evidence = "" then run.runUrl else result.evidence } })
      (.of_open hopen rfl id) (hrun.run_ok.answered hhead named)).bind ?_
    rintro _ _ _ _ hnow - rfl
    exact .pure fun _ ↦ .inr rfl

theorem awaitAnswer_moves (hopen : run.resolution = none) (hhead : run.closing = "" → run.headSha = run.sha) :
    hrun.Moves (awaitAnswer tick flight.carrier i) fun answered run' ↦ answered = true → Answered run' := by
  rw [awaitAnswer, hrun.moves_runInHand]
  split
  · next hclos => exact readAnswer_moves tick hrun hopen (hhead hclos)
  · next hclos => exact .pure fun _ ↦ .inl hclos

theorem awaitRun_moves (hopen : Unanswered run) (hhead : run.closing = "" → run.headSha = run.sha) :
    hrun.Moves (awaitRun project tick flight.carrier i)
      fun answered run' ↦ answered = true → Answered run' := by
  rw [awaitRun, hrun.moves_runInHand]
  split
  · next hwait =>
    refine (requireWait_moves project tick hrun hopen).bind ?_
    rintro _ _ _ _ hnow hstep ⟨hopen', hsame⟩
    exact awaitAnswer_moves tick hnow hopen'.1 fun _ ↦ by rw [hsame, hstep.sha, hhead hwait.1]
  · exact awaitAnswer_moves tick hrun hopen.1 hhead

theorem endRun_moves :
    hrun.Moves (endRun project tick flight.carrier i) fun ended run' ↦ ended = true → Answered run' := by
  rw [endRun, hrun.moves_runInHand]
  split
  · next hwait =>
    obtain ⟨hclos, hres⟩ := hwait
    -- a resolved run has a closing or a result
    have hopen : run.resolution = none := by
      by_contra hsome
      obtain hno | hno := hrun.run_ok.end_of_resolved (Option.isSome_iff_ne_none.mpr hsome)
      · exact hno hclos
      · rw [hres] at hno
        cases hno
    split
    · refine (identifyRun_moves tick hrun ⟨hopen, hres⟩).bind ?_
      rintro identified _ _ _ hnow - ⟨hopen', hend⟩
      cases identified with
      | false => exact .pure nofun
      | true =>
        exact awaitRun_moves project tick hnow hopen' fun hclosing' ↦
          (hend rfl).resolve_left (not_not.mpr hclosing')
    · next hident =>
      have hhead : run.closing = "" → run.headSha = run.sha := fun _ ↦ by
        by_contra hfor
        exact hrun.run_ok.closing_of_foreign (not_or.mp hident).2 hfor hclos
      exact awaitRun_moves project tick hrun ⟨hopen, hres⟩ hhead
  · next hended =>
    refine .pure fun _ ↦ ?_
    by_cases hclos : run.closing = ""
    · exact .inr (Option.isSome_iff_ne_none.mpr fun hnone ↦ hended ⟨hclos, hnone⟩)
    · exact .inl hclos

end Wait

/-! ### What a run came to -/

theorem Request.Same.refl (request : Request) : request.Same request :=
  ⟨rfl, rfl, rfl, rfl, rfl, rfl, rfl⟩

section Inversion

variable {board : Board} {committed : List Request} {known : Request} {ref : String}

theorem covered_eq_of_ref (hrun : RunOk run) {other : Covered} (hoth : other ∈ run.covered)
    (hitem : item ∈ run.covered) (href : other.ref = item.ref) : other = item :=
  List.inj_on_of_nodup_map hrun.covered_once hoth hitem href

/-- The move of an unowned hotfix card is the one its create and its run give. -/
theorem Frozen.blocked_eq (hice : Frozen board committed known) (hboard : BoardOk board)
    (hrun : run ∈ board.runs ref) (hname : known.name = .hotfixBlocked run.dispatchId) :
    ∃ create ∈ committed, create.name = .hotfix run.dispatchId ∧
      known = run.blockedRequest create.made := by
  rw [Frozen, hname] at hice
  obtain ⟨_, _, hoth, -, create, hmake, hmade, rfl⟩ := hice
  obtain ⟨-, rfl⟩ := hboard.unique hoth hrun (RequestName.hotfixBlocked.inj hname)
  exact ⟨create, hmake, hmade, rfl⟩

theorem Frozen.hotfix_made (hice : Frozen board committed known) {id : String}
    (hname : known.name = .hotfix id) : known.made ≠ "" := by
  rwa [Frozen, hname] at hice

end Inversion

section Issuable

variable {payload : Payload} {ref : String} (hinv : Inv clean ready world payload) (hrun : run ∈ world.board.runs ref)
include hinv hrun

/-- The comment that is committed for a card of a run is the one the run's record gives. -/
theorem Inv.issuable {P : E2eRun → Prop} {make : E2eRun → Covered → Request}
    (hice : ∀ committed known, known.name = (make run item).name → (Frozen world.board committed known ↔
      ∃ ref, ∃ run ∈ world.board.runs ref, P run ∧ ∃ item ∈ run.covered, known = make run item))
    (hname : ∀ other item', (make other item').name = (make run item).name →
      item'.ref = item.ref ∧ other.dispatchId = run.dispatchId)
    (hend : P run) (hitem : item ∈ run.covered) : Issuable world (make run item) where
  same := by
    intro known hknown hsame _
    obtain ⟨_, other, hoth, -, item', hitem', rfl⟩ := (hice _ known hsame).mp (hinv.log.frozen known hknown)
    obtain ⟨href, hid⟩ := hname other item' hsame
    obtain ⟨-, rfl⟩ := hinv.board.unique hoth hrun hid
    rw [covered_eq_of_ref (hinv.board.run_ok _ _ hrun) hitem' hitem href]
    exact .refl _
  frozen := (hice _ _ rfl).mpr ⟨ref, run, hrun, hend, item, hitem, rfl⟩

theorem Inv.issuable_green (hend : run.resolution = some .green) (hitem : item ∈ run.covered) :
    Issuable world (run.greenRequest item) :=
  hinv.issuable hrun (fun _ _ hname ↦ by rw [Frozen, hname]; rfl) (fun _ _ ↦ RequestName.green.inj) hend hitem

theorem Inv.issuable_red (hend : run.resolution = some .red) (hhot : run.hotfix ≠ "")
    (hitem : item ∈ run.covered) : Issuable world (run.redRequest item) :=
  hinv.issuable (P := fun run ↦ run.resolution = some .red ∧ run.hotfix ≠ "") hrun
    (fun _ _ hname ↦ by rw [Frozen, hname]; rfl) (fun _ _ ↦ RequestName.red.inj) ⟨hend, hhot⟩ hitem

theorem Inv.issuable_requeued (hend : Returned run) (hitem : item ∈ run.covered) :
    Issuable world (run.requeuedRequest item) :=
  hinv.issuable hrun (fun _ _ hname ↦ by rw [Frozen, hname]; rfl) (fun _ _ ↦ RequestName.requeued.inj) hend hitem

/-- A name is committed once, so that the move names the card of the create. -/
theorem Inv.issuable_blocked (hend : run.resolution = some .red) {create : Request}
    (hmake : create ∈ world.committed) (hname : create.name = .hotfix run.dispatchId) :
    Issuable world (run.blockedRequest create.made) where
  same := by
    intro known hknown hknown' _
    obtain ⟨o, hoth, hother', rfl⟩ :=
      (hinv.log.frozen known hknown).blocked_eq hinv.board hrun hknown'
    obtain rfl : o = create :=
      List.inj_on_of_nodup_map hinv.log.names_once hoth hmake (hother'.trans hname.symm)
    exact Request.Same.refl _
  frozen := ⟨ref, run, hrun, hend, create, List.mem_append_left _ hmake, hname, rfl⟩

end Issuable

section Ends

theorem resolve_resolution (run : E2eRun) (evidence : String × String) :
    (run.resolve evidence).resolution = some run.ending := by
  rw [E2eRun.resolve]
  split
  · next hred => rw [hred]
  · rfl

theorem RunStep.resolve (hopen : run.resolution = none) (evidence : String × String) :
    RunStep run (run.resolve evidence) := by
  rw [E2eRun.resolve]
  split <;> exact .of_open hopen rfl id

/-- A run that ends green or red has a result. -/
theorem result_of_ending (hend : run.ending = .green ∨ run.ending = .red) : run.result.isSome = true := by
  cases hres : run.result with
  | some result => rfl
  | none =>
    have hout : run.outcome ≠ targetReached := by
      rw [E2eRun.outcome, hres]
      decide
    rw [E2eRun.ending] at hend
    split at hend <;> simp_all

theorem RunOk.resolve (hrun : RunOk run) (hend : Answered run) (evidence : String × String) :
    RunOk (run.resolve evidence) := by
  have hres : run.ending = .green ∨ run.ending = .red → run.result.isSome = true := result_of_ending
  rw [E2eRun.resolve]
  split
  · next hred =>
    generalize run.hotfixDescription evidence.1 evidence.2 = reason
    exact { hrun with
      result_of_ended := fun _ ↦ hres (.inr hred)
      end_of_resolved := fun _ ↦ hend
      resolved_of_acted := fun _ ↦ rfl }
  · exact { hrun with
      result_of_ended := fun hended ↦ hres (hended.imp Option.some.inj Option.some.inj)
      end_of_resolved := fun _ ↦ hend
      resolved_of_acted := fun _ ↦ rfl }

variable (tick : AmTick) (hrun : Settling clean ready flight world memory i run)
include hrun

theorem requireResolution_moves (hend : Answered run) :
    hrun.Moves (requireResolution tick flight.carrier i) fun _ run' ↦ run'.resolution.isSome = true := by
  rw [requireResolution, hrun.moves_runInHand]
  split
  · next hopen =>
    refine (hrun.amends tick (f := (·.resolve _)) (.resolve hopen _) (hrun.run_ok.resolve hend _)).mono ?_
    rintro _ _ rfl
    rw [resolve_resolution]
    rfl
  · next hsol => exact .pure (Option.isSome_iff_ne_none.mpr hsol)

/-- Until it comes to nothing, the run is the one the marks of its cards go back to. -/
theorem Settling.endedBy {resolution : Resolution} (hend : run.resolution = some resolution)
    (hended : Ended run) {entry : Entry} (hent : entry ∈ flight.entries) {mark shown : AfterMergeMark}
    (hmark : world.board.mark entry.ref = some mark) (hsha : shown.mergeSha = mark.mergeSha)
    (hid : shown.dispatchId = mark.dispatchId) (hcarry : shown.carrier = mark.carrier) :
    EndedBy world.board entry.ref shown resolution := by
  have hnot : ¬ Returned run := by
    rintro (hret | hret) <;> obtain hended | hended := hended <;>
      rw [hended] at hret <;> cases hret
  obtain ⟨_, hfnd, hfound'⟩ := hrun.flight_ok.marks run hrun.carries hnot entry hent
  rw [hmark, Option.some_inj] at hfnd
  subst hfnd
  obtain ⟨hsha', hid', hcarry'⟩ := hfound'
  refine ⟨run, ?_, ?_, hend, ?_⟩
  · rw [hcarry, hcarry']
    exact hrun.hand.mem
  · rw [hid, hid', hrun.id_eq]
  · rw [hsha, hsha', hrun.flight_ok.covered run hrun.carries]
    exact List.mem_map.mpr ⟨entry, hent, rfl⟩

/-- What the end of a run tells a covered card: a comment, and an edit of the card's mark. -/
theorem Settling.tell (hitem : item ∈ run.covered) {name : RequestName} {body step : String}
    {f : AfterMergeMark → AfterMergeMark}
    (hcan : Issuable world { name, kind := .commented, card := item.ref, body })
    (hnote : ∀ world', Settling clean ready flight world' memory i run → ∀ entry ∈ flight.entries,
      Remarks world'.board memory.payload.run entry.ref f) :
    hrun.Moves (do
        comment tick name item.ref body
        remark tick flight.carrier step item.ref f) fun _ run' ↦ run' = run := by
  refine (comment_keeps tick hrun.inv hcan).bind ?_
  rintro _ world' _ ⟨rfl, hcards, hinv⟩
  have hnow := hrun.of_cards hcards hinv
  obtain ⟨entry, hent, rfl, hmem, hmark⟩ := hnow.exists_entry hitem
  refine (remark_keeps tick hnow.inv hnow.hand.ok hmem hmark (hnote world' hnow entry hent)).mono ?_
  rintro _ _ _ ⟨hload, hinv', old, hold, hhand⟩
  obtain rfl : old = run := hold.elim id id
  exact ⟨_, ⟨⟨⟨hinv', hhand⟩, hload ▸ hrun.slot, hrun.id_eq⟩, RunStep.refl _, hload⟩, rfl⟩

theorem actGreen_moves (hend : run.resolution = some .green) :
    hrun.Moves (actGreen tick flight.carrier i) fun _ run' ↦ run' = run := by
  rw [actGreen, hrun.moves_runInHand]
  refine Settling.moves_forM fun _ hitem _ _ hnow ↦
    hnow.tell tick hitem (hnow.inv.issuable_green hnow.hand.mem hend hitem) fun _ hnow' _ hent ↦ ?_
  refine hnow'.inv.remarks ⟨fun _ ↦ rfl, fun _ ↦ rfl, fun _ _ ↦ rfl⟩ (fun _ ↦ ⟨rfl, rfl⟩) ?_
  intro _ hmark _ hres
  cases hres
  exact hnow'.endedBy hend (.inl hend) hent hmark rfl rfl rfl

/-- The create of the run's hotfix card is committed once. -/
theorem createHotfix_keeps :
    Keeps clean (createHotfix tick flight.carrier i)
      (fun created world' memory' ↦ memory' = memory ∧ world'.cards = world.cards ∧
        Inv clean ready world' memory'.payload ∧ created ∈ world'.committed ∧
        created.name = .hotfix run.dispatchId) world memory := by
  rw [createHotfix, keeps_runInHand, hrun.carried, keeps_stored]
  refine (showCard_keeps tick hrun.inv).bind ?_
  rintro _ _ _ ⟨-, rfl, rfl⟩
  split
  · next known hfind =>
    have hname : known.name = .hotfix run.dispatchId := by simpa using List.find?_some hfind
    exact .pure ⟨rfl, rfl, hrun.inv, List.mem_of_find?_eq_some hfind, hname⟩
  · next hnone =>
    refine (openSprint_keeps tick hrun.inv).bind ?_
    rintro _ _ _ ⟨rfl, rfl⟩
    exact issue_keeps tick hrun.inv (.of_fresh hnone (tick.hotfixRef run.dispatchId).ne_empty)

theorem makeHotfix_keeps (hend : run.resolution = some .red) :
    Keeps clean (makeHotfix tick flight.carrier i)
      (fun hotfix world' memory' ↦ memory' = memory ∧ world'.cards = world.cards ∧
        Inv clean ready world' memory'.payload ∧ hotfix ≠ "") world memory := by
  rw [makeHotfix, keeps_runInHand, hrun.carried]
  refine (createHotfix_keeps tick hrun).bind ?_
  rintro created _ _ ⟨rfl, hcards, hinv, hcreated, hname⟩
  have hmade := (hinv.log.frozen created hcreated).hotfix_made hname
  split
  · exact .pure ⟨rfl, hcards, hinv, hmade⟩
  · cases tick.unreadable .hotfixState with
    | some _ => exact .throw hinv
    | none =>
      dsimp only
      split
      · have hmem := (hrun.of_cards hcards hinv).hand.mem
        refine (issue_keeps tick hinv (hinv.issuable_blocked hmem hend hcreated hname)).bind ?_
        rintro _ _ _ ⟨rfl, hcards', hinv', -⟩
        exact .pure ⟨rfl, hcards'.trans hcards, hinv', hmade⟩
      · exact .pure ⟨rfl, hcards, hinv, hmade⟩

theorem requireHotfix_moves (hend : run.resolution = some .red) :
    hrun.Moves (requireHotfix tick flight.carrier i)
      fun _ run' ↦ run'.resolution = some .red ∧ run'.hotfix ≠ "" := by
  rw [requireHotfix, hrun.moves_runInHand]
  split
  · next hnone =>
    refine (makeHotfix_keeps tick hrun hend).bind ?_
    rintro hotfix _ _ ⟨rfl, hcards, hinv, hhot⟩
    have hstep : RunStep run { run with hotfix } :=
      ⟨rfl, rfl, rfl, rfl, rfl, id, id, fun hset ↦ absurd hnone hset, fun _ ↦ ⟨rfl, rfl, rfl, rfl, rfl, rfl⟩⟩
    refine ((hrun.of_cards hcards hinv).amends tick (f := fun run ↦ { run with hotfix }) hstep
      { hrun.run_ok with }).mono ?_
    rintro _ _ rfl
    exact ⟨hend, hhot⟩
  · next hhot => exact .pure ⟨hend, hhot⟩

theorem actRed_moves (hend : run.resolution = some .red) :
    hrun.Moves (actRed tick flight.carrier i) fun _ run' ↦ run'.resolution = some .red := by
  refine (requireHotfix_moves tick hrun hend).bind ?_
  rintro _ _ _ _ hnow - ⟨hend', hhot⟩
  rw [hnow.moves_runInHand]
  refine (Settling.moves_forM fun _ hitem _ _ hnow' ↦
    hnow'.tell tick hitem (hnow'.inv.issuable_red hnow'.hand.mem hend' hhot hitem)
      fun _ hlast _ hent ↦ ?_).mono fun _ _ hsame ↦ hsame ▸ hend'
  refine hlast.inv.remarks ⟨fun _ ↦ rfl, fun _ ↦ rfl, fun _ _ ↦ rfl⟩ (fun _ ↦ ⟨rfl, rfl⟩) ?_
  intro _ hmark _ hres
  cases hres
  exact hlast.endedBy hend' (.inr hend') hent hmark rfl rfl rfl

/-- The cards of a run that came to nothing lose its marks. -/
theorem requeueMarks_moves (hend : Returned run) (note : String) :
    hrun.Moves (run.covered.forM fun item ↦ do
        comment tick (.requeued item.ref run.dispatchId) item.ref run.requeueBody
        remark tick flight.carrier "requeued" item.ref fun mark ↦
          { mark with state := .pending, note, dispatchId := "", runUrl := "" })
      fun _ run' ↦ run' = run := by
  refine Settling.moves_forM fun _ hitem _ _ hnow ↦
    hnow.tell tick hitem (hnow.inv.issuable_requeued hnow.hand.mem hend hitem) fun _ hnow' _ _ ↦ ?_
  refine ⟨⟨fun _ ↦ rfl, fun _ ↦ rfl, fun _ _ ↦ rfl⟩, nofun, ?_⟩
  intro _ _ other hoth _ hfnd hnot
  obtain rfl : flight = other := Option.some_inj.mp (hnow'.slot.symm.trans hoth)
  obtain ⟨-, rfl⟩ := hnow'.inv.board.unique hfnd.1 hnow'.hand.mem (hfnd.2.trans hnow'.id_eq.symm)
  exact absurd hend hnot

end Ends

/-! ### Leaving the slot -/

theorem Payload.mem_putBack {payload : Payload} {entries : List Entry} {entry : Entry} :
    entry ∈ (payload.putBack entries).pending ↔
      (∃ back ∈ entries, back.ref ∉ payload.pending.map ref ∧ { back with marked := true } = entry) ∨
        entry ∈ payload.pending := by
  simp [putBack, and_assoc]

theorem Payload.putBack_once {payload : Payload} {entries : List Entry}
    (hpend : (payload.pending.map ref).Nodup) (hlist : (entries.map ref).Nodup) :
    ((payload.putBack entries).pending.map ref).Nodup := by
  have hback : (((entries.filter (·.ref ∉ payload.pending.map ref)).map fun e ↦ { e with marked := true }).map ref) =
      (entries.filter (·.ref ∉ payload.pending.map ref)).map ref := by
    rw [List.map_map]
    rfl
  rw [putBack, List.map_append, hback, List.nodup_append]
  refine ⟨hlist.sublist (List.filter_sublist.map _), hpend, fun ref href _ href' hsame ↦ ?_⟩
  obtain ⟨e, hent, rfl⟩ := List.mem_map.mp href
  have hnot := (List.mem_filter.mp hent).2
  exact absurd (hsame ▸ href') (by simpa using hnot)

section Slot

variable (project : String) (tick : AmTick)

/-- The entry of a card that is pending is the one in flight. -/
theorem Settling.putBack_covers (hrun : Settling clean ready flight world memory i run) {entry : Entry}
    (hent : entry ∈ flight.entries) :
    ∃ other ∈ (memory.payload.putBack flight.entries).pending, other.pair = entry.pair := by
  by_cases hknown : entry.ref ∈ memory.payload.pending.map ref
  · obtain ⟨other, hoth, href⟩ := List.mem_map.mp hknown
    refine ⟨other, mem_putBack.mpr (.inr hoth), ?_⟩
    have hsha := hrun.inv.memory.one_sha other (mem_entries.mpr (.inl hoth)) entry
      (mem_entries.mpr (.inr ⟨flight, hrun.slot, hent⟩)) href
    rw [pair, pair, href, hsha]
  · exact ⟨{ entry with marked := true }, mem_putBack.mpr (.inl ⟨entry, hent, hknown, rfl⟩), rfl⟩

/-- The cards of a run that came to nothing are pending again. -/
theorem Settling.putBack (hrun : Settling clean ready flight world memory i run) (hend : Returned run) :
    Inv clean ready world (memory.payload.putBack flight.entries) := by
  have hslot : (memory.payload.putBack flight.entries).run = memory.payload.run := rfl
  refine hrun.inv.exchange ⟨putBack_once hrun.inv.memory.pending_once hrun.flight_ok.once, ?_, ?_, rfl, ?_⟩
    hslot fun hready e hent ↦ ?_
  · intro e hent
    rw [mem_entries, mem_putBack, hslot] at hent
    obtain (⟨back, hback, -, rfl⟩ | hpend) | hfly := hent
    · exact ⟨back, mem_entries.mpr (.inr ⟨flight, hrun.slot, hback⟩), rfl,
        fun _ ↦ .inl (hrun.flight_ok.marked back hback)⟩
    · exact ⟨e, mem_entries.mpr (.inl hpend), rfl, .inl⟩
    · exact ⟨e, mem_entries.mpr (.inr hfly), rfl, .inl⟩
  · intro other hoth _ _ _
    obtain rfl : flight = other := Option.some_inj.mp (hrun.slot.symm.trans hoth)
    exact ⟨run, hrun.carries, hend⟩
  · intro _ e hent
    refine .inl ⟨e, mem_entries.mpr ?_, rfl⟩
    exact (mem_entries.mp hent).imp (fun hpend ↦ mem_putBack.mpr (.inr hpend)) id
  · obtain ⟨back, -, -, rfl⟩ | hpend := mem_putBack.mp hent
    · rfl
    · exact hrun.inv.ready hready e hpend

/-- The cards of a run are accounted for without it. -/
def KeptWithout (flight : InFlight) (payload : Payload) (run : E2eRun) : Prop :=
  Ended run ∨ ∀ entry ∈ flight.entries, ∃ other ∈ payload.pending, other.pair = entry.pair

/-- The run was acted on, and may leave the slot. -/
structure Actable (flight : InFlight) (payload : Payload) (run : E2eRun) : Prop where
  acted : run.acted = true
  kept : KeptWithout flight payload run

theorem releaseRun_keeps (hrun : Settling clean ready flight world memory i run)
    (hacted : Actable flight memory.payload run) :
    Keeps clean (releaseRun flight.carrier i)
      (fun _ world' memory' ↦ Inv clean ready world' memory'.payload ∧ memory'.payload.run = none)
      world memory := by
  have hlist : ∀ e, e ∈ (memory.payload.release flight.carrier run).entries ↔
      e ∈ memory.payload.pending := by
    intro e
    rw [mem_entries]
    exact ⟨fun hent ↦ hent.elim id nofun, .inl⟩
  have hslot : SlotOk world.board (memory.payload.release flight.carrier run).run := by
    refine ⟨nofun, fun ref o hoth hunacted ↦ ?_⟩
    obtain ⟨found, hfnd, _, hid⟩ := hrun.inv.slot.unacted ref o hoth hunacted
    obtain rfl : flight = found := Option.some_inj.mp (hrun.slot.symm.trans hfnd)
    obtain ⟨-, rfl⟩ := hrun.inv.board.unique hoth hrun.hand.mem (hid.symm.trans hrun.id_eq.symm)
    exact absurd hacted.acted (by rw [hunacted]; decide)
  rw [releaseRun, keeps_runInHand, hrun.carried]
  refine (savePayload_exchange hrun.inv (.of_subset hrun.inv.memory.pending_once (fun e hent ↦ ?_)
    (by rintro _ ⟨⟩) rfl fun _ e hent ↦ ?_) hslot hrun.inv.ready).mono ?_
  · exact mem_entries.mpr (.inl ((hlist e).mp hent))
  · obtain hpend | ⟨found, hfnd, hent⟩ := mem_entries.mp hent
    · exact .inl ⟨e, (hlist e).mpr hpend, rfl⟩
    · obtain rfl : flight = found := Option.some_inj.mp (hrun.slot.symm.trans hfnd)
      obtain hended | hback := hacted.kept
      · refine .inr (.inl ⟨flight.carrier, run, hrun.hand.mem, hended, ?_⟩)
        rw [hrun.flight_ok.covered run hrun.carries]
        exact List.mem_map_of_mem hent
      · obtain ⟨o, hoth, hpair⟩ := hback e hent
        exact .inl ⟨o, (hlist o).mpr hoth, hpair⟩
  · rintro _ _ _ ⟨-, rfl, hinv⟩
    exact ⟨hinv, rfl⟩

theorem ended_or_returned (hsol : run.resolution.isSome = true) : Ended run ∨ Returned run := by
  cases hres : run.resolution with
  | none => rw [hres] at hsol; cases hsol
  | some resolution =>
    cases resolution with
    | green => exact .inl (.inl hres)
    | red => exact .inl (.inr hres)
    | requeued => exact .inr (.inl hres)
    | blocked => exact .inr (.inr hres)

section

variable (hrun : Settling clean ready flight world memory i run)
include hrun

/-- The run in hand stays when cards are put back. -/
theorem Settling.with_putBack (hend : Returned run) :
    Settling clean ready flight world
      { memory with payload := memory.payload.putBack flight.entries } i run := { hrun with
  hand := ⟨hrun.putBack hend, { hrun.hand.ok with }⟩ }

theorem applyEnd_keeps (hsol : run.resolution.isSome = true) :
    Keeps clean (applyEnd tick flight.carrier i flight.entries)
      (fun _ world' memory' ↦ ∃ run', Settling clean ready flight world' memory' i run' ∧
        RunStep run run' ∧ KeptWithout flight memory'.payload run') world memory := by
  rw [applyEnd, keeps_runInHand, hrun.carried]
  split
  · next hend =>
    refine .mono (actGreen_moves tick hrun hend) ?_
    rintro _ world' memory' ⟨_, hmov, rfl⟩
    exact ⟨_, hmov.now, hmov.step, .inl (.inl hend)⟩
  · next hend =>
    refine .mono (actRed_moves tick hrun hend) ?_
    rintro _ world' memory' ⟨run', hmov, hend'⟩
    exact ⟨run', hmov.now, hmov.step, .inl (.inr hend')⟩
  · next hgreen hred =>
    have hend : Returned run := by
      refine (ended_or_returned hsol).resolve_left ?_
      rintro (hend | hend)
      · exact hgreen hend
      · exact hred hend
    rw [actRequeue, keeps_runInHand, hrun.carried]
    refine .bind (requeueMarks_moves tick hrun hend _) ?_
    rintro _ world' memory' ⟨_, ⟨hnow, hstep, -⟩, rfl⟩
    rw [keeps_editPayload]
    exact ⟨_, hnow.with_putBack hend, hstep, .inr fun _ hent ↦ hnow.putBack_covers hent⟩

theorem actOnEnd_keeps (hend : Answered run) :
    Keeps clean (actOnEnd tick flight.carrier i flight.entries)
      (fun _ world' memory' ↦ ∃ run', Settling clean ready flight world' memory' i run' ∧
        Actable flight memory'.payload run') world memory := by
  refine .bind (requireResolution_moves tick hrun hend) ?_
  rintro _ _ _ ⟨_, hmov, hsol⟩
  refine (applyEnd_keeps tick hmov.now hsol).bind ?_
  rintro _ _ _ ⟨run'', hnow, hstep, hkept⟩
  have hsolved' : run''.resolution.isSome = true := by rwa [(hstep.resolved hsol).1]
  have hacts : RunStep run'' { run'' with acted := true } :=
    ⟨rfl, rfl, rfl, rfl, rfl, id, fun _ ↦ rfl, fun _ ↦ rfl, fun _ ↦ ⟨rfl, rfl, rfl, rfl, rfl, rfl⟩⟩
  refine (hnow.amend tick (f := fun run ↦ { run with acted := true }) hacts
    { hnow.run_ok with resolved_of_acted := fun _ ↦ hsolved' }).mono ?_
  rintro _ _ _ ⟨hmoved', -⟩
  exact ⟨_, hmoved'.now, rfl, hmoved'.payload ▸ hkept⟩

theorem settleCarried_keeps :
    Keeps clean (settleCarried project tick flight.carrier i flight.entries)
      (fun done world' memory' ↦ Inv clean ready world' memory'.payload ∧
        (done = true → memory'.payload.run = none)) world memory := by
  rw [settleCarried, keeps_runInHand, hrun.carried]
  split
  · next hacted =>
    have hsolved := hrun.run_ok.resolved_of_acted hacted
    -- a crash between the acting and the release may have lost the cards that were put back
    have hback : Settling clean ready flight world
        { memory with payload := memory.payload.putBackFor run flight.entries } i run ∧
        Actable flight (memory.payload.putBackFor run flight.entries) run := by
      rw [putBackFor]
      split
      · next hret =>
        exact ⟨hrun.with_putBack hret, hacted, .inr fun _ hent ↦ hrun.putBack_covers hent⟩
      · next hnot => exact ⟨hrun, hacted, .inl ((ended_or_returned hsolved).resolve_right hnot)⟩
    refine .bind (keeps_editPayload.mpr ?_ : Keeps clean _ (fun _ world' memory' ↦
      Settling clean ready flight world' memory' i run ∧ Actable flight memory'.payload run) _ _) ?_
    · exact hback
    rintro _ world' memory' ⟨hnow, hact⟩
    refine (releaseRun_keeps hnow hact).bind ?_
    rintro _ w'' mem'' ⟨hinv, hfree⟩
    exact .pure ⟨hinv, fun _ ↦ hfree⟩
  · refine .bind (endRun_moves project tick hrun) ?_
    rintro ended world' memory' ⟨_, hmov, hend⟩
    cases ended with
    | false => exact .pure ⟨hmov.now.inv, nofun⟩
    | true =>
      refine (actOnEnd_keeps tick hmov.now (hend rfl)).bind ?_
      rintro _ w'' mem'' ⟨_, hnow, hact⟩
      refine (releaseRun_keeps hnow hact).bind ?_
      rintro _ _ _ ⟨hinv, hfree⟩
      exact .pure ⟨hinv, fun _ ↦ hfree⟩

end

/-- A run of a card that was just read is in hand. -/
theorem Inv.hand (hinv : Inv clean ready world memory.payload) {ref id : String}
    (hfind : (world.cards ref).afterMergeRuns.findIdx? (·.dispatchId = id) = some i) :
    ∃ run, Hand clean ready world { memory with state := world.cards ref } ref i run ∧
      run.dispatchId = id := by
  obtain ⟨hi, hid, -⟩ := List.findIdx?_eq_some_iff_getElem.mp hfind
  have hindex : (world.board.runs ref)[i]? = some (world.cards ref).afterMergeRuns[i] :=
    List.getElem?_eq_getElem hi
  refine ⟨(world.cards ref).afterMergeRuns[i], ⟨hinv, hindex, RunStep.refl _, ?_, ?_, ?_⟩, by simpa using hid⟩
  · exact hinv.board.run_ok ref _ (List.mem_of_getElem? hindex)
  · exact (List.set_getElem_self hi).symm
  · exact hinv.board.mark_bind_reread ref

/-- A run that is saved as in flight, but whose intent was never written, gives its cards back. -/
theorem Inv.giveBack (hinv : Inv clean ready world memory.payload) (hslot : memory.payload.run = some flight)
    (hunk : ∀ run ∈ world.board.runs flight.carrier, run.dispatchId ≠ flight.dispatchId) :
    Keeps clean (savePayload fun payload ↦
        { payload with pending := flight.entries ++ payload.pending, run := none })
      (fun _ world' memory' ↦ Inv clean ready world' memory'.payload ∧ memory'.payload.run = none ∧
        memory'.payload.pending = flight.entries ++ memory.payload.pending) world memory := by
  have hflight := hinv.slot.flight flight hslot
  have hmem : ∀ e, e ∈ ({ memory.payload with
      pending := flight.entries ++ memory.payload.pending, run := none } : Payload).entries ↔
      e ∈ memory.payload.entries := by
    intro e
    rw [mem_entries, mem_entries, List.mem_append, hslot]
    simp only [Option.mem_def, Option.some_inj, reduceCtorEq, false_and, exists_false, or_false, exists_eq_left']
    exact or_comm
  have honce : ((flight.entries ++ memory.payload.pending).map ref).Nodup := by
    rw [List.map_append, List.nodup_append]
    refine ⟨hflight.once, hinv.memory.pending_once, fun ref href _ href' hsame ↦ ?_⟩
    subst hsame
    obtain ⟨e, hentry, rfl⟩ := List.mem_map.mp href'
    obtain ⟨run, hrun, -⟩ := hinv.memory.apart flight hslot e hentry href
    exact hunk run hrun.1 hrun.2
  have hidle : SlotOk world.board none := by
    refine ⟨nofun, fun ref run hrun hacted ↦ ?_⟩
    obtain ⟨found, hfnd, rfl, hid⟩ := hinv.slot.unacted ref run hrun hacted
    obtain rfl : flight = found := Option.some_inj.mp (hslot.symm.trans hfnd)
    exact absurd hid.symm (hunk run hrun)
  have hready : ready → ∀ e ∈ flight.entries ++ memory.payload.pending, e.marked = true := by
    intro hready e hentry
    obtain hentry | hentry := List.mem_append.mp hentry
    · exact hflight.marked e hentry
    · exact hinv.ready hready e hentry
  refine (savePayload_exchange hinv (.of_subset honce (fun e ↦ (hmem e).mp) (by rintro _ ⟨⟩) rfl
    fun _ e hentry ↦ .inl ⟨e, (hmem e).mpr hentry, rfl⟩) hidle hready).mono ?_
  rintro _ _ _ ⟨-, rfl, hnext⟩
  exact ⟨hnext, rfl, rfl⟩

/-- `_settle` from any point a crash can have left the run at. -/
theorem settleFlight_keeps (hinv : Inv clean ready world memory.payload) (hslot : memory.payload.run = some flight) :
    Keeps clean (settleFlight project tick flight)
      (fun done world' memory' ↦ Inv clean ready world' memory'.payload ∧
        (done = true → memory'.payload.run = none)) world memory := by
  refine (showCard_keeps tick hinv).bind ?_
  rintro _ world _ ⟨rfl, rfl, rfl⟩
  rw [keeps_editHand]
  split
  · next hnone =>
    have hunk : ∀ run ∈ world.board.runs flight.carrier, run.dispatchId ≠ flight.dispatchId :=
      fun run hrun ↦ by simpa using List.findIdx?_eq_none_iff.mp hnone run hrun
    refine .bind (Inv.giveBack hinv hslot hunk) ?_
    rintro _ _ _ ⟨hnext, hfree, -⟩
    exact .pure ⟨hnext, fun _ ↦ hfree⟩
  · next i hfind =>
    obtain ⟨run, hhand, hid⟩ := hinv.hand hfind
    exact settleCarried_keeps project tick ⟨hhand, hslot, hid⟩

end Slot

end Ummanu.E2e
