import Ummanu.E2e.QueueLaw
import Ummanu.Library.KeyedTable

/-!
# What the writes of the after-merge e2e guarantee

`Follows` is the guarantee of every durable write of a landing or a tick: the invariant holds of what a
crash would leave, and the write is one of three as far as runs and money go (`PaidStep`). Either it starts
nothing, pays nothing and dispatches nothing, or it is the one transaction that writes an intent with its
charge, or it is the dispatch call of a run that is on the board and paid.

`Keeps` is the judgment the programs are proved in: every write follows, an exception leaves the invariant,
and a result meets the postcondition. The small programs have their rules here; those of the run in hand
are about `Hand`, a record in memory that is the board's.
-/

set_option autoImplicit false

namespace Ummanu.E2e

open Library

variable {world : AmWorld} {clean ready : Prop} {memory : AmMemory} {f : AfterMergeMark → AfterMergeMark}
variable {step : String} {cards : String → E2eState} {ref : String} {request : Request}

/-! ### Paying and dispatching -/

/-- A write that starts no run, pays nothing and dispatches nothing. -/
structure Quiet (world next : AmWorld) : Prop where
  dispatches : next.dispatches = world.dispatches
  charges : next.charges = world.charges
  charged : ∀ ref, next.board.charged ref = world.board.charged ref
  ids : ∀ ref, (next.board.runs ref).map E2eRun.dispatchId = (world.board.runs ref).map E2eRun.dispatchId

/-- The transaction of a run that nobody has paid: its record on the carrier and its mark on every covered
card, with one charge of the sprint or one entry on every covered card's own list. -/
structure IntentWrite (world next : AmWorld) (carrier : String) (run : E2eRun) : Prop where
  fresh : ¬ world.board.Has run.dispatchId
  uncharged : ∀ charge ∈ world.charges, charge.dispatchId ≠ run.dispatchId
  unlisted : ∀ ref, run.dispatchId ∉ world.board.charged ref
  runs : next.board.runs = Function.update world.board.runs carrier (world.board.runs carrier ++ [run])
  covered : ∀ item ∈ run.covered, ∃ mark, next.board.mark item.ref = some mark ∧
    mark.mergeSha = item.mergeSha ∧ mark.state = .covered ∧ mark.dispatchId = run.dispatchId ∧
    mark.carrier = carrier
  paid : (∃ sprint, sprint ≠ "" ∧ next.charges = world.charges ++ [⟨sprint, run.dispatchId⟩] ∧
      ∀ ref, next.board.charged ref = world.board.charged ref) ∨
    (next.charges = world.charges ∧ ∀ ref, next.board.charged ref =
      if ref ∈ run.covered.map Covered.ref then world.board.charged ref ++ [run.dispatchId]
      else world.board.charged ref)
  dispatches : next.dispatches = world.dispatches

/-- A run is charged to the sprint, or to every card it covers. -/
def Paid (world : AmWorld) (sprint : String) (run : E2eRun) : Prop :=
  (sprint ≠ "" → ⟨sprint, run.dispatchId⟩ ∈ world.charges) ∧
    (sprint = "" → ∀ item ∈ run.covered, run.dispatchId ∈ world.board.charged item.ref)

/-- The dispatch call of a run that is on the board, was paid and was not dispatched before. -/
structure DispatchWrite (world next : AmWorld) (run : E2eRun) (sprint : String) : Prop where
  recorded : ∃ ref, run ∈ world.board.runs ref
  paid : Paid world sprint run
  unsent : ∀ sent ∈ world.dispatches, sent.dispatchId ≠ run.dispatchId
  next_eq : next = { world with
    dispatches := world.dispatches ++ [⟨run.dispatchId, run.sha, sprint⟩] }

/-- What a write does about runs and money. -/
inductive PaidStep (world next : AmWorld) : Prop
  | quiet (hquiet : Quiet world next)
  | intent {carrier : String} {run : E2eRun} (hintent : IntentWrite world next carrier run)
  | dispatch {run : E2eRun} {sprint : String} (hdispatch : DispatchWrite world next run sprint)

/-- What every durable write guarantees. -/
def Follows (clean : Prop) (world next : AmWorld) : Prop :=
  Inv clean False next next.saved ∧ PaidStep world next

/-- Only the cards are written. -/
def OnlyCards (world next : AmWorld) : Prop := next = { world with cards := next.cards }

theorem Quiet.of_log {next : AmWorld} (hcards : next.cards = world.cards)
    (hsent : next.dispatches = world.dispatches) (hchg : next.charges = world.charges) :
    Quiet world next := by
  have hboard : next.board = world.board := by rw [AmWorld.board, AmWorld.board, hcards]
  exact ⟨hsent, hchg, fun ref ↦ by rw [hboard], fun ref ↦ by rw [hboard]⟩

theorem Quiet.setMark {mark : AfterMergeMark}
    (hboard : ({ world with cards } : AmWorld).board = world.board.setMark ref (some mark))
    (hchg : mark.charged = world.board.charged ref) : Quiet world { world with cards } := by
  refine ⟨rfl, rfl, fun o ↦ ?_, fun o ↦ ?_⟩
  · rw [hboard, charged_setMark hchg]
  · rw [hboard, Board.setMark_runs]

theorem Quiet.setRun {i : ℕ} {old run : E2eRun}
    (hboard : ({ world with cards } : AmWorld).board = world.board.setRun ref i run)
    (hold : (world.board.runs ref)[i]? = some old) (hid : run.dispatchId = old.dispatchId) :
    Quiet world { world with cards } := by
  refine ⟨rfl, rfl, fun o ↦ by rw [hboard]; rfl, fun o ↦ ?_⟩
  rw [hboard]
  by_cases hoth : o = ref
  · subst hoth
    obtain ⟨_, rfl⟩ := List.getElem?_eq_some_iff.mp hold
    rw [Board.setRun_runs_self, List.map_set, hid, ← List.map_set, List.set_getElem_self]
  · rw [Board.setRun_runs_of_ne _ _ _ hoth]

/-! ### The judgment -/

/-- Every write follows, an exception leaves the invariant, and a result meets the postcondition. -/
def Keeps (clean : Prop) {α : Type} (program : AmProgram α) (post : α → AmWorld → AmMemory → Prop)
    (world : AmWorld) (memory : AmMemory) : Prop :=
  Meets (Follows clean) program
    (fun result world' memory' ↦ match result with
      | .ok a => post a world' memory'
      | .error _ => Inv clean False world' memory'.payload) world memory

section Rules

variable {α β : Type}

theorem Keeps.pure {a : α} {post : α → AmWorld → AmMemory → Prop} (hpost : post a world memory) :
    Keeps clean (pure a) post world memory := by
  rw [Keeps, meets_pure]
  exact hpost

theorem Keeps.throw {e : TaskError} {post : α → AmWorld → AmMemory → Prop}
    (hinv : Inv clean ready world memory.payload) : Keeps clean (throw e) post world memory := by
  rw [Keeps, meets_throw]
  exact hinv.weaken

variable {post : β → AmWorld → AmMemory → Prop} {f : β → AmProgram Unit} {program : AmProgram α}

theorem Keeps.mono {post post' : α → AmWorld → AmMemory → Prop} (hkeeps : Keeps clean program post world memory)
    (hpost : ∀ a world' memory', post a world' memory' → post' a world' memory') :
    Keeps clean program post' world memory := by
  refine Meets.mono hkeeps fun res world' memory' hres ↦ ?_
  cases res with
  | error e => exact hres
  | ok a => exact hpost a world' memory' hres

theorem Keeps.bind {next : α → AmProgram β} {post : α → AmWorld → AmMemory → Prop}
    {post' : β → AmWorld → AmMemory → Prop} (hfst : Keeps clean program post world memory)
    (hnext : ∀ a world' memory', post a world' memory' → Keeps clean (next a) post' world' memory') :
    Keeps clean (program >>= next) post' world memory := by
  rw [Keeps, meets_bind]
  refine Meets.mono hfst fun res world' memory' hres ↦ ?_
  cases res with
  | error e => exact hres
  | ok a => exact hnext a world' memory' hres

/-- A loop is judged by what holds before each of its rounds. -/
theorem Keeps.forM (before : List β → AmWorld → AmMemory → Prop) (items : List β) (hstart : before items world memory)
    (hround : ∀ item rest world memory, before (item :: rest) world memory →
      Keeps clean (f item) (fun _ ↦ before rest) world memory) :
    Keeps clean (items.forM f) (fun _ ↦ before []) world memory := by
  induction items generalizing world memory with
  | nil => exact .pure hstart
  | cons item rest ih =>
    exact (hround item rest world memory hstart).bind fun _ _ _ hbefore ↦ ih hbefore

/-- A loop whose rounds keep one invariant. -/
theorem Keeps.forM_mem (inv : AmWorld → AmMemory → Prop) {items : List β} (hstart : inv world memory)
    (hround : ∀ item ∈ items, ∀ world memory, inv world memory → Keeps clean (f item) (fun _ ↦ inv) world memory) :
    Keeps clean (items.forM f) (fun _ ↦ inv) world memory := by
  refine (Keeps.forM (fun rest world memory ↦ (∀ item ∈ rest, item ∈ items) ∧ inv world memory) items
    ⟨fun _ hitem ↦ hitem, hstart⟩ ?_).mono fun _ _ _ hend ↦ hend.2
  rintro item rest world memory ⟨hrest, hinv⟩
  refine (hround item (hrest item (by simp)) world memory hinv).mono fun _ _ _ hafter ↦ ?_
  exact ⟨fun o hoth ↦ hrest o (by simp [hoth]), hafter⟩

/-! Reading changes nothing. -/

theorem keeps_recallPayload {next : Payload → AmProgram β} :
    Keeps clean (recallPayload >>= next) post world memory ↔
      Keeps clean (next memory.payload) post world memory := by
  simp [Keeps, recallPayload]

theorem keeps_stored {next : AmWorld → AmProgram β} :
    Keeps clean (Durable.stored >>= next) post world memory ↔
      Keeps clean (next world) post world memory := by
  simp [Keeps]

theorem keeps_runInHand {i : ℕ} {next : E2eRun → AmProgram β} :
    Keeps clean (runInHand i >>= next) post world memory ↔
      Keeps clean (next (memory.state.carried i)) post world memory := by
  simp [Keeps, runInHand]

theorem keeps_editHand {f : E2eState → E2eState} {next : Unit → AmProgram β} :
    Keeps clean (editHand f >>= next) post world memory ↔
      Keeps clean (next ()) post world { memory with state := f memory.state } := by
  simp [Keeps, editHand]

theorem keeps_editPayload {f : Payload → Payload} {post : Unit → AmWorld → AmMemory → Prop} :
    Keeps clean (editPayload f) post world memory ↔
      post () world { memory with payload := f memory.payload } := by
  simp [Keeps, editPayload]

variable (tick : AmTick)

theorem showCard_keeps {read : AmRead} (hinv : Inv clean ready world memory.payload) :
    Keeps clean (showCard tick read ref)
      (fun state world' memory' ↦ state = world.cards ref ∧ world' = world ∧ memory' = memory)
      world memory := by
  rw [showCard]
  cases tick.unreadable read with
  | some _ => exact .throw hinv
  | none =>
    rw [keeps_stored]
    exact .pure ⟨rfl, rfl, rfl⟩

theorem openSprint_keeps {sprint : String} (hinv : Inv clean ready world memory.payload) :
    Keeps clean (openSprint tick sprint)
      (fun _ world' memory' ↦ world' = world ∧ memory' = memory) world memory := by
  rw [openSprint]
  split
  · exact .pure ⟨rfl, rfl⟩
  · cases tick.sprintOpen sprint with
    | error error => exact .throw hinv
    | ok _ => exact .pure ⟨rfl, rfl⟩

end Rules

section Writes

variable {ready' : Prop} (tick : AmTick)

/-- A write of the logs follows. -/
theorem follows_log {next : AmWorld} {payload : Payload} (hinv : Inv clean ready world payload)
    (hlog : LogOk next) (hcards : next.cards = world.cards) (hsaved : next.saved = world.saved)
    (hgreen : next.answeredGreen = world.answeredGreen)
    (hsent : next.dispatches = world.dispatches) (hchg : next.charges = world.charges) :
    Follows clean world next ∧ Inv clean ready next payload := by
  have hboard : next.board = world.board := by rw [AmWorld.board, AmWorld.board, hcards]
  have hnext := hinv.relog hlog hboard hsaved hgreen
  exact ⟨⟨hnext.reload, .quiet (.of_log hcards hsent hchg)⟩, hnext⟩

/-- What a request under a committed id may be, and what may be committed. -/
structure Issuable (world : AmWorld) (request : Request) : Prop where
  same : ∀ known ∈ world.committed, known.name = request.name → ¬ request.name.Rebuilt → known.Same request
  frozen : Frozen world.board (world.committed ++ [request]) request

/-- A request that is built anew may be refused. -/
theorem Issuable.rebuilt (hname : request.name.Rebuilt)
    (hice : Frozen world.board (world.committed ++ [request]) request) : Issuable world request :=
  ⟨fun _ _ _ hnot ↦ absurd hname hnot, hice⟩

/-- A request whose id is not committed. -/
theorem Issuable.of_fresh (hfresh : world.committed.find? (·.name = request.name) = none)
    (hice : Frozen world.board (world.committed ++ [request]) request) : Issuable world request := by
  refine ⟨fun k hknown hname _ ↦ ?_, hice⟩
  exact absurd hname (by simpa using List.find?_eq_none.mp hfresh k hknown)

variable (hinv : Inv clean ready world memory.payload)
include hinv

theorem savePayload_keeps {f : Payload → Payload} (hqueue : QueueOk world.board (f memory.payload))
    (hslot : SlotOk world.board (f memory.payload).run)
    (hready : ready' → ∀ entry ∈ (f memory.payload).pending, entry.marked = true)
    (hheld : clean → HeldOk world.board world.answeredGreen (f memory.payload)) :
    Keeps clean (savePayload f)
      (fun _ world' memory' ↦ world' = world.save (f memory.payload) ∧
        memory' = { memory with payload := f memory.payload } ∧
        Inv clean ready' world' memory'.payload) world memory := by
  have hnext := hinv.resave hqueue hslot hready hheld
  simp only [Keeps, savePayload, save, recallPayload, editPayload, meets_bind, meets_remember,
    meets_remembered, meets_pure, meets_commit]
  exact ⟨⟨hnext.reload, .quiet (.of_log rfl rfl rfl)⟩, trivial, trivial, hnext⟩

/-- Entries are moved about, and that is saved. -/
theorem savePayload_exchange {f : Payload → Payload}
    (hexch : Exchange clean world.board memory.payload (f memory.payload))
    (hslot : SlotOk world.board (f memory.payload).run)
    (hready : ready' → ∀ entry ∈ (f memory.payload).pending, entry.marked = true) :
    Keeps clean (savePayload f)
      (fun _ world' memory' ↦ world' = world.save (f memory.payload) ∧
        memory' = { memory with payload := f memory.payload } ∧
        Inv clean ready' world' memory'.payload) world memory :=
  savePayload_keeps hinv (hexch.queueOk hinv.memory) hslot hready fun hcln ↦ hexch.heldOk hcln (hinv.held hcln).2

theorem save_keeps :
    Keeps clean save
      (fun _ world' memory' ↦ world' = world.save memory.payload ∧ memory' = memory ∧
        Inv clean ready world' memory'.payload) world memory := by
  have hnext := hinv.resave hinv.memory hinv.slot hinv.ready fun hcln ↦ (hinv.held hcln).2
  simp only [Keeps, save, recallPayload, meets_bind, meets_remembered, meets_pure, meets_commit]
  exact ⟨⟨hnext.reload, .quiet (.of_log rfl rfl rfl)⟩, trivial, trivial, hnext⟩

theorem issue_meets (hreq : Issuable world request) :
    Meets (Follows clean) (issue tick request)
      (fun result world' memory' ↦ memory' = memory ∧ world'.cards = world.cards ∧
        Inv clean ready world' memory.payload ∧
        ∀ made, result = .ok made → made ∈ world'.committed ∧ made.name = request.name)
      world memory := by
  simp only [issue, meets_bind, meets_stored]
  cases hfind : world.committed.find? (·.name = request.name) with
  | some k =>
    have hknown : k ∈ world.committed := List.mem_of_find?_eq_some hfind
    have hname : k.name = request.name := by simpa using List.find?_some hfind
    dsimp only
    split
    · simp only [meets_pure]
      refine ⟨trivial, trivial, hinv, ?_⟩
      rintro made ⟨rfl⟩
      exact ⟨hknown, hname⟩
    · next hdiffers =>
      have hreb : request.name.Rebuilt := by
        by_contra hice
        exact hdiffers (hreq.same k hknown hname hice)
      have hlog : LogOk { world with conflicts := world.conflicts ++ [request] } := by
        refine { hinv.log with conflicts := fun o hother ↦ ?_ }
        obtain hother | hother := List.mem_append.mp hother
        · exact hinv.log.conflicts o hother
        · rw [List.mem_singleton.mp hother]
          exact ⟨hreb, k, hknown, hname, (hinv.log.frozen k hknown).rebuilt_agree hreq.frozen hname hreb⟩
      obtain ⟨hfol, hnext⟩ := follows_log hinv hlog rfl rfl rfl rfl rfl
      simp only [meets_bind, meets_commit, meets_throw]
      exact ⟨hfol, trivial, trivial, hnext, by simp⟩
  | none =>
    have hlog : LogOk { world with committed := world.committed ++ [request] } := by
      refine { hinv.log with names_once := ?_, frozen := fun o hother ↦ ?_, conflicts := ?_ }
      · refine nodup_map_concat hinv.log.names_once fun k hknown ↦ ?_
        simpa using List.find?_eq_none.mp hfind k hknown
      · obtain hother | hother := List.mem_append.mp hother
        · exact (hinv.log.frozen o hother).advance (Board.Advances.of_runs rfl)
            fun k hknown ↦ List.mem_append_left _ hknown
        · exact List.mem_singleton.mp hother ▸ hreq.frozen
      · intro o hother
        obtain ⟨hreb, k, hknown, hsame⟩ := hinv.log.conflicts o hother
        exact ⟨hreb, k, List.mem_append_left _ hknown, hsame⟩
    obtain ⟨hfol, hnext⟩ := follows_log hinv hlog rfl rfl rfl rfl rfl
    simp only [meets_bind, meets_attempt, meets_pure]
    refine ⟨fun _ ↦ ⟨hfol, trivial, trivial, hnext, ?_⟩, fun e _ ↦ ⟨trivial, trivial, hinv, ?_⟩⟩
    · rintro made ⟨rfl⟩
      exact ⟨by simp, rfl⟩
    · rintro _ ⟨⟩

theorem issue_keeps (hreq : Issuable world request) :
    Keeps clean (issue tick request)
      (fun made world' memory' ↦ memory' = memory ∧ world'.cards = world.cards ∧
        Inv clean ready world' memory'.payload ∧ made ∈ world'.committed ∧ made.name = request.name)
      world memory := by
  refine Meets.mono (issue_meets tick hinv hreq) ?_
  rintro res _ _ ⟨rfl, hcards, hnext, hmade⟩
  cases res with
  | error e => exact hnext.weaken
  | ok made => exact ⟨rfl, hcards, hnext, hmade made rfl⟩

theorem comment_keeps {name : RequestName} {card body : String}
    (hreq : Issuable world { name, kind := .commented, card, body }) :
    Keeps clean (comment tick name card body)
      (fun _ world' memory' ↦ memory' = memory ∧ world'.cards = world.cards ∧
        Inv clean ready world' memory'.payload) world memory :=
  (issue_keeps tick hinv hreq).bind fun _ _ _ ⟨hmem, hcards, hnext, _⟩ ↦
    .pure ⟨hmem, hcards, hnext⟩

end Writes

/-! ### Marks -/

/-- What an edit of a queued card's mark has to keep. -/
structure Remarks (board : Board) (slot : Option InFlight) (ref : String)
    (f : AfterMergeMark → AfterMergeMark) : Prop where
  edit : MarkEdit f
  ended : ∀ mark, board.mark ref = some mark → ∀ resolution,
    (f mark).state.ended = some resolution → EndedBy board ref (f mark) resolution
  flight : ∀ mark, board.mark ref = some mark → ∀ flight ∈ slot, ∀ run, Carries board flight run →
    ¬ Returned run → ref ∈ flight.entries.map Entry.ref →
      (f mark).dispatchId = flight.dispatchId ∧ (f mark).carrier = flight.carrier

section Marks

variable {entry : Entry}

/-- A write that shows an edited mark. -/
theorem quiet_remark {payload : Payload} (hinv : Inv clean ready world payload) (hentry : entry ∈ payload.entries)
    (hmarked : entry.marked = true) (hnote : Remarks world.board payload.run entry.ref f)
    (hboard : ({ world with cards } : AmWorld).board =
      world.board.setMark entry.ref ((world.board.mark entry.ref).map f)) :
    Quiet world { world with cards } ∧ Inv clean ready { world with cards } payload := by
  obtain ⟨mark, hmark, hsha⟩ := hinv.memory.marked entry hentry hmarked
  rw [hmark, Option.map_some] at hboard
  have hchg : (f mark).charged = world.board.charged entry.ref := by
    rw [hnote.edit.charged, Board.charged, hmark]
    rfl
  exact ⟨.setMark hboard hchg, hinv.setMark hboard hentry
    ((hnote.edit.mergeSha mark).trans hsha) hchg (hnote.ended mark hmark)
    (hnote.flight mark hmark)⟩

theorem remarkOther_keeps (tick : AmTick) (hinv : Inv clean ready world memory.payload)
    (hentry : entry ∈ memory.payload.entries) (hmarked : entry.marked = true)
    (hnote : Remarks world.board memory.payload.run entry.ref f) :
    Keeps clean (remarkOther tick step entry.ref f)
      (fun _ world' memory' ↦ memory' = memory ∧ Inv clean ready world' memory'.payload ∧
        world'.board = world.board.setMark entry.ref ((world.board.mark entry.ref).map f))
      world memory := by
  refine (showCard_keeps tick hinv).bind ?_
  rintro _ _ _ ⟨rfl, rfl, rfl⟩
  have hboard := hinv.board.board_remark hnote.edit entry.ref
  obtain ⟨hquiet, hnext⟩ := quiet_remark hinv hentry hmarked hnote hboard
  rw [Keeps, meets_attempt]
  exact ⟨fun _ ↦ ⟨⟨hnext.reload, .quiet hquiet⟩, rfl, hnext, hboard⟩, fun _ _ ↦ hinv.weaken⟩

/-- An edit that leaves the run a mark goes back to, whatever it shows. -/
theorem Inv.remarks {payload : Payload} (hinv : Inv clean ready world payload) (hedit : MarkEdit f)
    (hrun : ∀ mark, (f mark).dispatchId = mark.dispatchId ∧ (f mark).carrier = mark.carrier)
    (hended : ∀ mark, world.board.mark ref = some mark → ∀ resolution,
      (f mark).state.ended = some resolution → EndedBy world.board ref (f mark) resolution) :
    Remarks world.board payload.run ref f where
  edit := hedit
  ended := hended
  flight := by
    intro mark hmark flight hfly found hfnd hret href
    obtain ⟨covered, hcov, hsame⟩ := List.mem_map.mp href
    obtain ⟨_, hshown, -, hid, hcarry⟩ :=
      (hinv.slot.flight flight hfly).marks found hfnd hret covered hcov
    rw [hsame, hmark, Option.some_inj] at hshown
    rw [(hrun mark).1, (hrun mark).2, hshown]
    exact ⟨hid, hcarry⟩

/-- With the slot free, a mark may become anything but green or red. -/
theorem Remarks.of_idle {board : Board} (hedit : MarkEdit f) (hstate : ∀ mark, (f mark).state.ended = none) :
    Remarks board none ref f where
  edit := hedit
  ended := fun mark _ resolution hres ↦ by rw [hstate] at hres; cases hres
  flight := nofun

end Marks

/-! ### The run in hand -/

/-- The record in memory is the board's, but for one run that moved forward. -/
structure HandOk (world : AmWorld) (memory : AmMemory) (carrier : String) (i : ℕ) (old run : E2eRun) :
    Prop where
  at_index : (world.board.runs carrier)[i]? = some old
  step : RunStep old run
  ok : RunOk run
  runs : memory.state.afterMergeRuns = (world.board.runs carrier).set i run
  mark : memory.state.afterMerge.bind AfterMergeMark.reread = world.board.mark carrier

/-- The record in memory is the board's. -/
structure Hand (clean ready : Prop) (world : AmWorld) (memory : AmMemory) (carrier : String) (i : ℕ)
    (run : E2eRun) : Prop where
  inv : Inv clean ready world memory.payload
  ok : HandOk world memory carrier i run run

section Hands

variable {carrier : String} {i : ℕ} {old run : E2eRun}

theorem HandOk.carried (hhand : HandOk world memory carrier i old run) :
    memory.state.carried i = run := by
  have hi : i < (world.board.runs carrier).length := (List.getElem?_eq_some_iff.mp hhand.at_index).1
  rw [E2eState.carried, hhand.runs, List.getD_eq_getElem?_getD, List.getElem?_set_self hi]
  rfl

theorem Hand.mem (hhand : Hand clean ready world memory carrier i run) :
    run ∈ world.board.runs carrier :=
  List.mem_of_getElem? hhand.ok.at_index

theorem HandOk.board_write (hhand : HandOk world memory carrier i old run) (hboard : BoardOk world.board) :
    (world.writeCard carrier memory.state).board = world.board.setRun carrier i run := by
  have hruns : memory.state.afterMergeRuns.filterMap E2eRun.reread =
      (world.board.runs carrier).set i run := by
    rw [hhand.runs]
    refine filterMap_reread fun o hoth ↦ ?_
    obtain hoth | rfl := List.mem_or_eq_of_mem_set hoth
    · exact hboard.run_ok carrier o hoth
    · exact hhand.ok
  rw [board_writeCard, hhand.mark, hruns, Function.update_eq_self]
  rfl

/-- The run in hand moves forward in memory. -/
theorem HandOk.update (hhand : HandOk world memory carrier i old run) {f : E2eRun → E2eRun}
    (hstep : RunStep run (f run)) (hok : RunOk (f run)) :
    HandOk world { memory with state := memory.state.updateCarried i f } carrier i old (f run) := { hhand with
  step := hhand.step.trans hstep
  ok := hok
  runs := by
    have hi : i < (world.board.runs carrier).length := (List.getElem?_eq_some_iff.mp hhand.at_index).1
    rw [E2eState.updateCarried, hhand.runs, List.modify_eq_set_getElem?, List.getElem?_set_self hi]
    exact List.set_set .. }

/-- What is in hand once it is written. -/
theorem HandOk.written (hhand : HandOk world memory carrier i old run) {world' : AmWorld}
    (hboard : world'.board = world.board.setRun carrier i run) :
    HandOk world' memory carrier i run run where
  at_index := by
    have hi : i < (world.board.runs carrier).length := (List.getElem?_eq_some_iff.mp hhand.at_index).1
    rw [hboard, Board.setRun_runs_self, List.getElem?_set_self hi]
  step := RunStep.refl run
  ok := hhand.ok
  runs := by rw [hboard, Board.setRun_runs_self, List.set_set, hhand.runs]
  mark := by rw [hboard, hhand.mark]; rfl

variable (tick : AmTick) {call : AmCall}

section

variable (hinv : Inv clean ready world memory.payload) (hhand : HandOk world memory carrier i old run)
include hinv hhand

theorem persistHand_meets :
    Meets (Follows clean) (persistHand tick carrier call)
      (fun result world' memory' ↦ memory' = memory ∧ match result with
        | .ok _ => Hand clean ready world' memory carrier i run ∧ OnlyCards world world' ∧
            world'.board = world.board.setRun carrier i run
        | .error _ => world' = world) world memory := by
  have hboard := hhand.board_write hinv.board
  have hnext := hinv.setRun hboard hhand.at_index hhand.step hhand.ok
  simp only [persistHand, meets_bind, meets_remembered, meets_attempt]
  refine ⟨fun _ ↦ ⟨⟨hnext.reload, .quiet (.setRun hboard hhand.at_index hhand.step.dispatchId)⟩, trivial,
    ⟨hnext, hhand.written hboard⟩, rfl, hboard⟩, fun _ _ ↦ ⟨trivial, trivial⟩⟩

theorem persistHand_keeps :
    Keeps clean (persistHand tick carrier call)
      (fun _ world' memory' ↦ memory' = memory ∧ Hand clean ready world' memory' carrier i run)
      world memory := by
  refine Meets.mono (persistHand_meets tick hinv hhand) ?_
  rintro res _ _ ⟨rfl, hres⟩
  cases res with
  | error e => exact hres ▸ hinv.weaken
  | ok a => exact ⟨rfl, hres.1⟩

/-- Changing the run in hand and writing it; an exception leaves the change in memory. -/
theorem amendHand_meets {f : E2eRun → E2eRun} (hstep : RunStep run (f run)) (hok : RunOk (f run)) :
    Meets (Follows clean) (amendHand tick carrier i step f)
      (fun result world' memory' ↦ memory'.payload = memory.payload ∧ match result with
        | .ok _ => Hand clean ready world' memory' carrier i (f run) ∧ OnlyCards world world' ∧
            world'.board = world.board.setRun carrier i (f run)
        | .error _ => world' = world ∧ HandOk world memory' carrier i old (f run)) world memory := by
  have hafter := hhand.update hstep hok
  simp only [amendHand, runInHand, editHand, meets_bind, meets_remembered, meets_pure, meets_remember]
  refine Meets.mono (persistHand_meets tick hinv hafter) ?_
  rintro result _ _ ⟨rfl, hres⟩
  cases result with
  | error e => exact ⟨rfl, hres, hres ▸ hafter⟩
  | ok a => exact ⟨rfl, hres⟩

theorem amendHand_keeps {f : E2eRun → E2eRun} (hstep : RunStep run (f run)) (hok : RunOk (f run)) :
    Keeps clean (amendHand tick carrier i step f)
      (fun _ world' memory' ↦ memory'.payload = memory.payload ∧
        Hand clean ready world' memory' carrier i (f run) ∧ OnlyCards world world' ∧
        world'.board = world.board.setRun carrier i (f run)) world memory := by
  refine Meets.mono (amendHand_meets tick hinv hhand hstep hok) ?_
  rintro res _ _ ⟨hload, hres⟩
  cases res with
  | error e =>
    obtain ⟨rfl, -⟩ := hres
    exact hload ▸ hinv.weaken
  | ok a => exact ⟨hload, hres⟩

end

end Hands

theorem Quiet.trans {first second third : AmWorld} (hfst : Quiet first second)
    (hsnd : Quiet second third) : Quiet first third where
  dispatches := hsnd.dispatches.trans hfst.dispatches
  charges := hsnd.charges.trans hfst.charges
  charged := fun ref ↦ (hsnd.charged ref).trans (hfst.charged ref)
  ids := fun ref ↦ (hsnd.ids ref).trans (hfst.ids ref)

theorem Remarks.setRun {board : Board} {slot : Option InFlight} {ref carrier : String} {i : ℕ}
    {old run : E2eRun} (hnote : Remarks board slot ref f) (hold : (board.runs carrier)[i]? = some old)
    (hstep : RunStep old run) : Remarks (board.setRun carrier i run) slot ref f where
  edit := hnote.edit
  ended := fun mark hmark resolution hres ↦
    (hnote.ended mark hmark resolution hres).advance (Board.advances_setRun hold hstep)
  flight := by
    intro mark hmark flight hfly _ hfnd hret href
    obtain ⟨pre, hbefore, hmov⟩ := exists_before_setRun hold hstep hfnd.1
    exact hnote.flight mark hmark flight hfly pre
      ⟨hbefore, hmov.dispatchId.symm.trans hfnd.2⟩ (fun hback ↦ hret (hmov.returned hback)) href

section HandMarks

variable {carrier : String} {i : ℕ} {old run : E2eRun} {entry : Entry} (tick : AmTick)

section

variable (hinv : Inv clean ready world memory.payload) (hhand : HandOk world memory carrier i old run)
  (hentry : entry ∈ memory.payload.entries) (hmarked : entry.marked = true)
include hinv hhand hentry hmarked

/-- The carrier's mark is edited in the record in hand, which is then written. -/
theorem remarkCarrier_keeps (href : entry.ref = carrier)
    (hnote : Remarks world.board memory.payload.run entry.ref f) :
    Keeps clean (remark tick carrier step entry.ref f)
      (fun _ world' memory' ↦ memory'.payload = memory.payload ∧
        Inv clean ready world' memory'.payload ∧ HandOk world' memory' carrier i run run)
      world memory := by
  subst href
  -- the write is the run's, then the mark's
  have hmid := hhand.board_write hinv.board
  have hmoved := hinv.setRun hmid hhand.at_index hhand.step hhand.ok
  have hnote' : Remarks (world.writeCard entry.ref memory.state).board memory.payload.run entry.ref f := by
    rw [hmid]
    exact hnote.setRun hhand.at_index hhand.step
  have hboard : (world.writeCard entry.ref { memory.state with
        afterMerge := some (f (memory.state.afterMerge.getD { mergeSha := "" })) }).board =
      (world.writeCard entry.ref memory.state).board.setMark entry.ref
        (((world.writeCard entry.ref memory.state).board.mark entry.ref).map f) := by
    rw [board_writeCard, board_writeCard, hnote.edit.reread]
    simp [Board.setMark]
  obtain ⟨hremarked, hnext⟩ := quiet_remark hmoved hentry hmarked hnote' hboard
  have hquiet := (Quiet.setRun hmid hhand.at_index hhand.step.dispatchId).trans hremarked
  rw [remark, if_pos rfl]
  simp only [Keeps, editHand, persistHand, meets_bind, meets_remember, meets_remembered, meets_attempt]
  refine ⟨fun _ ↦ ⟨⟨hnext.reload, .quiet hquiet⟩, trivial, hnext, ?_⟩, fun _ _ ↦ hinv.weaken⟩
  have hwrote := hhand.written hmid
  refine ⟨?_, RunStep.refl run, hhand.ok, ?_, ?_⟩
  · rw [hboard]
    exact hwrote.at_index
  · rw [hboard]
    exact hwrote.runs
  · rw [hboard, Board.setMark_mark_self, hnote.edit.reread, hwrote.mark]

/-- `_remark` while a run is in hand. -/
theorem remark_keeps (hnote : Remarks world.board memory.payload.run entry.ref f) :
    Keeps clean (remark tick carrier step entry.ref f)
      (fun _ world' memory' ↦ memory'.payload = memory.payload ∧ Inv clean ready world' memory'.payload ∧
        ∃ old', (old' = old ∨ old' = run) ∧ HandOk world' memory' carrier i old' run)
      world memory := by
  by_cases href : entry.ref = carrier
  · refine (remarkCarrier_keeps tick hinv hhand hentry hmarked href hnote).mono ?_
    rintro _ world' memory' ⟨hload, hnext, hhand'⟩
    exact ⟨hload, hnext, run, .inr rfl, hhand'⟩
  · rw [remark, if_neg href]
    refine (remarkOther_keeps tick hinv hentry hmarked hnote).mono ?_
    rintro _ world' memory' ⟨rfl, hnext, hboard⟩
    refine ⟨rfl, hnext, old, .inl rfl, ?_, hhand.step, hhand.ok, ?_, ?_⟩
    · rw [hboard]
      exact hhand.at_index
    · rw [hboard]
      exact hhand.runs
    · rw [hboard, Board.setMark_mark_of_ne _ _ (Ne.symm href)]
      exact hhand.mark

end

end HandMarks

end Ummanu.E2e
