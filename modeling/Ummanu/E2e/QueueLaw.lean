import Ummanu.E2e.Board

/-!
# The invariant of the after-merge queue

A merge moves between a watch, the pending set, the run in flight, the marks of several cards and a run
record on one of them, and no transaction spans these. `Inv` is what holds of them between any two writes,
of the saved production state and of the one in memory alike, so that it holds after any crash.

The queue's part is that one entry stands for a card, that the run in flight is the only one not acted on,
and that its cards carry its marks until it comes to nothing (`QueueOk`, `SlotOk`). The requests' part is
that what is committed for a run is what the run's record still says (`Frozen`).

`HeldOk` is the part that only some histories keep: no green merge is lost. It is carried under a
proposition `clean`, so that one pass over the programs serves both kinds of result.
-/

set_option autoImplicit false

namespace Ummanu.E2e

open Library E2eRun Payload

variable {board board' : Board} {clean : Prop}
variable {payload : Payload} {greens : List Covered} {cards : String → E2eState} {entry : Entry}

/-! ### The queue beside the board -/

/-- The entries that are pending or in flight. -/
def Payload.entries (payload : Payload) : List Entry := payload.pending ++ payload.inFlight

theorem Payload.mem_inFlight :
    entry ∈ payload.inFlight ↔ ∃ flight ∈ payload.run, entry ∈ flight.entries := by
  cases hrun : payload.run <;> simp [inFlight, hrun]

theorem Payload.mem_entries :
    entry ∈ payload.entries ↔ entry ∈ payload.pending ∨ ∃ flight ∈ payload.run, entry ∈ flight.entries := by
  rw [entries, List.mem_append, Payload.mem_inFlight]

/-- The mark of a card that is covered by a run. -/
def CoveredMark (board : Board) (flight : InFlight) (entry : Entry) (mark : AfterMergeMark) : Prop :=
  board.mark entry.ref = some mark ∧ mark.mergeSha = entry.mergeSha ∧
    mark.dispatchId = flight.dispatchId ∧ mark.carrier = flight.carrier

/-- A run record of the run in flight. -/
def Carries (board : Board) (flight : InFlight) (run : E2eRun) : Prop :=
  run ∈ board.runs flight.carrier ∧ run.dispatchId = flight.dispatchId

/-- What holds of the run in flight: its record covers its entries, whose cards carry its marks until it
comes to nothing. -/
structure FlightOk (board : Board) (flight : InFlight) : Prop where
  once : (flight.entries.map Entry.ref).Nodup
  marked : ∀ entry ∈ flight.entries, entry.marked = true
  covered : ∀ run, Carries board flight run → run.covered = flight.entries.map Entry.pair
  marks : ∀ run, Carries board flight run → ¬ Returned run →
    ∀ entry ∈ flight.entries, ∃ mark, CoveredMark board flight entry mark

/-- The slot: a run that was not acted on is in it. -/
structure SlotOk (board : Board) (slot : Option InFlight) : Prop where
  flight : ∀ flight ∈ slot, FlightOk board flight
  unacted : ∀ ref, ∀ run ∈ board.runs ref, run.acted = false →
    ∃ flight ∈ slot, flight.carrier = ref ∧ flight.dispatchId = run.dispatchId

/-- What holds of a production state beside the board. -/
structure QueueOk (board : Board) (payload : Payload) : Prop where
  pending_once : (payload.pending.map Entry.ref).Nodup
  one_sha : ∀ entry ∈ payload.entries, ∀ other ∈ payload.entries,
    entry.ref = other.ref → entry.mergeSha = other.mergeSha
  named : ∀ entry ∈ payload.entries, entry.ref ≠ "" ∧ entry.mergeSha ≠ ""
  marked : ∀ entry ∈ payload.entries, entry.marked = true →
    ∃ mark, board.mark entry.ref = some mark ∧ mark.mergeSha = entry.mergeSha
  apart : ∀ flight ∈ payload.run, ∀ entry ∈ payload.pending, entry.ref ∈ flight.entries.map Entry.ref →
    ∃ run, Carries board flight run ∧ Returned run
  watch_once : (payload.watches.map Watch.ref).Nodup
  watch_named : ∀ watch ∈ payload.watches, watch.ref ≠ "" ∧ (watch.green = true → watch.sha ≠ "")

/-- A merge is kept by an entry, by a run that was resolved green or red, or by a mark declining it. -/
def Accounted (board : Board) (payload : Payload) (pair : Covered) : Prop :=
  (∃ entry ∈ payload.entries, entry.pair = pair) ∨ (∃ ref, ∃ run ∈ board.runs ref, Ended run ∧ pair ∈ run.covered) ∨
    ∃ mark, board.mark pair.ref = some mark ∧ mark.state = .declined ∧ mark.mergeSha = pair.mergeSha

/-- A merge is kept, or its watch is. -/
def Held (board : Board) (payload : Payload) (pair : Covered) : Prop :=
  pair ∈ payload.greens ∨ Accounted board payload pair

/-- No green merge is lost; a declined mark declines the merge its card is queued for. -/
structure HeldOk (board : Board) (greens : List Covered) (payload : Payload) : Prop where
  held : ∀ pair ∈ greens, Held board payload pair
  marks : ∀ ref mark, board.mark ref = some mark → Accounted board payload ⟨ref, mark.mergeSha⟩
  declined : ∀ entry ∈ payload.entries, ∀ mark, board.mark entry.ref = some mark →
    mark.state = .declined → mark.mergeSha = entry.mergeSha

/-! ### Changes of the board -/

/-- The records move forward, and a mark that changes names the merge for which its card is queued. -/
structure Reworked (payload : Payload) (board board' : Board) : Prop where
  advances : board.Advances board'
  marks : ∀ ref, board'.mark ref = board.mark ref ∨
    ∃ entry ∈ payload.entries, entry.ref = ref ∧ ∃ mark, board'.mark ref = some mark ∧ mark.mergeSha = entry.mergeSha

section Reworked

variable (hrework : Reworked payload board board')
include hrework

theorem Reworked.queueOk (hqueue : QueueOk board payload) : QueueOk board' payload :=
  { hqueue with
    marked := by
      intro entry hent hmarked
      obtain hsame | ⟨own, hown, href, mark, hmark, hsha⟩ := hrework.marks entry.ref
      · rw [hsame]
        exact hqueue.marked entry hent hmarked
      · exact ⟨mark, hmark, hsha.trans (hqueue.one_sha own hown entry hent href)⟩
    apart := by
      intro flight hfly entry hent href
      obtain ⟨back, hback, hret⟩ := hqueue.apart flight hfly entry hent href
      obtain ⟨back', hback', hstep⟩ := hrework.advances flight.carrier back hback.1
      exact ⟨back', ⟨hback', hstep.dispatchId.trans hback.2⟩, hstep.returned hret⟩ }

variable (hheld : HeldOk board greens payload)
include hheld

/-- What the mark of a queued card stood for, its entry stands for. -/
theorem Reworked.accounted {pair : Covered} (hacct : Accounted board payload pair) :
    Accounted board' payload pair := by
  obtain hque | ⟨card, ended, hended, hend, hpair⟩ | ⟨f, hfnd, hdecl, hsha⟩ := hacct
  · exact .inl hque
  · obtain ⟨ended', hended', hstep⟩ := hrework.advances card ended hended
    exact .inr (.inl ⟨card, ended', hended', hstep.ended hend, hstep.covered ▸ hpair⟩)
  · obtain hsame | ⟨own, hown, href, -⟩ := hrework.marks pair.ref
    · exact .inr (.inr ⟨f, hsame.trans hfnd, hdecl, hsha⟩)
    · refine .inl ⟨own, hown, ?_⟩
      rw [Entry.pair, href, ← hheld.declined own hown f (href ▸ hfnd) hdecl, hsha]

theorem Reworked.heldOk (hqueue : QueueOk board payload) : HeldOk board' greens payload where
  held := fun pair hpair ↦ (hheld.held pair hpair).imp id (hrework.accounted hheld)
  marks := by
    intro ref f hfnd
    obtain hsame | ⟨own, hown, rfl, mark, hmark, hsha⟩ := hrework.marks ref
    · exact hrework.accounted hheld (hheld.marks ref f (hsame ▸ hfnd))
    · cases hmark.symm.trans hfnd
      exact .inl ⟨own, hown, by rw [Entry.pair, hsha]⟩
  declined := by
    intro entry hent f hfnd hdecl
    obtain hsame | ⟨own, hown, href, mark, hmark, hsha⟩ := hrework.marks entry.ref
    · exact hheld.declined entry hent f (hsame ▸ hfnd) hdecl
    · cases hmark.symm.trans hfnd
      exact hsha.trans (hqueue.one_sha own hown entry hent href)

end Reworked

section SetMark

variable {ref : String} {mark : AfterMergeMark}

theorem Reworked.setMark (hent : entry ∈ payload.entries) (href : entry.ref = ref)
    (hsha : mark.mergeSha = entry.mergeSha) : Reworked payload board (board.setMark ref (some mark)) where
  advances := .of_runs rfl
  marks other := by
    by_cases hoth : other = ref
    · subst hoth
      exact .inr ⟨entry, hent, href, mark, Board.setMark_mark_self .., hsha⟩
    · exact .inl (board.setMark_mark_of_ne _ hoth)

theorem SlotOk.setMark {slot : Option InFlight} (hslot : SlotOk board slot)
    (hfly : ∀ flight ∈ slot, ∀ run, Carries board flight run → ¬ Returned run →
      ∀ entry ∈ flight.entries, entry.ref = ref → mark.mergeSha = entry.mergeSha ∧
        mark.dispatchId = flight.dispatchId ∧ mark.carrier = flight.carrier) :
    SlotOk (board.setMark ref (some mark)) slot where
  flight := by
    intro flight hin
    have hok := hslot.flight flight hin
    refine ⟨hok.once, hok.marked, hok.covered, fun run hrun hret entry hent ↦ ?_⟩
    by_cases href : entry.ref = ref
    · obtain ⟨hsha, hid, hcarry⟩ := hfly flight hin run hrun hret entry hent href
      exact ⟨mark, by rw [href, Board.setMark_mark_self], hsha, hid, hcarry⟩
    · obtain ⟨f, hfnd, hrest⟩ := hok.marks run hrun hret entry hent
      exact ⟨f, by rw [board.setMark_mark_of_ne _ href, hfnd], hrest⟩
  unacted := hslot.unacted

end SetMark

section SetRun

variable {ref : String} {i : ℕ} {old run : E2eRun}

/-- A run of the board after one record moved goes back to one before. -/
theorem exists_before_setRun {other : String} {found : E2eRun}
    (hold : (board.runs ref)[i]? = some old) (hstep : RunStep old run)
    (hfnd : found ∈ (board.setRun ref i run).runs other) :
    ∃ before ∈ board.runs other, RunStep before found := by
  obtain hfnd | ⟨rfl, rfl⟩ := Board.mem_setRun hfnd
  · exact ⟨found, hfnd, RunStep.refl found⟩
  · exact ⟨old, List.mem_of_getElem? hold, hstep⟩

theorem SlotOk.setRun {slot : Option InFlight} (hslot : SlotOk board slot)
    (hold : (board.runs ref)[i]? = some old) (hstep : RunStep old run) :
    SlotOk (board.setRun ref i run) slot where
  flight := by
    intro flight hfly
    have hok := hslot.flight flight hfly
    refine ⟨hok.once, hok.marked, fun f hfnd ↦ ?_, fun f hfnd hret ↦ ?_⟩
    · obtain ⟨before, hbefore, hmov⟩ := exists_before_setRun hold hstep hfnd.1
      rw [hmov.covered]
      exact hok.covered before ⟨hbefore, hmov.dispatchId.symm.trans hfnd.2⟩
    · obtain ⟨before, hbefore, hmov⟩ := exists_before_setRun hold hstep hfnd.1
      exact hok.marks before ⟨hbefore, hmov.dispatchId.symm.trans hfnd.2⟩ fun hno ↦ hret (hmov.returned hno)
  unacted := by
    intro o f hfnd hacted
    obtain ⟨before, hbefore, hmov⟩ := exists_before_setRun hold hstep hfnd
    have hwas : before.acted = false := by
      cases hbit : before.acted with
      | false => rfl
      | true => exact absurd (hmov.acted hbit) (by rw [hacted]; decide)
    obtain ⟨flight, hfly, hcarry, hid⟩ := hslot.unacted o before hbefore hwas
    exact ⟨flight, hfly, hcarry, hid.trans hmov.dispatchId.symm⟩

end SetRun

section Edits

variable {payload payload' : Payload}

/-- The queue's part of a production state is its watches, its pending set and its run in flight. -/
theorem QueueOk.congr (hqueue : QueueOk board payload) (hwatch : payload'.watches = payload.watches)
    (hpend : payload'.pending = payload.pending) (hrun : payload'.run = payload.run) :
    QueueOk board payload' := by
  have hlist : payload'.entries = payload.entries := by
    rw [entries, entries, inFlight, inFlight, hpend, hrun]
  exact ⟨hpend ▸ hqueue.pending_once, hlist ▸ hqueue.one_sha, hlist ▸ hqueue.named,
    hlist ▸ hqueue.marked, hpend ▸ hrun ▸ hqueue.apart, hwatch ▸ hqueue.watch_once,
    hwatch ▸ hqueue.watch_named⟩

/-- Entries are moved about: none is new, and those that leave are accounted for. -/
structure Exchange (clean : Prop) (board : Board) (payload payload' : Payload) : Prop where
  once : (payload'.pending.map Entry.ref).Nodup
  known : ∀ entry ∈ payload'.entries, ∃ known ∈ payload.entries, known.pair = entry.pair ∧
    (entry.marked = true → known.marked = true ∨
      ∃ mark, board.mark entry.ref = some mark ∧ mark.mergeSha = entry.mergeSha)
  apart : ∀ flight ∈ payload'.run, ∀ entry ∈ payload'.pending,
    entry.ref ∈ flight.entries.map Entry.ref → ∃ run, Carries board flight run ∧ Returned run
  watches : payload'.watches = payload.watches
  left : clean → ∀ entry ∈ payload.entries, Accounted board payload' entry.pair

theorem Exchange.queueOk (hexch : Exchange clean board payload payload') (hqueue : QueueOk board payload) :
    QueueOk board payload' where
  pending_once := hexch.once
  one_sha := by
    intro entry hent o hoth href
    obtain ⟨k, hknown, hpair, -⟩ := hexch.known entry hent
    obtain ⟨known', hknown', hpair', -⟩ := hexch.known o hoth
    simp only [Entry.pair, Covered.mk.injEq] at hpair hpair'
    rw [← hpair.2, ← hpair'.2]
    exact hqueue.one_sha k hknown known' hknown' (hpair.1.trans (href.trans hpair'.1.symm))
  named := by
    intro entry hent
    obtain ⟨k, hknown, hpair, -⟩ := hexch.known entry hent
    simp only [Entry.pair, Covered.mk.injEq] at hpair
    exact hpair.1 ▸ hpair.2 ▸ hqueue.named k hknown
  marked := by
    intro entry hent hmark
    obtain ⟨k, hknown, hpair, hmarked'⟩ := hexch.known entry hent
    simp only [Entry.pair, Covered.mk.injEq] at hpair
    obtain hwas | hnow := hmarked' hmark
    · exact hpair.1 ▸ hpair.2 ▸ hqueue.marked k hknown hwas
    · exact hnow
  apart := hexch.apart
  watch_once := hexch.watches ▸ hqueue.watch_once
  watch_named := hexch.watches ▸ hqueue.watch_named

/-- Entries are exchanged for accounted ones. -/
theorem HeldOk.exchange (hheld : HeldOk board greens payload)
    (hwatches : ∀ pair ∈ payload.greens, Held board payload' pair)
    (hsub : ∀ entry ∈ payload.entries, Accounted board payload' entry.pair)
    (hsub' : ∀ entry ∈ payload'.entries, ∃ known ∈ payload.entries, known.pair = entry.pair) :
    HeldOk board greens payload' := by
  have hacct : ∀ pair, Accounted board payload pair → Accounted board payload' pair := by
    rintro pair (⟨entry, hent, rfl⟩ | hended | hdecl)
    · exact hsub entry hent
    · exact .inr (.inl hended)
    · exact .inr (.inr hdecl)
  refine ⟨fun pair hpair ↦ ?_, fun ref mark hmark ↦ hacct _ (hheld.marks ref mark hmark),
    fun entry hent mark hmark hdecl ↦ ?_⟩
  · obtain hwatch | hpair := hheld.held pair hpair
    · exact hwatches pair hwatch
    · exact .inr (hacct pair hpair)
  · obtain ⟨known, hknown, hpair⟩ := hsub' entry hent
    simp only [Entry.pair, Covered.mk.injEq] at hpair
    rw [hheld.declined known hknown mark (hpair.1 ▸ hmark) hdecl, hpair.2]

theorem Exchange.heldOk (hexch : Exchange clean board payload payload') (hcln : clean)
    (hheld : HeldOk board greens payload) : HeldOk board greens payload' := by
  refine hheld.exchange (fun _ hpair ↦ .inl ?_) (hexch.left hcln) fun entry hent ↦ ?_
  · rwa [Payload.greens, hexch.watches]
  · obtain ⟨k, hknown, hpair, -⟩ := hexch.known entry hent
    exact ⟨k, hknown, hpair⟩

/-- The entries of the one queue are entries of the other. -/
theorem Exchange.of_subset (honce : (payload'.pending.map Entry.ref).Nodup)
    (hsub : ∀ entry ∈ payload'.entries, entry ∈ payload.entries)
    (hapart : ∀ flight ∈ payload'.run, ∀ entry ∈ payload'.pending, entry.ref ∈ flight.entries.map Entry.ref →
      ∃ run, Carries board flight run ∧ Returned run)
    (hwatch : payload'.watches = payload.watches)
    (hleft : clean → ∀ entry ∈ payload.entries, Accounted board payload' entry.pair) :
    Exchange clean board payload payload' :=
  ⟨honce, fun entry hent ↦ ⟨entry, hsub entry hent, rfl, .inl⟩, hapart, hwatch, hleft⟩

theorem HeldOk.congr (hheld : HeldOk board greens payload) (hwatch : payload'.watches = payload.watches)
    (hpend : payload'.pending = payload.pending) (hrun : payload'.run = payload.run) :
    HeldOk board greens payload' := by
  have hlist : payload'.entries = payload.entries := by
    rw [entries, entries, inFlight, inFlight, hpend, hrun]
  refine hheld.exchange (fun _ _ ↦ .inl ?_) (fun entry hent ↦ .inl ⟨entry, ?_, rfl⟩) fun entry hent ↦ ⟨entry, ?_, rfl⟩
  · rwa [Payload.greens, hwatch]
  · rwa [hlist]
  · rwa [← hlist]

end Edits

/-! ### Requests -/

def E2eRun.greenRequest (run : E2eRun) (item : Covered) : Request where
  name := .green item.ref run.dispatchId
  kind := .commented
  card := item.ref
  body := run.greenBody item

def E2eRun.redRequest (run : E2eRun) (item : Covered) : Request where
  name := .red item.ref run.dispatchId
  kind := .commented
  card := item.ref
  body := run.redBody item

def E2eRun.requeuedRequest (run : E2eRun) (item : Covered) : Request where
  name := .requeued item.ref run.dispatchId
  kind := .commented
  card := item.ref
  body := run.requeueBody

def E2eRun.blockedRequest (run : E2eRun) (hotfix : String) : Request where
  name := .hotfixBlocked run.dispatchId
  kind := .moved
  card := hotfix
  body := run.unownedText hotfix

/-- The requests that are built anew at every attempt: the comment on a declined card, the comment of a
card that joins a decision, and the create of a wait card. -/
def RequestName.Rebuilt : RequestName → Prop
  | .declined _ _ => True
  | .join _ _ => True
  | .wait _ => True
  | _ => False

section Texts

variable {before after : E2eRun} (hstep : RunStep before after)
include hstep

theorem RunStep.coveredLines_eq : after.coveredLines = before.coveredLines := by
  rw [coveredLines, coveredLines, hstep.covered]

theorem RunStep.coveredRefs_eq : after.coveredRefs = before.coveredRefs := by
  rw [coveredRefs, coveredRefs, hstep.covered]

theorem RunStep.greenRequest_eq (hend : before.resolution = some .green) (item : Covered) :
    after.greenRequest item = before.greenRequest item := by
  have hsome : before.resolution.isSome = true := by rw [hend]; rfl
  obtain ⟨-, hurl, hwait, -⟩ := hstep.resolved hsome
  have hbody : after.greenBody item = before.greenBody item := by
    unfold greenBody
    rw [hstep.coveredRefs_eq, hstep.coveredLines_eq, hstep.sha, hstep.gitRef, hstep.workflow, hurl, hwait]
  simp only [greenRequest, hbody, hstep.dispatchId]

theorem RunStep.redRequest_eq (hend : before.resolution = some .red) (hhot : before.hotfix ≠ "")
    (item : Covered) : after.redRequest item = before.redRequest item := by
  have hsome : before.resolution.isSome = true := by rw [hend]; rfl
  obtain ⟨-, hurl, -, hres, -⟩ := hstep.resolved hsome
  have hbody : after.redBody item = before.redBody item := by
    unfold redBody conclusion
    rw [hstep.coveredLines_eq, hstep.sha, hstep.workflow, hstep.hotfix hhot, hurl, hres]
  simp only [redRequest, hbody, hstep.dispatchId]

theorem RunStep.requeuedRequest_eq (hend : Returned before) (item : Covered) :
    after.requeuedRequest item = before.requeuedRequest item := by
  have hsome : before.resolution.isSome = true := by
    obtain hend | hend := hend <;> rw [hend] <;> rfl
  obtain ⟨hres, hurl, hwait, hout, hclos, hreason⟩ := hstep.resolved hsome
  have hwhy : after.requeueReason = before.requeueReason := by
    unfold requeueReason outcome conclusion
    rw [hstep.dispatchId, hstep.sha, hurl, hwait, hout, hclos, hreason]
  have hbody : after.requeueBody = before.requeueBody := by
    unfold requeueBody
    rw [hwhy, hstep.coveredLines_eq, hres]
  simp only [requeuedRequest, hbody, hstep.dispatchId]

theorem RunStep.blockedRequest_eq (hend : before.resolution = some .red) (hotfix : String) :
    after.blockedRequest hotfix = before.blockedRequest hotfix := by
  have hsome : before.resolution.isSome = true := by rw [hend]; rfl
  obtain ⟨-, hurl, -, hres, -⟩ := hstep.resolved hsome
  have hbody : after.unownedText hotfix = before.unownedText hotfix := by
    unfold unownedText conclusion
    rw [hstep.coveredRefs_eq, hstep.sha, hurl, hres]
  simp only [blockedRequest, hbody, hstep.dispatchId]

end Texts

/-- What is committed for a run is what the run's record says. A request that is built anew has the kind
and the card its name gives, and a decision may be anything, since it is looked up before it is cut. -/
def Frozen (board : Board) (committed : List Request) (request : Request) : Prop :=
  match request.name with
  | .recovered id => ∃ ref, ∃ run ∈ board.runs ref, run.dispatchId = id ∧ run.runId ≠ 0
  | .green _ _ => ∃ ref, ∃ run ∈ board.runs ref, run.resolution = some .green ∧
      ∃ item ∈ run.covered, request = run.greenRequest item
  | .red _ _ => ∃ ref, ∃ run ∈ board.runs ref, (run.resolution = some .red ∧ run.hotfix ≠ "") ∧
      ∃ item ∈ run.covered, request = run.redRequest item
  | .requeued _ _ => ∃ ref, ∃ run ∈ board.runs ref, Returned run ∧
      ∃ item ∈ run.covered, request = run.requeuedRequest item
  | .hotfix _ => request.made ≠ ""
  | .hotfixBlocked _ => ∃ ref, ∃ run ∈ board.runs ref, run.resolution = some .red ∧
      ∃ create ∈ committed, create.name = .hotfix run.dispatchId ∧ request = run.blockedRequest create.made
  | .declined ref _ => request.kind = .commented ∧ request.card = ref
  | .join decision _ => request.kind = .commented ∧ request.card = decision
  | .wait _ => request.kind = .created ∧ request.card = ""
  | .sprintDecision _ _ => True
  | .batchDecision _ _ => True

theorem Frozen.advance {committed committed' : List Request} {request : Request}
    (hice : Frozen board committed request) (hadv : board.Advances board')
    (hcom : ∀ known ∈ committed, known ∈ committed') : Frozen board' committed' request := by
  unfold Frozen at hice ⊢
  split at hice
  · obtain ⟨ref, run, hrun, hid, hfnd⟩ := hice
    obtain ⟨run', hrun', hstep⟩ := hadv ref run hrun
    exact ⟨ref, run', hrun', hstep.dispatchId.trans hid, hstep.runId hfnd⟩
  · obtain ⟨ref, run, hrun, hend, item, hitem, hreq⟩ := hice
    obtain ⟨run', hrun', hstep⟩ := hadv ref run hrun
    exact ⟨ref, run', hrun', hstep.resolution_eq hend, item, hstep.covered ▸ hitem,
      hreq.trans (hstep.greenRequest_eq hend item).symm⟩
  · obtain ⟨ref, run, hrun, ⟨hend, hhot⟩, item, hitem, hreq⟩ := hice
    obtain ⟨run', hrun', hstep⟩ := hadv ref run hrun
    exact ⟨ref, run', hrun', ⟨hstep.resolution_eq hend, hstep.hotfix hhot ▸ hhot⟩, item,
      hstep.covered ▸ hitem, hreq.trans (hstep.redRequest_eq hend hhot item).symm⟩
  · obtain ⟨ref, run, hrun, hend, item, hitem, hreq⟩ := hice
    obtain ⟨run', hrun', hstep⟩ := hadv ref run hrun
    exact ⟨ref, run', hrun', hstep.returned hend, item, hstep.covered ▸ hitem,
      hreq.trans (hstep.requeuedRequest_eq hend item).symm⟩
  · exact hice
  · obtain ⟨ref, run, hrun, hend, create, hmake, hname, hreq⟩ := hice
    obtain ⟨run', hrun', hstep⟩ := hadv ref run hrun
    exact ⟨ref, run', hrun', hstep.resolution_eq hend, create, hcom create hmake,
      hstep.dispatchId ▸ hname, hreq.trans (hstep.blockedRequest_eq hend create.made).symm⟩
  all_goals exact hice

/-- Two requests that are built anew under one name have one kind and one card. -/
theorem Frozen.rebuilt_agree {committed committed' : List Request} {known request : Request}
    (hknown : Frozen board committed known) (hreq : Frozen board' committed' request)
    (hname : known.name = request.name) (hmade : request.name.Rebuilt) :
    known.kind = request.kind ∧ known.card = request.card := by
  rw [Frozen, hname] at hknown
  rw [Frozen] at hreq
  revert hknown hreq hmade
  cases request.name with
  | declined ref _ =>
    exact fun hknown hreq _ ↦ ⟨hknown.1.trans hreq.1.symm, hknown.2.trans hreq.2.symm⟩
  | join _ ref =>
    exact fun hknown hreq _ ↦ ⟨hknown.1.trans hreq.1.symm, hknown.2.trans hreq.2.symm⟩
  | wait _ =>
    exact fun hknown hreq _ ↦ ⟨hknown.1.trans hreq.1.symm, hknown.2.trans hreq.2.symm⟩
  | _ => exact fun _ _ hmade ↦ hmade.elim

/-- What holds of the logs beside the board. -/
structure LogOk (world : AmWorld) : Prop where
  charges_known : ∀ charge ∈ world.charges, world.board.Has charge.dispatchId
  compared : ∀ ref, ∀ run ∈ world.board.runs ref, ∀ item ∈ run.covered,
    ⟨run.dispatchId, item.mergeSha, run.sha⟩ ∈ world.compared
  sent_known : ∀ sent ∈ world.dispatches, world.board.Has sent.dispatchId
  sent_once : (world.dispatches.map Dispatch.dispatchId).Nodup
  names_once : (world.committed.map Request.name).Nodup
  frozen : ∀ request ∈ world.committed, Frozen world.board world.committed request
  conflicts : ∀ request ∈ world.conflicts, request.name.Rebuilt ∧
    ∃ known ∈ world.committed, known.name = request.name ∧ known.kind = request.kind ∧ known.card = request.card

/-- Records move forward, and none is added. -/
theorem LogOk.advance {world : AmWorld} (hlog : LogOk world)
    (hboard : ({ world with cards } : AmWorld).board = board') (hadv : world.board.Advances board')
    (hback : ∀ ref, ∀ run ∈ board'.runs ref, ∃ before ∈ world.board.runs ref, RunStep before run) :
    LogOk { world with cards } := by
  subst hboard
  exact { hlog with
    charges_known := fun charge hchg ↦ hadv.has (hlog.charges_known charge hchg)
    compared := by
      intro ref run hrun item hitem
      obtain ⟨before, hbefore, hstep⟩ := hback ref run hrun
      rw [hstep.dispatchId, hstep.sha]
      exact hlog.compared ref before hbefore item (hstep.covered ▸ hitem)
    sent_known := fun sent hsent ↦ hadv.has (hlog.sent_known sent hsent)
    frozen := fun req hreq ↦
      (hlog.frozen req hreq).advance hadv fun _ hknown ↦ hknown }

/-! ### The invariant -/

/-- What holds between any two writes of a tick that has a production state in memory. `ready` says that
every pending card has its mark, and `clean` that no merge has been lost. -/
structure Inv (clean ready : Prop) (world : AmWorld) (payload : Payload) : Prop where
  board : BoardOk world.board
  log : LogOk world
  slot : SlotOk world.board payload.run
  saved : QueueOk world.board world.saved
  memory : QueueOk world.board payload
  run_eq : world.saved.run = payload.run
  sync : ∀ entry ∈ payload.entries, ∃ known ∈ world.saved.entries, known.pair = entry.pair
  ready : ready → ∀ entry ∈ payload.pending, entry.marked = true
  held : clean → HeldOk world.board world.answeredGreen world.saved ∧ HeldOk world.board world.answeredGreen payload

namespace Inv

variable {ready ready' : Prop} {world : AmWorld} {payload payload' : Payload} (hinv : Inv clean ready world payload)
include hinv

theorem weaken : Inv clean False world payload :=
  { hinv with ready := False.elim }

/-- A crash leaves the saved production state. -/
theorem reload : Inv clean False world world.saved := { hinv with
  slot := hinv.run_eq ▸ hinv.slot
  memory := hinv.saved
  run_eq := rfl
  sync := fun entry hent ↦ ⟨entry, hent, rfl⟩
  ready := False.elim
  held := fun hcln ↦ ⟨(hinv.held hcln).1, (hinv.held hcln).1⟩ }

/-- Another production state is saved. -/
theorem resave (hqueue : QueueOk world.board payload') (hslot : SlotOk world.board payload'.run)
    (hready : ready' → ∀ entry ∈ payload'.pending, entry.marked = true)
    (hheld : clean → HeldOk world.board world.answeredGreen payload') :
    Inv clean ready' (world.save payload') payload' := by
  have hgreen : clean →
      HeldOk world.board (world.answeredGreen ++ payload'.greens) payload' := by
    intro hcln
    refine { hheld hcln with held := fun pair hpair ↦ ?_ }
    obtain hpair | hpair := List.mem_append.mp hpair
    · exact (hheld hcln).held pair hpair
    · exact .inl hpair
  exact {
    board := hinv.board
    log := { hinv.log with }
    slot := hslot
    saved := hqueue
    memory := hqueue
    run_eq := rfl
    sync := fun entry hent ↦ ⟨entry, hent, rfl⟩
    ready := hready
    held := fun hcln ↦ ⟨hgreen hcln, hgreen hcln⟩ }

/-- The production state changes in memory. -/
theorem remember (hqueue : QueueOk world.board payload') (hrun : payload'.run = payload.run)
    (hsync : ∀ entry ∈ payload'.entries, ∃ known ∈ payload.entries, known.pair = entry.pair)
    (hready : ready' → ∀ entry ∈ payload'.pending, entry.marked = true)
    (hheld : clean → HeldOk world.board world.answeredGreen payload') :
    Inv clean ready' world payload' := { hinv with
  slot := hrun ▸ hinv.slot
  memory := hqueue
  run_eq := hinv.run_eq.trans hrun.symm
  sync := by
    intro entry hent
    obtain ⟨known, hknown, hpair⟩ := hsync entry hent
    obtain ⟨row, hdisk, hsame⟩ := hinv.sync known hknown
    exact ⟨row, hdisk, hsame.trans hpair⟩
  ready := hready
  held := fun hcln ↦ ⟨(hinv.held hcln).1, hheld hcln⟩ }

/-- Entries are moved about in memory. -/
theorem exchange (hexch : Exchange clean world.board payload payload') (hrun : payload'.run = payload.run)
    (hready : ready' → ∀ entry ∈ payload'.pending, entry.marked = true) : Inv clean ready' world payload' := by
  refine hinv.remember (hexch.queueOk hinv.memory) hrun (fun entry hent ↦ ?_) hready
    fun hcln ↦ hexch.heldOk hcln (hinv.held hcln).2
  obtain ⟨k, hknown, hpair, -⟩ := hexch.known entry hent
  exact ⟨k, hknown, hpair⟩

/-- Only the logs change. -/
theorem relog {world' : AmWorld} (hlog : LogOk world') (hboard : world'.board = world.board)
    (hsaved : world'.saved = world.saved) (hgreen : world'.answeredGreen = world.answeredGreen) :
    Inv clean ready world' payload where
  board := hboard ▸ hinv.board
  log := hlog
  slot := hboard ▸ hinv.slot
  saved := hboard ▸ hsaved ▸ hinv.saved
  memory := hboard ▸ hinv.memory
  run_eq := hsaved ▸ hinv.run_eq
  sync := hsaved ▸ hinv.sync
  ready := hinv.ready
  held := by
    rw [hboard, hsaved, hgreen]
    exact hinv.held

/-- The cards and the charges change. -/
theorem rework {charges : List Charge} (hboard : ({ world with cards, charges } : AmWorld).board = board')
    (hok : BoardOk board') (hlog : LogOk { world with cards, charges }) (hslot : SlotOk board' payload.run)
    (hsaved : Reworked world.saved world.board board') (hmem : Reworked payload world.board board') :
    Inv clean ready { world with cards, charges } payload := by
  subst hboard
  exact { hinv with
    board := hok
    log := hlog
    slot := hslot
    saved := hsaved.queueOk hinv.saved
    memory := hmem.queueOk hinv.memory
    held := fun hcln ↦ ⟨hsaved.heldOk (hinv.held hcln).1 hinv.saved, hmem.heldOk (hinv.held hcln).2 hinv.memory⟩ }

/-- One run record moves forward. -/
theorem setRun {ref : String} {i : ℕ} {old run : E2eRun}
    (hboard : ({ world with cards } : AmWorld).board = world.board.setRun ref i run)
    (hold : (world.board.runs ref)[i]? = some old) (hstep : RunStep old run) (hrun : RunOk run) :
    Inv clean ready { world with cards } payload := by
  have hadv := Board.advances_setRun hold hstep
  have hlog := hinv.log.advance hboard hadv fun _ _ ↦ exists_before_setRun hold hstep
  exact hinv.rework hboard (hinv.board.setRun hold hstep hrun) hlog (hinv.slot.setRun hold hstep)
    ⟨hadv, fun _ ↦ .inl rfl⟩ ⟨hadv, fun _ ↦ .inl rfl⟩

/-- The mark of a queued card is written. -/
theorem setMark {mark : AfterMergeMark}
    (hboard : ({ world with cards } : AmWorld).board = world.board.setMark entry.ref (some mark))
    (hent : entry ∈ payload.entries) (hsha : mark.mergeSha = entry.mergeSha)
    (hchg : mark.charged = world.board.charged entry.ref)
    (hended : ∀ resolution, mark.state.ended = some resolution → EndedBy world.board entry.ref mark resolution)
    (hfly : ∀ flight ∈ payload.run, ∀ run, Carries world.board flight run → ¬ Returned run →
      entry.ref ∈ flight.entries.map Entry.ref →
        mark.dispatchId = flight.dispatchId ∧ mark.carrier = flight.carrier) :
    Inv clean ready { world with cards } payload := by
  obtain ⟨_, hdisk, hpair⟩ := hinv.sync entry hent
  simp only [Entry.pair, Covered.mk.injEq] at hpair
  have hok := hinv.board.setMark (hsha ▸ (hinv.memory.named entry hent).2) hchg hended
  have hlog := hinv.log.advance hboard (.of_runs rfl) fun _ f hfnd ↦ ⟨f, hfnd, RunStep.refl f⟩
  refine hinv.rework hboard hok hlog ?_ (.setMark hdisk hpair.1 (hsha.trans hpair.2.symm)) (.setMark hent rfl hsha)
  refine hinv.slot.setMark fun flight hin run hrun hret o hoth href ↦ ⟨?_, ?_⟩
  · have hqueued := mem_entries.mpr (.inr ⟨flight, hin, hoth⟩)
    exact hsha.trans (hinv.memory.one_sha entry hent o hqueued href.symm)
  · exact hfly flight hin run hrun hret (List.mem_map.mpr ⟨o, hoth, href⟩)

end Inv

/-! ### The intent of the run in flight -/

/-- What an intent has to be: the next run of its carrier, covering the entries in flight. -/
structure IntentOk (board : Board) (flight : InFlight) (run : E2eRun) : Prop where
  run_ok : RunOk run
  id_eq : run.dispatchId = flight.dispatchId
  covered : run.covered = flight.entries.map Entry.pair
  unresolved : run.resolution = none
  numbered : ∃ token : HexToken,
    run.dispatchId = dispatchId afterMergeInfix flight.carrier ((board.runs flight.carrier).length + 1) token.text

section IntentOk

variable {flight : InFlight} {run : E2eRun} {sprint : String} (hintent : IntentOk board flight run)
include hintent

theorem IntentOk.fresh (hboard : BoardOk board) : ¬ board.Has run.dispatchId := by
  obtain ⟨token, htoken⟩ := hintent.numbered
  rw [htoken]
  exact hboard.not_has_next flight.carrier token

theorem IntentOk.mem_covered {ref : String} :
    ref ∈ run.covered.map Covered.ref ↔ ref ∈ flight.entries.map Entry.ref := by
  rw [hintent.covered, List.map_map]
  rfl

/-- A covered item is an entry in flight. -/
theorem IntentOk.exists_entry {item : Covered} (hitem : item ∈ run.covered) :
    ∃ entry ∈ flight.entries, entry.pair = item := by
  rw [hintent.covered] at hitem
  exact List.mem_map.mp hitem

theorem BoardOk.withIntent (hboard : BoardOk board) (hnamed : ∀ entry ∈ flight.entries, entry.mergeSha ≠ "") :
    BoardOk (board.withIntent flight.carrier sprint run) where
  run_ok := by
    intro ref f hfnd
    obtain hfnd | ⟨-, rfl⟩ := mem_withIntent hfnd
    · exact hboard.run_ok ref f hfnd
    · exact hintent.run_ok
  numbered := by
    intro ref i f hfnd
    by_cases href : ref = flight.carrier
    · subst href
      simp only [Board.withIntent, Function.update_self, List.getElem?_append] at hfnd
      split at hfnd
      · exact hboard.numbered _ i f hfnd
      · next _ =>
        have hlast : i - (board.runs flight.carrier).length < 1 :=
          (List.getElem?_eq_some_iff.mp hfnd).1
        obtain rfl : i = (board.runs flight.carrier).length := by omega
        rw [Nat.sub_self, List.getElem?_cons_zero, Option.some_inj] at hfnd
        exact hfnd ▸ hintent.numbered
    · simp only [Board.withIntent, Function.update_of_ne href] at hfnd
      exact hboard.numbered ref i f hfnd
  mark_named := by
    intro ref mark hmark
    obtain ⟨item, hitem, -, rfl⟩ | ⟨-, hmark⟩ := withIntent_mark_cases hmark
    · obtain ⟨entry, hent, rfl⟩ := hintent.exists_entry hitem
      exact hnamed entry hent
    · exact hboard.mark_named ref mark hmark
  charged_known := by
    intro ref id hid
    rw [withIntent_charged] at hid
    split at hid
    · obtain hid | hid := List.mem_append.mp hid
      · exact Board.advances_withIntent.has (hboard.charged_known ref id hid)
      · exact ⟨flight.carrier, run, run_mem_withIntent, (List.mem_singleton.mp hid).symm⟩
    · exact Board.advances_withIntent.has (hboard.charged_known ref id hid)
  ended := by
    intro ref mark res hmark hres
    obtain ⟨item, hitem, -, rfl⟩ | ⟨-, hmark⟩ := withIntent_mark_cases hmark
    · cases hres
    · exact (hboard.ended ref mark res hmark hres).advance Board.advances_withIntent

theorem SlotOk.withIntent (hslot : SlotOk board (some flight)) (hboard : BoardOk board) :
    SlotOk (board.withIntent flight.carrier sprint run) (some flight) := by
  have hfresh := hintent.fresh hboard
  have hcarried : ∀ f, Carries (board.withIntent flight.carrier sprint run) flight f →
      f = run := by
    intro f hfnd
    obtain hold | ⟨-, hnew⟩ := mem_withIntent hfnd.1
    · exact absurd ⟨flight.carrier, f, hold, hfnd.2.trans hintent.id_eq.symm⟩ hfresh
    · exact hnew
  refine ⟨fun o hoth ↦ ?_, fun ref f hfnd hacted ↦ ⟨flight, rfl, ?_⟩⟩
  · cases hoth
    have hok := hslot.flight flight rfl
    refine ⟨hok.once, hok.marked, fun f hfnd ↦ ?_, fun f hfnd _ entry hent ↦ ?_⟩
    · rw [hcarried f hfnd, hintent.covered]
    · have hitem : entry.pair ∈ run.covered := hintent.covered ▸ List.mem_map_of_mem hent
      exact ⟨_, withIntent_mark_of_mem hintent.run_ok hitem, rfl, hintent.id_eq, rfl⟩
  · obtain hold | ⟨rfl, rfl⟩ := mem_withIntent hfnd
    · obtain ⟨o, hoth, hcarry, hid⟩ := hslot.unacted ref f hold hacted
      cases hoth
      exact ⟨hcarry, hid⟩
    · exact ⟨rfl, hintent.id_eq.symm⟩

theorem IntentOk.reworked (hrun : payload.run = some flight) :
    Reworked payload board (board.withIntent flight.carrier sprint run) where
  advances := Board.advances_withIntent
  marks ref := by
    by_cases href : ref ∈ run.covered.map Covered.ref
    · obtain ⟨_, hitem, rfl⟩ := List.mem_map.mp href
      obtain ⟨entry, hent, rfl⟩ := hintent.exists_entry hitem
      exact .inr ⟨entry, mem_entries.mpr (.inr ⟨flight, hrun, hent⟩), rfl, _,
        withIntent_mark_of_mem hintent.run_ok hitem, rfl⟩
    · exact .inl (withIntent_mark_of_notMem href)

end IntentOk

/-- The intent of the run in flight is written. -/
theorem Inv.withIntent {ready : Prop} {world : AmWorld} (hinv : Inv clean ready world payload)
    {charges : List Charge} {flight : InFlight} {run : E2eRun} {sprint : String}
    (hrun : payload.run = some flight) (hintent : IntentOk world.board flight run)
    (hboard : ({ world with cards, charges } : AmWorld).board = world.board.withIntent flight.carrier sprint run)
    (hcomp : ∀ item ∈ run.covered, ⟨run.dispatchId, item.mergeSha, run.sha⟩ ∈ world.compared)
    (hcost : ∀ charge ∈ charges, charge ∈ world.charges ∨ charge.dispatchId = run.dispatchId) :
    Inv clean ready { world with cards, charges } payload := by
  have hslot : SlotOk world.board (some flight) := hrun ▸ hinv.slot
  have hadv : world.board.Advances (world.board.withIntent flight.carrier sprint run) :=
    Board.advances_withIntent
  have hnamed : ∀ entry ∈ flight.entries, entry.mergeSha ≠ "" := fun entry hent ↦
    (hinv.memory.named entry (mem_entries.mpr (.inr ⟨flight, hrun, hent⟩))).2
  refine hinv.rework hboard (hinv.board.withIntent hintent hnamed) ?_
    (hrun ▸ hslot.withIntent hintent hinv.board) (hintent.reworked (hinv.run_eq.trans hrun)) (hintent.reworked hrun)
  refine ⟨?_, ?_, ?_, hinv.log.sent_once, hinv.log.names_once, ?_, hinv.log.conflicts⟩ <;> rw [hboard]
  · intro charge hchg
    obtain hold | hnew := hcost charge hchg
    · exact hadv.has (hinv.log.charges_known charge hold)
    · exact ⟨flight.carrier, run, run_mem_withIntent, hnew.symm⟩
  · intro ref f hfnd item hitem
    obtain hold | ⟨-, rfl⟩ := mem_withIntent hfnd
    · exact hinv.log.compared ref f hold item hitem
    · exact hcomp item hitem
  · exact fun sent hsent ↦ hadv.has (hinv.log.sent_known sent hsent)
  · exact fun req hreq ↦ (hinv.log.frozen req hreq).advance hadv fun _ hknown ↦ hknown

end Ummanu.E2e
