import Ummanu.Continuation.Driver
import Ummanu.Continuation.SavedLiveness
import Ummanu.Library.DurableTriple

/-!
# What the driver keeps through every write

One invariant is carried through all programs of the driver. Of the saved record and of the record in memory
it says: the liveness record is `Driven`; a record from which the safe recovery could be called again stands
only behind a `began` or `progressed` mark, with no call and no terminal save since (`Armed`); and the rounds
and moves logged so far agree with the transition that is open, or lie behind the card's generation if none
is (`Accounts`). Between the two it says that a transition which is open on disk is the one open in memory,
unless the write to come hands it over (`HandedOn`).

The programs are taken through the rules of `Triple` one by one, in the order in which they call each other.
-/

set_option autoImplicit false

namespace Ummanu.Continuation

open Library Card
open Ledger (attemptRequestId)

variable {name : CardName} {world : CardWorld} {card : Card} {answers : Answers} {moves : List RedMove}
  {rounds : List Round}
variable {P : CardWorld → Card → Prop} {Q : Unit → CardWorld → Card → Prop} {liveness : Liveness} {event : Mark}

/-! ### The trail -/

/-- The safe recovery could be called from this record. -/
def Spendable (liveness : Liveness) : Prop :=
  liveness.bound = true ∧ (liveness.recoveryRung = .none ∨ liveness.recoveryRung = .unavailable)

/-- Nothing was called or ended since the episode began or progressed. -/
def Armed (trail : List Mark) : Prop :=
  trail.getLast? = some .began ∨ trail.getLast? = some .progressed

/-- Every call of the safe recovery was armed. -/
def CallsArmed (trail : List Mark) : Prop :=
  ∀ earlier later, trail = earlier ++ .recovered :: later → Armed earlier

theorem armed_concat {trail : List Mark} (hevent : event = .began ∨ event = .progressed) :
    Armed (trail ++ [event]) := by
  rcases hevent with rfl | rfl
  · exact .inl (by simp)
  · exact .inr (by simp)

theorem CallsArmed.concat {trail : List Mark} (hcalls : CallsArmed trail)
    (hevent : event = .recovered → Armed trail) : CallsArmed (trail ++ [event]) := by
  intro pre l hsplit
  rcases List.eq_nil_or_concat l with rfl | ⟨rest, _, rfl⟩
  · obtain ⟨hfront, hlast⟩ := List.append_inj' hsplit rfl
    simp only [List.cons.injEq, and_true] at hlast
    exact hfront ▸ hevent hlast
  · rw [List.concat_eq_append, ← List.cons_append, ← List.append_assoc] at hsplit
    exact hcalls pre rest (List.append_inj' hsplit rfl).1

theorem Spendable.not_terminal (hspend : Spendable liveness) (hdriv : Driven liveness) :
    liveness.terminal = false := by
  apply hdriv.not_terminal
  rcases hspend.2 with hrung | hrung <;> simp [hrung]

theorem not_spendable_of_rung {rung : RecoveryRung} (hrung : liveness.recoveryRung = rung)
    (hup : rung ≠ .none ∧ rung ≠ .unavailable) : ¬ Spendable liveness := by
  rintro ⟨-, hnone | hunavailable⟩
  · exact hup.1 (hrung.symm.trans hnone)
  · exact hup.2 (hrung.symm.trans hunavailable)

/-! ### What the accounts see of a card -/

/-- The fields that decide which transition is open and what it opened. -/
structure View where
  stage : Stage
  phase : String
  reportBaseline : ℕ
  reserved : ℕ
  decisionBody : String
  transition : ℕ
  reportGeneration : ℕ
  attemptId : String
  launchIntent : Option ℕ
  attemptRound : ℕ

def Card.view (card : Card) : View where
  stage := card.continuation.stage
  phase := card.continuation.phaseOrGate
  reportBaseline := card.continuation.reportBaseline
  reserved := card.continuation.reservedGeneration
  decisionBody := card.continuation.decisionBody
  transition := card.transition
  reportGeneration := card.reportGeneration
  attemptId := card.attemptId
  launchIntent := card.launchIntent
  attemptRound := card.attemptRound

/-- A red transition is open. -/
def View.held (view : View) : Prop :=
  view.stage = .redTransitionPending ∨ view.stage = .deliveryPending ∨ view.stage = .deliveryConfirmed

/-- The request of the view's board move. -/
def View.requestId (name : CardName) (view : View) : String :=
  attemptRequestId (if view.attemptId = "" then name.attemptId else view.attemptId) (view.phase ++ "-red")
    name.ref (toString view.reportBaseline)

/-- The same transition, and one that still has to move the board would move it by the same request. -/
structure SameTransition (before after : View) : Prop where
  transition : before.transition = after.transition
  reserved : before.reserved = after.reserved
  decisionBody : before.decisionBody = after.decisionBody
  request : after.stage = .redTransitionPending → before.stage = .redTransitionPending ∧
    before.phase = after.phase ∧ before.reportBaseline = after.reportBaseline ∧
    before.attemptId = after.attemptId

theorem SameTransition.refl (view : View) : SameTransition view view :=
  ⟨rfl, rfl, rfl, fun hred ↦ ⟨hred, rfl, rfl, rfl⟩⟩

/-- An open transition stays open, is handed to the launch intent of the next round, or had its delivery
confirmed and is followed by the next round. -/
def HandedOn (before after : View) : Prop :=
  before.held → after.held ∧ SameTransition before after ∨
    after.launchIntent = some (after.attemptRound + 1) ∨
      before.stage = .deliveryConfirmed ∧ after.attemptRound = before.attemptRound + 1

theorem HandedOn.refl (view : View) : HandedOn view view :=
  fun hheld ↦ .inl ⟨hheld, .refl view⟩

/-- The logs agree with a card. -/
structure Accounts (name : CardName) (moves : List RedMove) (rounds : List Round) (view : View) : Prop where
  rounds_le : ∀ round ∈ rounds, round.transition ≤ view.transition
  moves_le : ∀ move ∈ moves, move.transition ≤ view.transition
  closed : ¬ view.held → ∀ round ∈ rounds, round.generation ≤ view.reportGeneration
  reserved : view.held → view.reserved ≠ 0 ∧ view.reportGeneration ≤ view.reserved
  earlier : view.held → ∀ round ∈ rounds, round.transition < view.transition → round.generation < view.reserved
  current : view.held → ∀ round ∈ rounds, round.transition = view.transition →
    round.generation = view.reserved ∧ round.decisionBody = view.decisionBody
  request : view.stage = .redTransitionPending → ∀ move ∈ moves, move.transition = view.transition →
    move.requestId = view.requestId name
  delivered : view.stage = .deliveryPending ∨ view.stage = .deliveryConfirmed → view.reportGeneration = view.reserved

/-- Completions of one transition agree, and later ones open later rounds. -/
def RoundsAgree (rounds : List Round) : Prop :=
  ∀ first ∈ rounds, ∀ second ∈ rounds, (first.transition = second.transition → first = second) ∧
    (first.transition < second.transition → first.generation < second.generation)

/-- The board moves of one transition have one request. -/
def MovesAgree (moves : List RedMove) : Prop :=
  ∀ first ∈ moves, ∀ second ∈ moves, first.transition = second.transition → first.requestId = second.requestId

/-! ### The invariant -/

/-- What holds of the durable state. -/
structure WorldOk (name : CardName) (world : CardWorld) : Prop where
  driven : Driven world.card.liveness
  armed : Spendable world.card.liveness → Armed world.trail
  calls : CallsArmed world.trail
  rounds : RoundsAgree world.rounds
  moves : MovesAgree world.moves
  accounts : Accounts name world.moves world.rounds world.card.view

/-- What holds of the record in memory. -/
structure MemoryOk (name : CardName) (world : CardWorld) (card : Card) : Prop where
  driven : Driven card.liveness
  armed : Spendable card.liveness → Armed world.trail
  accounts : Accounts name world.moves world.rounds card.view
  handed : HandedOn world.card.view card.view

/-- The invariant of the programs. -/
def CardInv (name : CardName) (world : CardWorld) (card : Card) : Prop :=
  WorldOk name world ∧ MemoryOk name world card

/-- What every write of the driver is. -/
def CardStep (name : CardName) (before after : CardWorld) : Prop :=
  HandedOn before.card.view after.card.view ∧ WorldOk name after

section Steps

/-- A change of the memory that the accounts do not see. -/
theorem MemoryOk.edit {card' : Card} (hmem : MemoryOk name world card) (hview : card'.view = card.view)
    (hdriv : Driven card'.liveness) (harmed : Spendable card'.liveness → Armed world.trail) :
    MemoryOk name world card' where
  driven := hdriv
  armed := harmed
  accounts := hview ▸ hmem.accounts
  handed := hview ▸ hmem.handed

theorem saved_armed (hmem : MemoryOk name world card) (hspend : Spendable card.liveness) :
    Armed (world.saved card).trail := by
  rw [CardWorld.saved, hspend.not_terminal hmem.driven]
  exact hmem.armed hspend

theorem saved_worldOk (hworld : WorldOk name world) (hmem : MemoryOk name world card) :
    WorldOk name (world.saved card) := { hworld with
  driven := hmem.driven
  armed := saved_armed hmem
  calls := by
    unfold CardWorld.saved
    split
    · exact hworld.calls.concat nofun
    · exact hworld.calls
  accounts := hmem.accounts }

theorem saved_memoryOk (hmem : MemoryOk name world card) : MemoryOk name (world.saved card) card := { hmem with
  armed := saved_armed hmem
  handed := .refl card.view }

/-- A mark that arms the trail. -/
theorem marked_worldOk (hworld : WorldOk name world) (hevent : event = .began ∨ event = .progressed) :
    WorldOk name { world with trail := world.trail ++ [event] } :=
  { hworld with
    armed := fun _ ↦ armed_concat hevent
    calls := hworld.calls.concat fun hrec ↦ by rcases hevent with rfl | rfl <;> exact nomatch hrec }

theorem marked_memoryOk (hmem : MemoryOk name world card) (hevent : event = .began ∨ event = .progressed) :
    MemoryOk name { world with trail := world.trail ++ [event] } card :=
  { hmem with armed := fun _ ↦ armed_concat hevent }

end Steps

/-! ### Rules of the steps -/

section Rules

/-- The triples of this file. -/
abbrev CardTriple (name : CardName) {α : Type} (P : CardWorld → Card → Prop) (program : CardProgram α)
    (Q : α → CardWorld → Card → Prop) : Prop :=
  Triple (CardStep name) (CardInv name) P program Q

/-- The triples of programs about whose answer nothing is said. -/
abbrev CardEnds (name : CardName) {α : Type} (P : Card → Prop) (program : CardProgram α) : Prop :=
  CardTriple name (fun _ card ↦ P card) program fun _ _ _ ↦ True

theorem triple_done {α : Type} {a : α} : CardTriple name P (pure a) (fun _ _ _ ↦ True) :=
  triple_pure fun _ _ _ _ ↦ trivial

/-- A save writes the memory as it is. -/
theorem save_triple (point : SavePoint) (hsaved : ∀ world card, P world card → Q () (world.saved card) card) :
    CardTriple name P (save answers point) Q := by
  refine triple_remembered.bind fun seen ↦ triple_attempt ?_
  rintro world _ ⟨hworld, hmem⟩ ⟨rfl, hp⟩
  have hafter := saved_worldOk hworld hmem
  exact ⟨⟨hmem.handed, hafter⟩, ⟨hafter, saved_memoryOk hmem⟩, hsaved world seen hp⟩

/-- A save keeps what is said of the memory alone. -/
theorem save_keeps {P : Card → Prop} (point : SavePoint) :
    CardTriple name (fun _ card ↦ P card) (save answers point) (fun _ _ card ↦ P card) :=
  save_triple point fun _ _ hp ↦ hp

theorem provided_triple {condition : Bool} {program : CardProgram Unit}
    (hprogram : condition = true → CardTriple name P program Q)
    (hskip : ∀ world card, CardInv name world card → condition = false → P world card → Q () world card) :
    CardTriple name P (provided condition program) Q := by
  refine .ite hprogram fun hfalse ↦ triple_pure fun world card hinv hp ↦ ?_
  exact hskip world card hinv (Bool.not_eq_true _ ▸ hfalse) hp

/-- A refused save leaves the memory as it is. -/
theorem saveQuietly_keeps {P : Card → Prop} (point : SavePoint) :
    CardTriple name (fun _ card ↦ P card) (saveQuietly answers point) (fun _ _ card ↦ P card) := by
  rintro _ _ ⟨hworld, hmem⟩ hp
  have hafter := saved_worldOk hworld hmem
  simp only [saveQuietly, save, meets_tryCatch, meets_bind, meets_remembered, meets_attempt, meets_pure]
  exact ⟨fun _ ↦ ⟨⟨hmem.handed, hafter⟩, ⟨hafter, saved_memoryOk hmem⟩, fun _ _ ↦ hp⟩,
    fun _ _ ↦ ⟨⟨hworld, hmem⟩, fun _ _ ↦ hp⟩⟩

theorem rebind_triple (point : CallPoint)
    (hrun : ∀ world card run, P world card → P world { card with workerHeadRun := run }) :
    CardTriple name P (rebind answers point) (fun _ ↦ P) := by
  unfold rebind
  cases answers.rebinds point with
  | none => exact triple_pure fun _ _ _ hp ↦ hp
  | some run =>
    refine triple_remember ?_
    rintro world card ⟨hworld, hmem⟩ hp
    exact ⟨⟨hworld, hmem.edit rfl hmem.driven hmem.armed⟩, hrun world card run hp⟩

/-- A mark that arms the trail. -/
theorem mark_triple (hevent : event = .began ∨ event = .progressed)
    (hmark : ∀ world card, P world card → Q () { world with trail := world.trail ++ [event] } card) :
    CardTriple name P (mark event) Q := by
  refine triple_commit ?_
  rintro world card ⟨hworld, hmem⟩ hp
  have hafter := marked_worldOk hworld hevent
  exact ⟨⟨.refl _, hafter⟩, ⟨hafter, marked_memoryOk hmem hevent⟩, hmark world card hp⟩

/-- A call keeps every condition that depends neither on the worker's run nor on a save. -/
theorem call_triple (point : CallPoint)
    (hrun : ∀ world card run, P world card → P world { card with workerHeadRun := run })
    (hsaved : ∀ world card, P world card → P (world.saved card) card) :
    CardTriple name P (call answers point) (fun _ ↦ P) := by
  have hrai : CardTriple name P (raise answers point) (fun _ ↦ P) := by
    unfold raise
    cases answers.raises point with
    | none => exact triple_pure fun _ _ _ hp ↦ hp
    | some _ => exact triple_throw
  have hflush : CardTriple name P (provided (answers.flushes point) (save answers (.call point))) (fun _ ↦ P) :=
    provided_triple (fun _ ↦ save_triple (.call point) hsaved) fun _ _ _ _ hp ↦ hp
  exact (rebind_triple point hrun).bind fun _ ↦ hflush.bind fun _ ↦ hrai

/-- A call keeps what is said of the memory alone, the worker's run apart. -/
theorem call_keeps {P : Card → Prop} (point : CallPoint)
    (hrun : ∀ card run, P card → P { card with workerHeadRun := run }) :
    CardTriple name (fun _ card ↦ P card) (call answers point) (fun _ _ card ↦ P card) :=
  call_triple point (fun _ card run ↦ hrun card run) fun _ _ hp ↦ hp

/-- A change of the liveness record. -/
theorem editLiveness_triple {f : Liveness → Liveness}
    (hchg : ∀ world card, CardInv name world card → P world card →
      Driven (f card.liveness) ∧ (Spendable (f card.liveness) → Armed world.trail) ∧
        Q () world { card with liveness := f card.liveness }) :
    CardTriple name P (editLiveness f) Q := by
  refine triple_remember ?_
  intro world card hinv hp
  obtain ⟨hdriv, harmed, hq⟩ := hchg world card hinv hp
  exact ⟨⟨hinv.1, hinv.2.edit rfl hdriv harmed⟩, hq⟩

/-- A change of the continuation that its stage allows. -/
theorem editContinuation_triple {f : WorkerContinuation → Except Fault WorkerContinuation}
    (hchg : ∀ world card continuation, CardInv name world card → P world card →
      f card.continuation = .ok continuation →
      MemoryOk name world { card with continuation } ∧ Q () world { card with continuation }) :
    CardTriple name P (editContinuation f) Q := by
  refine triple_remembered.bind fun seen ↦ ?_
  cases hres : f seen.continuation with
  | error _ => exact triple_throw
  | ok continuation =>
    refine triple_remember ?_
    rintro world _ hinv ⟨rfl, hp⟩
    obtain ⟨hmem, hq⟩ := hchg world seen continuation hinv hp hres
    exact ⟨⟨hinv.1, hmem⟩, hq⟩

end Rules

/-! ### Stopping and handing over -/

section HandingOver

/-- The round of an open transition is the card's. -/
def Assigned (card : Card) : Prop :=
  card.view.held → card.reportGeneration = card.continuation.reservedGeneration

/-- Without an open transition, the accounts are about the rounds and moves so far. -/
theorem Accounts.of_closed {view : View} (hshut : ¬ view.held)
    (hrounds : ∀ round ∈ rounds, round.transition ≤ view.transition ∧ round.generation ≤ view.reportGeneration)
    (hmoves : ∀ move ∈ moves, move.transition ≤ view.transition) : Accounts name moves rounds view where
  rounds_le round hround := (hrounds round hround).1
  moves_le := hmoves
  closed _ round hround := (hrounds round hround).2
  reserved hheld := absurd hheld hshut
  earlier hheld := absurd hheld hshut
  current hheld := absurd hheld hshut
  request hred := absurd (.inl hred) hshut
  delivered hdelivery := absurd (.inr hdelivery) hshut

/-- A change to a card with no transition open: the round of one that was open is already the card's. -/
theorem MemoryOk.settledEdit {card' : Card} (hmem : MemoryOk name world card) (hasg : Assigned card)
    (hafter : ¬ card'.view.held) (hlive : card'.liveness = card.liveness)
    (htrans : card'.transition = card.transition)
    (hgen : card.reportGeneration ≤ card'.reportGeneration)
    (hhanded : HandedOn world.card.view card'.view) : MemoryOk name world card' where
  driven := hlive ▸ hmem.driven
  armed := hlive ▸ hmem.armed
  accounts := by
    refine .of_closed hafter (fun round hround ↦ ?_) fun move hmove ↦
      (hmem.accounts.moves_le move hmove).trans_eq htrans.symm
    have hle := hmem.accounts.rounds_le round hround
    refine ⟨hle.trans_eq htrans.symm, ?_⟩
    refine le_trans ?_ hgen
    by_cases hheld : card.view.held
    · rw [hasg hheld]
      rcases hle.lt_or_eq with hearl | hcur
      · exact (hmem.accounts.earlier hheld round hround hearl).le
      · exact (hmem.accounts.current hheld round hround hcur).1.le
    · exact hmem.accounts.closed hheld round hround
  handed := hhanded

/-- A card with no transition open may change its continuation. -/
theorem HandedOn.closedEdit {view after : View} {before : View} (hhanded : HandedOn before view)
    (hshut : ¬ view.held) (hint : after.launchIntent = view.launchIntent)
    (hround : after.attemptRound = view.attemptRound) : HandedOn before after := by
  intro hheld
  rcases hhanded hheld with ⟨hopen, -⟩ | hlaunch | hconf
  · exact absurd hopen hshut
  · exact .inr (.inl (by rw [hint, hround, hlaunch]))
  · exact .inr (.inr ⟨hconf.1, hround.trans hconf.2⟩)

/-- A cleared continuation has no transition open. -/
theorem clear_not_held {view : View} (hstage : view.stage = .none) : ¬ view.held := by
  rintro (hred | hpend | hconf)
  · exact nomatch hstage.symm.trans hred
  · exact nomatch hstage.symm.trans hpend
  · exact nomatch hstage.symm.trans hconf

/-- No transition is open, on disk or in memory. -/
def Released (world : CardWorld) (card : Card) : Prop := ¬ world.card.view.held ∧ ¬ card.view.held

theorem dropSession_eq (continuation : WorkerContinuation)
    (hstage : continuation.stage ≠ .validationMovePending ∧ continuation.stage ≠ .retained) :
    continuation.dropSession = { continuation with sessionHeld := false } := by
  unfold WorkerContinuation.dropSession
  split
  · rename_i hpend
    exact absurd hpend hstage.1
  · rename_i hret
    exact absurd hret hstage.2
  · rfl

theorem dropSession_memoryOk (hmem : MemoryOk name world card) :
    MemoryOk name world { card with continuation := card.continuation.dropSession } := by
  by_cases hheld : card.view.held
  · have hstage : card.continuation.stage ≠ .validationMovePending ∧ card.continuation.stage ≠ .retained := by
      rcases hheld with _ | _ | _ <;> simp_all [view]
    rw [dropSession_eq _ hstage]
    exact hmem.edit rfl hmem.driven hmem.armed
  · refine hmem.settledEdit (fun hopen ↦ absurd hopen hheld) ?_ rfl rfl le_rfl (hmem.handed.closedEdit hheld rfl rfl)
    intro hafter
    apply hheld
    simp only [view, View.held, WorkerContinuation.dropSession] at hafter ⊢
    cases hstage : card.continuation.stage <;> simp_all [WorkerContinuation.clear]

theorem dropSession_assigned (hasg : Assigned card) :
    Assigned { card with continuation := card.continuation.dropSession } := by
  unfold Assigned at hasg ⊢
  simp only [view, View.held, WorkerContinuation.dropSession] at hasg ⊢
  cases hstage : card.continuation.stage <;> simp_all [WorkerContinuation.clear]

theorem stopWorkerConfirmed_keeps (hcall : CardTriple name P (call answers .stop) (fun _ ↦ P))
    (hdrop : ∀ world card, P world card → P world { card with continuation := card.continuation.dropSession }) :
    CardTriple name P (stopWorkerConfirmed answers) (fun _ ↦ P) := by
  refine hcall.bind fun _ ↦ ?_
  cases answers.stopRefused with
  | some _ => exact triple_pure fun _ _ _ hp ↦ hp
  | none =>
    refine (editContinuation_triple (Q := fun _ ↦ P) ?_).bind fun _ ↦ triple_pure fun _ _ _ hp ↦ hp
    rintro world card _ ⟨-, hmem⟩ hp hstopped
    cases hstopped
    exact ⟨dropSession_memoryOk hmem, hdrop world card hp⟩

theorem stopWorkerConfirmed_triple :
    CardTriple name (fun _ card ↦ Assigned card) (stopWorkerConfirmed answers) (fun _ _ card ↦ Assigned card) :=
  stopWorkerConfirmed_keeps (call_keeps .stop fun _ _ hasg ↦ hasg) fun _ _ ↦ dropSession_assigned

/-! ### Steps without an open transition -/

theorem save_released (point : SavePoint) :
    CardTriple name Released (save answers point) (fun _ ↦ Released) :=
  save_triple point fun _ _ hrel ↦ ⟨hrel.2, hrel.2⟩

theorem call_released (point : CallPoint) :
    CardTriple name Released (call answers point) (fun _ ↦ Released) :=
  call_triple point (fun _ _ _ hrel ↦ hrel) fun _ _ hrel ↦ ⟨hrel.2, hrel.2⟩

/-- A change of the memory that opens no transition and takes no report round back. -/
theorem remember_released {f : Card → Card}
    (hf : ∀ card, ¬ card.view.held → ¬ (f card).view.held ∧ (f card).liveness = card.liveness ∧
      (f card).transition = card.transition ∧ card.reportGeneration ≤ (f card).reportGeneration) :
    CardTriple name Released (Durable.remember f) (fun _ ↦ Released) := by
  refine triple_remember ?_
  rintro world card ⟨hworld, hmem⟩ hrel
  obtain ⟨hafter, hlive, htrans, hgen⟩ := hf card hrel.2
  have hmem' := hmem.settledEdit (fun hopen ↦ absurd hopen hrel.2) hafter hlive htrans
    hgen fun hheld ↦ absurd hheld hrel.1
  exact ⟨⟨hworld, hmem'⟩, hrel.1, hafter⟩

theorem dropSession_not_held (hshut : ¬ card.view.held) :
    ¬ { card with continuation := card.continuation.dropSession }.view.held := by
  simp only [view, View.held, WorkerContinuation.dropSession] at hshut ⊢
  cases hstage : card.continuation.stage <;> simp_all [WorkerContinuation.clear]

theorem stopWorkerConfirmed_released :
    CardTriple name Released (stopWorkerConfirmed answers) (fun _ ↦ Released) :=
  stopWorkerConfirmed_keeps (call_released .stop) fun _ _ hrel ↦ ⟨hrel.1, dropSession_not_held hrel.2⟩

theorem writeWorkerRelaunchIntent_released (round : ℕ) :
    CardTriple name Released (writeWorkerRelaunchIntent answers round) (fun _ ↦ Released) := by
  rintro world card ⟨hworld, hmem⟩ hrel
  have hedit (headRun : Option HeadBinding) (launchIntent : Option ℕ) :
      MemoryOk name world { card with workerHeadRun := headRun, launchIntent } :=
    hmem.settledEdit (fun hopen ↦ absurd hopen hrel.2) hrel.2 rfl rfl le_rfl fun hheld ↦ absurd hheld hrel.1
  simp only [writeWorkerRelaunchIntent, save]
  cases answers.preflightRefused with
  | some _ => exact meets_pure.mpr ⟨⟨hworld, hmem⟩, fun _ _ ↦ hrel⟩
  | none =>
    simp only [meets_pure, meets_bind, meets_remembered, meets_remember, meets_tryCatch, meets_attempt]
    refine ⟨fun _ ↦ ⟨⟨(hedit _ _).handed, saved_worldOk hworld (hedit _ _)⟩, ?_⟩, fun _ _ ↦ ?_⟩
    · exact ⟨⟨saved_worldOk hworld (hedit _ _), saved_memoryOk (hedit _ _)⟩, fun _ _ ↦ ⟨hrel.2, hrel.2⟩⟩
    · exact ⟨⟨hworld, hedit _ _⟩, fun _ _ ↦ hrel⟩

/-- The launch that follows a hand-over opens no transition. -/
theorem bringUpWorkerHead_triple (round : ℕ) :
    CardTriple name Released (bringUpWorkerHead answers round) (fun _ _ _ ↦ True) := by
  refine (call_released .bringUp).bind fun _ ↦ ?_
  cases answers.bringUp with
  | aborted => exact (save_released .bringUpFailed).bind fun _ ↦ triple_done
  | blocked =>
    refine (remember_released ?_).bind fun _ ↦ (call_released .blockMove).bind fun _ ↦
      (save_released .bringUpFailed).bind fun _ ↦ triple_done
    exact fun _ hshut ↦ ⟨hshut, rfl, rfl, le_rfl⟩
  | launched _ =>
    refine (remember_released ?_).bind fun _ ↦ (save_released .launched).bind fun _ ↦
      (remember_released ?_).bind fun _ ↦ (call_released .restarting).bind fun _ ↦
      (remember_released ?_).bind fun _ ↦ (save_released .restarted).bind fun _ ↦ triple_done
    all_goals exact fun _ hshut ↦ ⟨hshut, rfl, rfl, le_rfl⟩

/-- The memory once the transition is cleared and the intent of the next round is set. -/
def Card.handedOver (card : Card) (headRun : Option HeadBinding) : Card :=
  { card with
    continuation := card.continuation.clear
    launchIntent := some (card.attemptRound + 1)
    workerHeadRun := headRun }

theorem handedOver_memoryOk (hmem : MemoryOk name world card) (hasg : Assigned card)
    (headRun : Option HeadBinding) : MemoryOk name world (card.handedOver headRun) :=
  hmem.settledEdit hasg (clear_not_held rfl) rfl rfl le_rfl fun _ ↦ .inr (.inl rfl)

/-- The transition is cleared by the very write that sets the launch intent, or not at all. -/
theorem handOver_triple : CardEnds name Assigned (handOver answers) := by
  intro _ card hinv hasg
  obtain ⟨hworld, hmem⟩ := hinv
  have hshut : ¬ (card.handedOver (answers.preflightRun.getD card.workerHeadRun)).view.held :=
    clear_not_held rfl
  have hover := handedOver_memoryOk hmem hasg (answers.preflightRun.getD card.workerHeadRun)
  simp only [handOver, editContinuation, writeWorkerRelaunchIntent, save, meets_bind, meets_remembered,
    meets_remember]
  cases answers.preflightRefused with
  | some _ =>
    simp only [meets_pure, meets_bind, meets_remembered, meets_remember]
    exact ⟨⟨hworld, hmem.edit rfl hmem.driven hmem.armed⟩, fun _ _ ↦ trivial⟩
  | none =>
    simp only [meets_pure, meets_bind, meets_remembered, meets_remember, meets_tryCatch, meets_attempt]
    refine ⟨fun _ ↦ ?_, fun _ _ ↦
      ⟨⟨hworld, hmem.edit rfl hmem.driven hmem.armed⟩, fun _ _ ↦ trivial⟩⟩
    have hafter := saved_worldOk hworld hover
    refine ⟨⟨hover.handed, hafter⟩, ?_⟩
    exact bringUpWorkerHead_triple _ _ _ ⟨hafter, saved_memoryOk hover⟩ ⟨hshut, hshut⟩

/-- An episode that was ended is not spendable. -/
theorem spendable_terminalize {C : Prop} {outcome : TerminalOutcome} {reason : String}
    (hspend : Spendable (liveness.terminalize outcome reason)) : C :=
  absurd hspend (not_spendable_of_rung rfl ⟨nofun, nofun⟩)

theorem restartRedWorker_triple (reason : String) (workerStopped : Bool) :
    CardEnds name Assigned (restartRedWorker answers reason workerStopped) := by
  refine (editLiveness_triple (Q := fun _ _ card ↦ Assigned card) ?_).bind fun _ ↦ ?_
  · rintro _ card ⟨-, hmem⟩ hasg
    split_ifs with hopen
    · exact ⟨hmem.driven.terminalize hopen.1 _ _, spendable_terminalize, hasg⟩
    · exact ⟨hmem.driven, hmem.armed, hasg⟩
  · exact .ite (fun _ ↦ handOver_triple) fun _ ↦ stopWorkerConfirmed_triple.orEnd handOver_triple ⟨_, rfl⟩

/-- The delivery was confirmed and saved. -/
structure Confirmed (world : CardWorld) (card : Card) : Prop where
  stage : world.card.continuation.stage = .deliveryConfirmed
  attemptRound : card.attemptRound = world.card.attemptRound
  assigned : Assigned card

theorem finishRetainedWorkerResume_triple :
    CardTriple name Confirmed (finishRetainedWorkerResume answers) (fun _ _ _ ↦ True) := by
  refine (editLiveness_triple (Q := fun _ ↦ Confirmed) ?_).bind fun _ ↦
    (triple_remember (Q := fun _ _ _ ↦ True) ?_).bind fun _ ↦ ?_
  · rintro world card ⟨-, hmem⟩ hconf
    have hafter (liveness : Liveness) : Confirmed world { card with liveness } :=
      ⟨hconf.stage, hconf.attemptRound, hconf.assigned⟩
    split_ifs with hbound
    · exact ⟨hmem.driven.terminalize hbound _ _, spendable_terminalize, hafter _⟩
    · exact ⟨hmem.driven, hmem.armed, hconf⟩
  · rintro world card ⟨hworld, hmem⟩ hconf
    have hround : card.attemptRound + 1 = world.card.attemptRound + 1 := by rw [hconf.attemptRound]
    exact ⟨⟨hworld, hmem.settledEdit hconf.assigned (clear_not_held rfl) rfl rfl le_rfl
      fun _ ↦ .inr (.inr ⟨hconf.stage, hround⟩)⟩, trivial⟩
  · exact (call_keeps (P := fun _ ↦ True) .finishing fun _ _ _ ↦ trivial).bind fun _ ↦
      (save_keeps (P := fun _ ↦ True) .finished).bind fun _ ↦ triple_done

end HandingOver

/-! ### Observing and climbing -/

section Climbing

theorem carryLegacy_eq (liveness : Liveness) (busyAttempts : ℕ) :
    ∃ legacy, liveness.carryLegacy busyAttempts = { liveness with legacyBusyAttempts := legacy } := by
  unfold Liveness.carryLegacy
  split
  · exact ⟨_, rfl⟩
  · exact ⟨liveness.legacyBusyAttempts, rfl⟩

/-- What an observation does to the card: it is driven, its rung moves only by progress, which forgets the
attempts. -/
theorem observe_facts (hdriv : Driven card.liveness) (evidence : Option Evidence) (now : ℕ) :
    Driven (card.observe evidence now).1.liveness ∧
      ((card.observe evidence now).2 ≠ .progressed → Spendable (card.observe evidence now).1.liveness →
        Spendable card.liveness) ∧
      ((card.observe evidence now).2 = .progressed →
        (card.observe evidence now).1.liveness.recoveryAttempts = 0) := by
  obtain ⟨legacy, hlegacy⟩ := carryLegacy_eq card.liveness card.continuation.busyAttempts
  have hobs := observeProvider_observed (card.liveness.carryLegacy card.continuation.busyAttempts) evidence
    now card.workerHeadRun
  have hcarry : Driven (card.liveness.carryLegacy card.continuation.busyAttempts) :=
    hlegacy ▸ hdriv.legacyBusyAttempts legacy
  have hsame : (card.liveness.carryLegacy card.continuation.busyAttempts).recoveryRung = card.liveness.recoveryRung ∧
      (card.liveness.carryLegacy card.continuation.busyAttempts).bound = card.liveness.bound := by
    rw [hlegacy]
    exact ⟨rfl, rfl⟩
  refine ⟨hcarry.observed hobs, ?_, hobs.rung.2⟩
  rintro hoth ⟨hbound, hfree⟩
  have hrung := (hobs.rung.1 hoth).trans hsame.1
  obtain ⟨hid, hprint⟩ := hobs.headRun_eq
  refine ⟨?_, hrung ▸ hfree⟩
  rw [← hsame.2, Liveness.bound, ← hid, ← hprint]
  exact hbound

theorem observeRetainedContinuationProgress_triple {P : View → Prop} (probe : Probe) :
    CardTriple name (fun _ card ↦ P card.view) (observeRetainedContinuationProgress answers probe)
      (fun observation _ card ↦ P card.view ∧
        (observation = .progressed → card.liveness.recoveryAttempts = 0)) := by
  have hflush : CardTriple name (fun _ card ↦ P card.view)
      (provided (answers.flushes (.probe probe)) (saveQuietly answers (.call (.probe probe))))
      (fun _ _ card ↦ P card.view) :=
    provided_triple (fun _ ↦ saveQuietly_keeps (.call (.probe probe))) fun _ _ _ _ hview ↦ hview
  refine (rebind_triple (.probe probe) fun _ _ _ hview ↦ hview).bind fun _ ↦
    hflush.bind fun _ ↦ triple_remembered.bind fun seen ↦ ?_
  -- progress is marked before the memory takes it over
  have hmark : CardTriple name (fun _ card ↦ seen = card ∧ P card.view)
      (provided ((seen.observe (answers.evidence probe) (answers.clock (.probe probe))).2 = .progressed)
        (mark .progressed))
      (fun _ world card ↦ (seen = card ∧ P card.view) ∧
        ((seen.observe (answers.evidence probe) (answers.clock (.probe probe))).2 = .progressed →
          Armed world.trail)) :=
    provided_triple (fun _ ↦ mark_triple (.inr rfl) fun _ _ hpre ↦ ⟨hpre, fun _ ↦ armed_concat (.inr rfl)⟩)
      fun _ _ _ hcond hpre ↦ ⟨hpre, fun hprog ↦ absurd hprog (of_decide_eq_false hcond)⟩
  refine hmark.bind fun _ ↦ (triple_remember (Q := fun _ _ card ↦ P card.view ∧
    ((seen.observe (answers.evidence probe) (answers.clock (.probe probe))).2 = .progressed →
      card.liveness.recoveryAttempts = 0)) ?_).bind fun _ ↦ triple_pure fun _ _ _ hpost ↦ hpost
  rintro world card ⟨hworld, hmem⟩ ⟨⟨rfl, hview⟩, harmed⟩
  obtain ⟨hdriv, hspend, htries⟩ :=
    observe_facts hmem.driven (answers.evidence probe) (answers.clock (.probe probe))
  refine ⟨⟨hworld, hmem.edit rfl hdriv fun hafter ↦ ?_⟩, hview, htries⟩
  by_cases hprog : (seen.observe (answers.evidence probe) (answers.clock (.probe probe))).2 = .progressed
  · exact harmed hprog
  · exact hmem.armed (hspend hprog hafter)

/-- A restart as the answer of a program that may also go on. -/
theorem restarted_triple {Q : Option Reply → CardWorld → Card → Prop} (reason : String)
    (hQ : ∀ reply world card, Q (some reply) world card) :
    CardTriple name (fun _ card ↦ Assigned card)
      (do
        let reply ← restartRedWorker answers reason false
        pure (some reply)) Q :=
  (restartRedWorker_triple reason false).bind fun reply ↦ triple_pure fun world card _ _ ↦ hQ reply world card

/-- A continuation that is not blocked goes on as it was. -/
theorem blockUnadmittedContinuationLiveness_triple {P : Card → Prop} (hP : ∀ card, P card → Assigned card)
    (observation : Observation) :
    CardTriple name (fun _ card ↦ P card) (blockUnadmittedContinuationLiveness answers observation)
      (fun reply _ card ↦ reply = none → P card) := by
  refine triple_remembered.bind fun _ ↦ ?_
  refine .ite (fun _ ↦ triple_pure fun _ _ _ hpre _ ↦ hpre.2) fun _ ↦ .ite (fun _ ↦ ?_) fun _ ↦ ?_
  · exact (restarted_triple _ (fun _ _ _ ↦ nofun)).pre fun _ card _ hpre ↦ hP card hpre.2
  · exact ((call_keeps (P := fun _ ↦ True) .blockMove fun _ _ _ ↦ trivial).pre fun _ _ _ _ ↦ trivial).bind
      fun _ ↦ (save_keeps (P := fun _ ↦ True) .blocked).bind fun _ ↦ triple_pure fun _ _ _ _ ↦ nofun

/-- The response window is honoured; the resume it may allow is of an episode that progressed. -/
theorem continuationRecoveryWindow_triple {P : View → Prop} (hP : ∀ card, P card.view → Assigned card)
    (probe : Probe) (fresh : Bool) (now : ℕ) :
    CardTriple name (fun _ card ↦ P card.view ∧ (fresh = true → card.liveness.recoveryAttempts = 0))
      (continuationRecoveryWindow answers probe fresh now)
      (fun reply _ card ↦ reply = none → P card.view) := by
  refine triple_remembered.bind fun seen ↦ ?_
  refine .ite (fun _ ↦ ?_) fun _ ↦ .ite (fun _ ↦ ?_) fun hrung ↦ .ite (fun _ ↦ ?_) fun _ ↦
    .ite (fun hfresh ↦ ?_) fun _ ↦ ?_
  · exact (restarted_triple _ (fun _ _ _ ↦ nofun)).pre fun _ card _ hpre ↦
      hP card hpre.2.1
  · exact triple_pure fun _ _ _ hpre _ ↦ hpre.2.1
  · exact ((save_keeps (P := fun _ ↦ True) (.window probe)).pre fun _ _ _ _ ↦ trivial).bind fun _ ↦
      triple_pure fun _ _ _ _ ↦ nofun
  · refine (editLiveness_triple (Q := fun _ _ card ↦ P card.view) ?_).bind fun _ ↦
      (save_keeps (.resumeOnce probe)).bind fun _ ↦ triple_pure fun _ _ _ hview _ ↦ hview
    rintro world card ⟨-, hmem⟩ ⟨rfl, hview, htries⟩
    have hwin : seen.liveness.recoveryRung = .responseWindow := not_not.mp hrung
    exact ⟨hmem.driven.setRung (by simp [hwin]) (by simp [hwin]) .resumeOnce nofun _ _ fun _ ↦ htries hfresh,
      fun hspend ↦ absurd hspend (not_spendable_of_rung rfl ⟨nofun, nofun⟩), hview⟩
  · refine (editLiveness_triple (Q := fun _ _ card ↦ Assigned card) ?_).bind fun _ ↦
      (save_keeps (.windowEnded probe)).bind fun _ ↦ restarted_triple _ (fun _ _ _ ↦ nofun)
    rintro world card ⟨-, hmem⟩ ⟨rfl, hview, -⟩
    have hbound := hmem.driven.bound_of_rung (by rw [not_not.mp hrung]; nofun)
    exact ⟨hmem.driven.terminalize hbound _ _, spendable_terminalize, hP seen hview⟩

theorem replaceStalledWorker_triple : CardEnds name Assigned (replaceStalledWorker answers) :=
  triple_remembered.bind fun _ ↦ (restartRedWorker_triple _ false).pre fun _ _ _ hpre ↦ hpre.2

/-- The ladder ends an episode that it climbed. -/
theorem endEpisode_triple (reason : String) :
    CardTriple name (fun _ card ↦ Assigned card ∧ card.liveness.bound = true)
      (editLiveness (·.terminalize .replacement reason)) (fun _ _ card ↦ Assigned card) := by
  refine editLiveness_triple ?_
  rintro _ _ ⟨-, hmem⟩ ⟨hasg, hbound⟩
  exact ⟨hmem.driven.terminalize hbound _ _, spendable_terminalize, hasg⟩

/-- An episode from which the safe recovery may be called. -/
def Callable (liveness : Liveness) : Prop :=
  liveness.admitted = true ∧ liveness.state = .stalled ∧
    (liveness.recoveryRung = .none ∨ liveness.recoveryRung = .unavailable)

theorem Callable.spendable (hcall : Callable liveness) : Spendable liveness :=
  ⟨((admitted_iff liveness).mp hcall.1).1, hcall.2.2⟩

/-- The recovery is recorded, and nothing in memory allows another call. -/
def Recorded (world : CardWorld) (card : Card) : Prop :=
  Assigned card ∧ card.liveness.recoveryRung = .pending ∧ card.liveness.terminal = false ∧ Armed world.trail

theorem beginSafeRecovery_triple (now : ℕ) :
    CardTriple name (fun _ card ↦ Assigned card ∧ Callable card.liveness)
      (editLiveness (·.beginSafeRecovery now)) (fun _ ↦ Recorded) := by
  refine editLiveness_triple ?_
  rintro world card ⟨-, hmem⟩ ⟨hasg, hcall⟩
  have hest := ((admitted_iff card.liveness).mp hcall.1).2.1
  have hstate : card.liveness.state ≠ .baselined := by
    rw [hcall.2.1]
    nofun
  have hopen : card.liveness.recoveryRung ≠ .terminal := by
    rcases hcall.2.2 with hrung | hrung <;> simp [hrung]
  have hdriv : Driven (card.liveness.beginSafeRecovery now) :=
    hmem.driven.climb hest hstate hopen .pending nofun _ _ _ _ nofun
  exact ⟨hdriv, fun hspend ↦ absurd hspend (not_spendable_of_rung rfl ⟨nofun, nofun⟩), hasg,
    rfl, hdriv.not_terminal nofun, hmem.armed hcall.spendable⟩

/-- The call itself, once its intent is on disk. -/
theorem recoveryCall_triple :
    CardTriple name (fun world card ↦ world.card = card ∧ Recorded world card) (mark .recovered)
      (fun _ _ card ↦ Assigned card ∧ card.liveness.recoveryRung = .pending) := by
  refine triple_commit ?_
  rintro world card ⟨hworld, hmem⟩ ⟨hsaved, hasg, hpend, -, harmed⟩
  have hspent : ¬ Spendable card.liveness := not_spendable_of_rung hpend ⟨nofun, nofun⟩
  have hafter : WorldOk name { world with trail := world.trail ++ [.recovered] } :=
    { hworld with
      armed := fun hspend ↦ absurd hspend (hsaved ▸ hspent)
      calls := hworld.calls.concat fun _ ↦ harmed }
  exact ⟨⟨.refl _, hafter⟩, ⟨hafter, { hmem with armed := fun hspend ↦ absurd hspend hspent }⟩, hasg, hpend⟩

/-- The intent of the recovery is on disk before the call, so that nothing on disk or in memory allows
another call. -/
theorem spendSafeRecovery_triple :
    CardTriple name (fun _ card ↦ Assigned card ∧ Callable card.liveness) (spendSafeRecovery answers)
      (fun _ _ _ ↦ True) := by
  refine (beginSafeRecovery_triple _).bind fun _ ↦ (save_triple .recoveryIntent ?_).bind fun _ ↦
    recoveryCall_triple.bind fun _ ↦ triple_remembered.bind fun _ ↦ .ite (fun _ ↦ ?_) fun _ ↦ ?_
  · rintro world card ⟨hasg, hpend, hopen, harmed⟩
    refine ⟨rfl, hasg, hpend, hopen, ?_⟩
    rw [CardWorld.saved, hopen]
    exact harmed
  · refine (editLiveness_triple (Q := fun _ _ _ ↦ True) ?_).bind fun _ ↦
      (save_keeps (P := fun _ ↦ True) .recovered).bind fun _ ↦ triple_done
    rintro world card ⟨-, hmem⟩ ⟨rfl, -, hpend⟩
    exact ⟨hmem.driven.setRung (by simp [hpend]) (by simp [hpend]) .responseWindow nofun _ _ nofun,
      fun hspend ↦ absurd hspend (not_spendable_of_rung rfl ⟨nofun, nofun⟩), trivial⟩
  · refine (editLiveness_triple (Q := fun _ _ card ↦ Assigned card) ?_).bind fun _ ↦
      (save_keeps .recoveryUnavailable).bind fun _ ↦ replaceStalledWorker_triple
    rintro world card ⟨-, hmem⟩ ⟨rfl, hasg, hpend⟩
    have hbound := hmem.driven.bound_of_rung (by simp [hpend])
    exact ⟨(hmem.driven.setRung (by simp [hpend]) (by simp [hpend]) .unavailable nofun _ _
        nofun).terminalize hbound _ _, spendable_terminalize, hasg⟩

/-- The ladder is climbed one rung, or the worker is replaced at its end. -/
theorem advanceNoProgressContinuation_triple :
    CardEnds name Assigned (advanceNoProgressContinuation answers) := by
  have hput : CardEnds name Assigned (do
        let reply ← replaceStalledWorker answers
        pure (some reply)) :=
    replaceStalledWorker_triple.bind fun _ ↦ triple_done
  refine triple_remembered.bind fun seen ↦ ?_
  refine .ite (fun _ ↦ ?_) fun hadm ↦ .ite (fun _ ↦ ?_) fun _ ↦ .ite (fun _ ↦ ?_) fun _ ↦
    .ite (fun hwake ↦ .ite (fun _ ↦ ?_) fun _ ↦ ?_) fun hwake ↦ .ite (fun hpend ↦ ?_)
    fun hpend ↦ .ite (fun _ ↦ ?_) fun hterm ↦ ?_
  · exact (blockUnadmittedContinuationLiveness_triple (fun _ hasg ↦ hasg) _).weaken
      (fun _ _ _ hpre ↦ hpre.2) fun _ _ _ _ _ ↦ trivial
  · exact triple_done
  · exact triple_done
  · refine .bind ((endEpisode_triple _).pre ?_) fun _ ↦ hput
    rintro world card ⟨-, hmem⟩ ⟨rfl, hasg⟩
    exact ⟨hasg, hmem.driven.bound_of_rung (by simp [hwake])⟩
  · exact triple_done
  · refine .bind ((endEpisode_triple _).pre ?_) fun _ ↦
      (save_keeps .recoveryUnconfirmed).bind fun _ ↦ hput
    rintro world card ⟨-, hmem⟩ ⟨rfl, hasg⟩
    exact ⟨hasg, hmem.driven.bound_of_rung (by simp [hpend])⟩
  · exact hput.pre fun _ _ _ hpre ↦ hpre.2
  · refine .bind (spendSafeRecovery_triple.pre ?_) fun _ ↦ triple_done
    rintro world card - ⟨rfl, hasg⟩
    rw [not_or, Bool.not_eq_false, not_not] at hadm
    refine ⟨hasg, hadm.1, hadm.2, ?_⟩
    -- the other rungs were left above
    simp only [Liveness.terminal, Bool.or_eq_true, decide_eq_true_eq, not_or] at hterm
    cases hrung : seen.liveness.recoveryRung <;> simp_all

end Climbing

/-! ### Delivering -/

section Delivering

/-- The red transition is assigned its round and waits for its delivery. -/
def View.awaiting (view : View) : Prop :=
  (view.stage = .redTransitionPending ∨ view.stage = .deliveryPending) ∧ view.reportGeneration = view.reserved

theorem View.awaiting.assigned (hawait : card.view.awaiting) : Assigned card := fun _ ↦ hawait.2

theorem View.awaiting.held {view : View} (hawait : view.awaiting) : view.held := by
  rcases hawait.1 with hred | hpend
  · exact .inl hred
  · exact .inr (.inl hpend)

/-- A later stage of the same transition. -/
theorem MemoryOk.deliver {continuation : WorkerContinuation} (hmem : MemoryOk name world card)
    (hawait : card.view.awaiting)
    (hstage : continuation.stage = .deliveryPending ∨ continuation.stage = .deliveryConfirmed)
    (hresv : continuation.reservedGeneration = card.continuation.reservedGeneration)
    (hbody : continuation.decisionBody = card.continuation.decisionBody) :
    MemoryOk name world { card with continuation } := by
  have hmov : continuation.stage ≠ .redTransitionPending := by
    rcases hstage with hpend | hconf
    · rw [hpend]
      nofun
    · rw [hconf]
      nofun
  refine ⟨hmem.driven, hmem.armed, ?_, ?_⟩
  · exact { hmem.accounts with
      closed := fun hshut ↦ absurd (.inr hstage) hshut
      reserved := fun _ ↦ by
        show continuation.reservedGeneration ≠ 0 ∧ card.reportGeneration ≤ continuation.reservedGeneration
        rw [hresv]
        exact hmem.accounts.reserved hawait.held
      earlier := fun _ round hround hlt ↦ by
        show round.generation < continuation.reservedGeneration
        rw [hresv]
        exact hmem.accounts.earlier hawait.held round hround hlt
      current := fun _ round hround heq ↦ by
        show round.generation = continuation.reservedGeneration ∧ round.decisionBody = continuation.decisionBody
        rw [hresv, hbody]
        exact hmem.accounts.current hawait.held round hround heq
      request := fun hred ↦ absurd hred hmov
      delivered := fun _ ↦ by
        show card.reportGeneration = continuation.reservedGeneration
        rw [hresv]
        exact hawait.2 }
  · intro hheld
    rcases hmem.handed hheld with ⟨-, hsame⟩ | hlaunch | hconf
    · exact .inl ⟨.inr hstage, hsame.transition, hsame.reserved.trans hresv.symm,
        hsame.decisionBody.trans hbody.symm, fun hred ↦ absurd hred hmov⟩
    · exact .inr (.inl hlaunch)
    · exact .inr (.inr hconf)

/-- A change of the busy clock. -/
theorem busyClock_triple {P : View → Prop} {f : Card → Card}
    (hf : ∀ card, (f card).view = card.view ∧ (f card).liveness = card.liveness) :
    CardTriple name (fun _ card ↦ P card.view) (Durable.remember f) (fun _ _ card ↦ P card.view) := by
  refine triple_remember ?_
  rintro _ card ⟨hworld, hmem⟩ hview
  obtain ⟨hsame, hlive⟩ := hf card
  exact ⟨⟨hworld, hmem.edit hsame (hlive ▸ hmem.driven) (hlive ▸ hmem.armed)⟩, hsame ▸ hview⟩

theorem deferBusyDelivery_triple (fresh : Bool) :
    CardEnds name (·.view.awaiting) (deferBusyDelivery answers fresh) := by
  refine triple_remembered.bind fun _ ↦ .ite (fun _ ↦ ?_) fun _ ↦ .ite (fun _ ↦ ?_) fun hstall ↦ ?_
  · refine ((busyClock_triple ?_).pre fun _ _ _ hpre ↦ hpre.2).bind fun _ ↦
      (save_keeps .busyProgress).bind fun _ ↦ triple_done
    exact fun _ ↦ ⟨rfl, rfl⟩
  · refine ((busyClock_triple ?_).pre fun _ _ _ hpre ↦ hpre.2).bind fun _ ↦
      (save_keeps .busyBaseline).bind fun _ ↦ triple_done
    exact fun _ ↦ ⟨rfl, rfl⟩
  · refine (editLiveness_triple (Q := fun _ _ card ↦ card.view.awaiting) ?_).bind fun _ ↦
      (editLiveness_triple (Q := fun _ _ card ↦ card.view.awaiting) ?_).bind fun _ ↦
      (busyClock_triple ?_).bind fun _ ↦ (save_keeps .busy).bind fun _ ↦
      (advanceNoProgressContinuation_triple.pre fun _ _ _ hawait ↦ hawait.assigned).orEnd
        (triple_remembered.bind fun _ ↦ triple_done) ⟨_, rfl⟩
    · rintro world card ⟨-, hmem⟩ ⟨rfl, hawait⟩
      have hbound := hmem.driven.bound_of_state (by rw [not_not.mp hstall]; nofun)
      exact ⟨hmem.driven.noProgressEvidence hbound _, hmem.armed, hawait⟩
    · rintro world card ⟨-, hmem⟩ hawait
      refine ⟨hmem.driven.noteBusy _, fun hspend ↦ hmem.armed ?_, hawait⟩
      rcases noteBusy_cases card.liveness (answers.clock .noteBusy) with hidle | ⟨-, -, _, hnoted⟩
      · rwa [hidle] at hspend
      · rw [hnoted] at hspend
        exact hspend
    · exact fun _ ↦ ⟨rfl, rfl⟩

theorem confirmDelivery_triple :
    CardTriple name (fun _ card ↦ card.view.awaiting) (editContinuation (·.confirmDelivery))
      (fun _ _ card ↦ card.continuation.stage = .deliveryConfirmed ∧ Assigned card) := by
  refine editContinuation_triple ?_
  rintro _ _ _ ⟨-, hmem⟩ hawait hconf
  unfold WorkerContinuation.confirmDelivery at hconf
  split at hconf <;> cases hconf
  all_goals exact ⟨hmem.deliver hawait (.inr rfl) rfl rfl, rfl, fun _ ↦ hawait.2⟩

theorem finishConfirmed_triple (point : SavePoint) :
    CardEnds name (·.view.awaiting) (do
        editContinuation (·.confirmDelivery)
        save answers point
        finishRetainedWorkerResume answers) := by
  refine confirmDelivery_triple.bind fun _ ↦ (save_triple point ?_).bind fun _ ↦
    finishRetainedWorkerResume_triple
  exact fun _ _ hpre ↦ ⟨hpre.1, rfl, hpre.2⟩

theorem resumeRetainedWorker_triple (fresh : Bool) :
    CardEnds name (·.view.awaiting) (resumeRetainedWorker answers fresh) := by
  refine (call_keeps .resume fun _ _ hawait ↦ hawait).bind fun _ ↦ ?_
  cases answers.resume with
  | busy => exact deferBusyDelivery_triple fresh
  | refused why =>
    exact (save_keeps .failed).bind fun _ ↦ (restartRedWorker_triple why false).pre fun _ _ _ hawait ↦ hawait.assigned
  | delivered => exact finishConfirmed_triple .confirmed

/-- The transition awaits its delivery, and an observation of progress was just made or none. -/
def Sampled (observation : Observation) (card : Card) : Prop :=
  card.view.awaiting ∧ (observation = .progressed → card.liveness.recoveryAttempts = 0)

theorem observe_sampled (probe : Probe) :
    CardTriple name (fun _ card ↦ card.view.awaiting) (observeRetainedContinuationProgress answers probe)
      (fun observation _ card ↦ Sampled observation card) :=
  observeRetainedContinuationProgress_triple probe

theorem block_sampled (observation : Observation) :
    CardTriple name (fun _ card ↦ Sampled observation card) (blockUnadmittedContinuationLiveness answers observation)
      (fun reply _ card ↦ reply = none → Sampled observation card) :=
  blockUnadmittedContinuationLiveness_triple (fun _ hseen ↦ hseen.1.assigned) observation

theorem window_sampled (probe : Probe) (observation : Observation) (now : ℕ) :
    CardTriple name (fun _ card ↦ Sampled observation card)
      (continuationRecoveryWindow answers probe (observation = .progressed) now)
      (fun reply _ card ↦ reply = none → card.view.awaiting) :=
  (continuationRecoveryWindow_triple (fun _ hawait ↦ hawait.assigned) probe _ now).pre
    fun _ _ _ hseen ↦ ⟨hseen.1, fun hfresh ↦ hseen.2 (of_decide_eq_true hfresh)⟩

/-- A new episode is begun behind its mark. -/
theorem openDelivery_triple (phase : String) :
    CardTriple name (fun _ card ↦ card.view.awaiting ∧ card.continuation.stage = .redTransitionPending)
      (openDelivery answers phase) (fun _ _ _ ↦ True) := by
  refine (editContinuation_triple (Q := fun _ _ card ↦ card.view.awaiting) ?_).bind fun _ ↦
    (mark_triple (.inl rfl) (Q := fun _ world card ↦ card.view.awaiting ∧ Armed world.trail) ?_).bind fun _ ↦
    (triple_remember (Q := fun _ _ card ↦ card.view.awaiting) ?_).bind fun _ ↦
    (observe_sampled .opening).bind fun obs ↦ ?_
  · rintro world card _ ⟨-, hmem⟩ ⟨hawait, hred⟩ hbegin
    unfold WorkerContinuation.beginDelivery at hbegin
    rw [hred] at hbegin
    cases hbegin
    exact ⟨hmem.deliver hawait (.inl rfl) rfl rfl, .inr rfl, hawait.2⟩
  · exact fun _ _ hawait ↦ ⟨hawait, armed_concat (.inl rfl)⟩
  · rintro world card ⟨hworld, hmem⟩ ⟨hawait, harmed⟩
    exact ⟨⟨hworld, hmem.edit rfl (begin_driven _) fun _ ↦ harmed⟩, hawait⟩
  · exact (block_sampled obs).orEnd (((save_keeps .boundary).pre fun _ _ _ hseen ↦ hseen rfl).bind fun _ ↦
      (window_sampled .opening obs _).orEnd
        ((resumeRetainedWorker_triple _).pre fun _ _ _ hawait ↦ hawait rfl) ⟨_, rfl⟩) ⟨_, rfl⟩

theorem deliverTo_triple (phase : String) (opening fresh : Bool) :
    CardTriple name
      (fun _ card ↦ card.view.awaiting ∧ (opening = true → card.continuation.stage = .redTransitionPending))
      (deliverTo answers phase opening fresh) (fun _ _ _ ↦ True) := by
  refine triple_remembered.bind fun _ ↦ .ite (fun _ ↦ ?_) fun _ ↦ ?_
  · refine ((call_keeps .confirmRetained fun _ _ hpre ↦ hpre).pre fun _ _ _ hpre ↦ hpre.2).bind fun _ ↦ ?_
    cases answers.retainedRefused with
    | some why =>
      exact (stopWorkerConfirmed_triple.pre fun _ _ _ hpre ↦ hpre.1.assigned).orEnd
        (restartRedWorker_triple why true) ⟨_, rfl⟩
    | none =>
      refine .ite (fun hopen ↦ ?_) fun _ ↦ ?_
      · exact (openDelivery_triple phase).pre fun _ _ _ hpre ↦ ⟨hpre.1, hpre.2 hopen⟩
      · exact ((save_keeps .boundary).pre fun _ _ _ hpre ↦ hpre.1).bind fun _ ↦
          resumeRetainedWorker_triple fresh
  · exact (restartRedWorker_triple _ false).pre fun _ _ _ hpre ↦ hpre.2.1.assigned

/-- The single resume is spent on disk before the pane is touched. -/
theorem spendResume_triple (phase : String) (fresh : Bool) :
    CardEnds name (·.view.awaiting) (spendResume answers phase fresh) := by
  have hsend : CardEnds name (·.view.awaiting) (deliverTo answers phase false fresh) :=
    (deliverTo_triple phase false fresh).pre fun _ _ _ hawait ↦ ⟨hawait, nofun⟩
  refine triple_remembered.bind fun seen ↦ .ite (fun hwake ↦ ?_) fun _ ↦
    hsend.pre fun _ _ _ hpre ↦ hpre.2
  cases hallow : seen.liveness.allowSafeRecoveryResumeOnce with
  | none =>
    refine ((endEpisode_triple _).pre ?_).bind fun _ ↦ (save_keeps .resumeSpent).bind fun _ ↦
      restartRedWorker_triple _ false
    rintro world card ⟨-, hmem⟩ ⟨rfl, hawait⟩
    exact ⟨hawait.assigned, hmem.driven.bound_of_rung (by simp [hwake])⟩
  | some _ =>
    refine (editLiveness_triple (Q := fun _ _ card ↦ card.view.awaiting) ?_).bind fun _ ↦
      (save_keeps .resumeAllowed).bind fun _ ↦ hsend
    rintro world card ⟨-, hmem⟩ ⟨rfl, hawait⟩
    unfold Liveness.allowSafeRecoveryResumeOnce at hallow
    split_ifs at hallow
    cases hallow
    exact ⟨hmem.driven.setRung (by simp [hwake]) (by simp [hwake]) seen.liveness.recoveryRung
        (by simp [hwake]) _ true hmem.driven.resumed, hmem.armed, hawait⟩

theorem deliverRedContinuation_triple (phase : String) :
    CardEnds name (·.view.awaiting) (deliverRedContinuation answers phase) := by
  refine triple_remembered.bind fun _ ↦ .ite (fun _ ↦ ?_) fun hopen ↦ ?_
  · exact ((observe_sampled .reentered).pre fun _ _ _ hpre ↦ hpre.2).bind fun observation ↦
      (block_sampled observation).orEnd
        (((window_sampled .reentered observation _).pre fun _ _ _ hseen ↦ hseen rfl).orEnd
          ((spendResume_triple phase _).pre fun _ _ _ hawait ↦ hawait rfl) ⟨_, rfl⟩) ⟨_, rfl⟩
  · refine (deliverTo_triple phase true false).pre ?_
    rintro _ _ - ⟨rfl, hawait⟩
    refine ⟨hawait, fun _ ↦ ?_⟩
    rcases hawait.1 with hred | hpend
    · exact hred
    · exact absurd hpend hopen

end Delivering

/-! ### Opening and completing a transition -/

section Transitions

/-- The transition that memory completes is the one on disk. -/
def Matched (world : CardWorld) (card : Card) : Prop :=
  card.view.stage = .redTransitionPending ∧ world.card.view.held ∧ SameTransition world.card.view card.view

theorem Matched.held (hmatch : Matched world card) : card.view.held := .inl hmatch.1

theorem Matched.requestId_eq (hmatch : Matched world card) :
    world.card.view.requestId name = card.view.requestId name := by
  obtain ⟨-, hphase, hbase, hattempt⟩ := hmatch.2.2.request hmatch.1
  simp only [View.requestId, hphase, hbase, hattempt]

theorem matched_call (point : CallPoint) {P : Card → Prop}
    (hrun : ∀ card run, P card → P { card with workerHeadRun := run }) :
    CardTriple name (fun world card ↦ Matched world card ∧ P card) (call answers point)
      (fun _ world card ↦ Matched world card ∧ P card) :=
  call_triple point (fun _ card run hpre ↦ ⟨hpre.1, hrun card run hpre.2⟩)
    fun _ card hpre ↦ ⟨⟨hpre.1.1, hpre.1.held, .refl card.view⟩, hpre.2⟩

theorem forall_mem_concat {α : Type} {p : α → Prop} {items : List α} {item : α} (hitems : ∀ other ∈ items, p other)
    (hitem : p item) : ∀ other ∈ items ++ [item], p other :=
  List.forall_mem_append.mpr ⟨hitems, List.forall_mem_singleton.mpr hitem⟩

/-- Another move by the request of the open transition. -/
theorem Accounts.addMove {view : View} {move : RedMove} (hacct : Accounts name moves rounds view)
    (htrans : move.transition = view.transition)
    (hreq : view.stage = .redTransitionPending → move.requestId = view.requestId name) :
    Accounts name (moves ++ [move]) rounds view :=
  { hacct with
    moves_le := forall_mem_concat hacct.moves_le htrans.le
    request := fun hred ↦ forall_mem_concat (hacct.request hred) fun _ ↦ hreq hred }

theorem MovesAgree.concat {move : RedMove} (hagree : MovesAgree moves)
    (hnew : ∀ other ∈ moves, other.transition = move.transition → other.requestId = move.requestId) :
    MovesAgree (moves ++ [move]) := by
  intro a hfst b hsnd hsame
  rw [List.mem_append, List.mem_singleton] at hfst hsnd
  rcases hfst with hfst | rfl <;> rcases hsnd with hsnd | rfl
  · exact hagree a hfst b hsnd hsame
  · exact hnew a hfst hsame
  · exact (hnew b hsnd hsame.symm).symm
  · rfl

theorem redMove_requestId (name : CardName) (card : Card) :
    (card.redMove name).requestId = card.view.requestId name := by
  simp only [redMove, View.requestId, view]
  congr 1

/-- The board move of a completion. -/
theorem redMove_triple (seen : Card) :
    CardTriple name (fun world card ↦ Matched world card ∧ card.view = seen.view)
      (Durable.commit fun world ↦ { world with moves := world.moves ++ [seen.redMove name] })
      (fun _ world card ↦ Matched world card ∧ True) := by
  refine triple_commit ?_
  rintro world card ⟨hworld, hmem⟩ ⟨hmatch, hview⟩
  have hreq : (seen.redMove name).requestId = card.view.requestId name :=
    hview ▸ redMove_requestId name seen
  have htrans : (seen.redMove name).transition = card.view.transition := by
    rw [hview]
    rfl
  have hmoves : MovesAgree (world.moves ++ [seen.redMove name]) :=
    hworld.moves.concat fun o hoth hsame ↦
      (hmem.accounts.request hmatch.1 o hoth (hsame.trans htrans)).trans hreq.symm
  have hdisk : Accounts name (world.moves ++ [seen.redMove name]) world.rounds world.card.view :=
    hworld.accounts.addMove (htrans.trans hmatch.2.2.transition.symm) fun _ ↦ hreq.trans hmatch.requestId_eq.symm
  have hacct : Accounts name (world.moves ++ [seen.redMove name]) world.rounds card.view :=
    hmem.accounts.addMove htrans fun _ ↦ hreq
  have hafter : WorldOk name { world with moves := world.moves ++ [seen.redMove name] } :=
    { hworld with moves := hmoves, accounts := hdisk }
  exact ⟨⟨.refl _, hafter⟩, ⟨hafter, { hmem with accounts := hacct }⟩, hmatch, trivial⟩

/-- Another completion of the open transition. -/
theorem Accounts.addRound {view : View} {round : Round} (hacct : Accounts name moves rounds view)
    (hheld : view.held) (htrans : round.transition = view.transition)
    (hround : round.generation = view.reserved ∧ round.decisionBody = view.decisionBody) :
    Accounts name moves (rounds ++ [round]) view :=
  { hacct with
    rounds_le := forall_mem_concat hacct.rounds_le htrans.le
    closed := fun hshut ↦ absurd hheld hshut
    earlier := fun _ ↦ forall_mem_concat (hacct.earlier hheld) fun hlt ↦ absurd htrans hlt.ne
    current := fun _ ↦ forall_mem_concat (hacct.current hheld) fun _ ↦ hround }

theorem RoundsAgree.concat {round : Round} (hagree : RoundsAgree rounds)
    (hnew : ∀ other ∈ rounds, other.transition = round.transition ∧ other = round ∨
      other.transition < round.transition ∧ other.generation < round.generation) :
    RoundsAgree (rounds ++ [round]) := by
  intro a hfst b hsnd
  rw [List.mem_append, List.mem_singleton] at hfst hsnd
  rcases hfst with hfst | rfl <;> rcases hsnd with hsnd | rfl
  · exact hagree a hfst b hsnd
  · rcases hnew a hfst with ⟨htrans, rfl⟩ | ⟨hlt, hgen⟩
    · exact ⟨fun _ ↦ rfl, fun hself ↦ absurd hself (lt_irrefl _)⟩
    · exact ⟨fun hsame ↦ absurd hsame hlt.ne, fun _ ↦ hgen⟩
  · rcases hnew b hsnd with ⟨htrans, rfl⟩ | ⟨hlt, -⟩
    · exact ⟨fun _ ↦ rfl, fun hself ↦ absurd hself (lt_irrefl _)⟩
    · exact ⟨fun hsame ↦ absurd hsame.symm hlt.ne, fun hgreater ↦ absurd hgreater hlt.not_gt⟩
  · exact ⟨fun _ ↦ rfl, fun hself ↦ absurd hself (lt_irrefl _)⟩

/-- The completion assigns the reserved round. -/
theorem completed_triple (comments : ℕ) :
    CardTriple name (fun world card ↦ Matched world card ∧ True) (Durable.remember (·.completed comments))
      (fun _ world card ↦ Matched world card ∧ card.view.awaiting) := by
  refine triple_remember ?_
  rintro _ card ⟨hworld, hmem⟩ ⟨hmatch, -⟩
  have hresv := hmem.accounts.reserved hmatch.held
  have hgen : (card.completed comments).reportGeneration = card.continuation.reservedGeneration :=
    if_neg hresv.1
  have hheld : (card.completed comments).view.held := hmatch.held
  refine ⟨⟨hworld, hmem.driven, hmem.armed, ?_, fun _ ↦ .inl ⟨hheld, ?_⟩⟩, ?_, .inl hmatch.1, hgen⟩
  · exact { hmem.accounts with
      closed := fun hshut ↦ absurd hheld hshut
      reserved := fun _ ↦ ⟨hresv.1, hgen.le⟩
      earlier := fun _ ↦ hmem.accounts.earlier hmatch.held
      current := fun _ ↦ hmem.accounts.current hmatch.held
      delivered := fun _ ↦ hgen }
  · obtain ⟨htrans, hreserve, hbody, hreq⟩ := hmatch.2.2
    exact ⟨htrans, hreserve, hbody, hreq⟩
  · obtain ⟨htrans, hreserve, hbody, hreq⟩ := hmatch.2.2
    exact ⟨hmatch.1, hmatch.2.1, htrans, hreserve, hbody, hreq⟩

/-- The round that a completion logs. -/
theorem round_triple (assigned : Card) :
    CardTriple name (fun world card ↦ assigned = card ∧ (Matched world card ∧ card.view.awaiting) ∧
        card.reportDecision = card.continuation.decisionBody)
      (Durable.commit fun world ↦ { world with rounds := world.rounds ++ [assigned.round] })
      (fun _ _ card ↦ card.view.awaiting) := by
  refine triple_commit ?_
  rintro world _ ⟨hworld, hmem⟩ ⟨rfl, ⟨hmatch, hawait⟩, hbody⟩
  have hsame := hmatch.2.2
  have hnew : ∀ o ∈ world.rounds, o.transition = assigned.round.transition ∧ o = assigned.round ∨
      o.transition < assigned.round.transition ∧ o.generation < assigned.round.generation := by
    intro o hoth
    rcases (hmem.accounts.rounds_le o hoth).lt_or_eq with hearl | hcur
    · right
      refine ⟨hearl, ?_⟩
      show o.generation < assigned.reportGeneration
      rw [show assigned.reportGeneration = assigned.view.reserved from hawait.2]
      exact hmem.accounts.earlier hmatch.held o hoth hearl
    · left
      obtain ⟨hgen, hdec⟩ := hmem.accounts.current hmatch.held o hoth hcur
      refine ⟨hcur, ?_⟩
      cases o
      simp only [Card.round, Round.mk.injEq]
      exact ⟨hcur, hgen.trans hawait.2.symm, hdec.trans hbody.symm⟩
  have hafter : WorldOk name { world with rounds := world.rounds ++ [assigned.round] } :=
    { hworld with
      rounds := hworld.rounds.concat hnew
      accounts := hworld.accounts.addRound hmatch.2.1 hsame.transition.symm
        ⟨hawait.2.trans hsame.reserved.symm, hbody.trans hsame.decisionBody.symm⟩ }
  have hacct : Accounts name world.moves (world.rounds ++ [assigned.round]) assigned.view :=
    hmem.accounts.addRound hmatch.held rfl ⟨hawait.2, hbody⟩
  exact ⟨⟨.refl _, hafter⟩, ⟨hafter, { hmem with accounts := hacct }⟩, hawait⟩

theorem completeRedTransition_triple :
    CardTriple name Matched (completeRedTransition answers name) (fun _ _ _ ↦ True) := by
  have hcall {P : Card → Prop} (condition : Bool) (point : CallPoint)
      (hrun : ∀ card run, P card → P { card with workerHeadRun := run }) :
      CardTriple name (fun world card ↦ Matched world card ∧ P card)
        (provided condition (call answers point)) (fun _ world card ↦ Matched world card ∧ P card) :=
    provided_triple (fun _ ↦ matched_call point hrun) fun _ _ _ _ hpre ↦ hpre
  refine triple_remembered.bind fun seen ↦ ?_
  refine ((hcall (P := fun card ↦ card.view = seen.view) _ .verdictRouting fun _ _ hview ↦ hview).pre ?_).bind
    fun _ ↦ (redMove_triple seen).bind fun _ ↦ (matched_call .redMove fun _ _ _ ↦ trivial).bind fun _ ↦
    (matched_call .showMoved fun _ _ _ ↦ trivial).bind fun _ ↦ (completed_triple _).bind fun _ ↦
    (hcall _ .snapshotSuccessor fun _ _ hawait ↦ hawait).bind fun _ ↦
    (triple_remember (Q := fun _ world card ↦ (Matched world card ∧ card.view.awaiting) ∧
      card.reportDecision = card.continuation.decisionBody) ?_).bind fun _ ↦
    triple_remembered.bind fun assigned ↦ (round_triple assigned).bind fun _ ↦
    (save_keeps .completed).bind fun _ ↦ deliverRedContinuation_triple _
  · rintro world card - ⟨rfl, hmatch⟩
    exact ⟨hmatch, rfl⟩
  · rintro world card ⟨hworld, hmem⟩ hpre
    exact ⟨⟨hworld, hmem.edit rfl hmem.driven hmem.armed⟩, hpre, rfl⟩

/-- A new transition reserves the generation after the card's, under a number of its own. -/
theorem openRedTransition_triple (opening : Opening) :
    CardTriple name (fun _ _ ↦ True) (openRedTransition opening)
      (fun _ _ card ↦ card.continuation.stage = .redTransitionPending) := by
  refine triple_remembered.bind fun seen ↦ ?_
  cases hbegin : seen.continuation.beginRedTransition opening (seen.reportGeneration + 1) with
  | error _ => exact triple_throw
  | ok continuation =>
    refine triple_remember ?_
    rintro world _ ⟨hworld, hmem⟩ ⟨rfl, -⟩
    have hopened : ¬ seen.view.held ∧ continuation.stage = .redTransitionPending ∧
        continuation.reservedGeneration = seen.reportGeneration + 1 := by
      unfold WorkerContinuation.beginRedTransition at hbegin
      split at hbegin <;> cases hbegin <;> rename_i hstage <;>
        exact ⟨by simp [View.held, view, hstage], rfl, rfl⟩
    obtain ⟨hshut, hstage, _⟩ := hopened
    have hfresh : ∀ round ∈ world.rounds, round.transition < seen.transition + 1 :=
      fun round hround ↦ Nat.lt_succ_of_le (hmem.accounts.rounds_le round hround)
    have hacct : Accounts name world.moves world.rounds
        { seen with continuation, transition := seen.transition + 1 }.view := {
      rounds_le := fun round hround ↦ (hfresh round hround).le
      moves_le := fun move hmove ↦ (hmem.accounts.moves_le move hmove).trans (Nat.le_succ _)
      closed := fun hopen ↦ absurd (.inl hstage) hopen
      reserved := fun _ ↦ by
        show continuation.reservedGeneration ≠ 0 ∧ seen.reportGeneration ≤ continuation.reservedGeneration
        omega
      earlier := fun _ round hround _ ↦ by
        show round.generation < continuation.reservedGeneration
        have hgen : round.generation ≤ seen.reportGeneration :=
          hmem.accounts.closed hshut round hround
        omega
      current := fun _ round hround hcur ↦ absurd hcur (hfresh round hround).ne
      request := fun _ move hmove hcur ↦
        absurd hcur (Nat.lt_succ_of_le (hmem.accounts.moves_le move hmove)).ne
      delivered := by
        rintro (hpend | hconf)
        · exact nomatch hstage.symm.trans hpend
        · exact nomatch hstage.symm.trans hconf }
    exact ⟨⟨hworld, hmem.driven, hmem.armed, hacct, hmem.handed.closedEdit hshut rfl rfl⟩, hstage⟩

theorem beginRedTransition_triple (opening : Opening) :
    CardTriple name (fun _ _ ↦ True) (beginRedTransition answers name opening) (fun _ _ _ ↦ True) := by
  refine (openRedTransition_triple opening).bind fun _ ↦ (save_triple .opened ?_).bind fun _ ↦
    completeRedTransition_triple
  exact fun _ card hred ↦ ⟨hred, .inl hred, .refl card.view⟩

end Transitions

/-! ### Ticks -/

section Ticks

/-- The memory of a tick that has done nothing yet. -/
def Loaded (world : CardWorld) (card : Card) : Prop := card = world.card.reload

theorem reload_stage (continuation : WorkerContinuation) : continuation.reload.stage = continuation.stage := by
  unfold WorkerContinuation.reload
  split
  · rename_i hnone
    exact hnone.symm
  · rfl

/-- A card with a transition open is read back with it. -/
theorem reload_view_of_held (card : Card) (hheld : card.view.held) : card.reload.view = card.view := by
  have hstage : card.continuation.stage ≠ .none := by
    rcases hheld with hred | hpend | hconf <;> simp_all [view]
  unfold reload WorkerContinuation.reload
  rw [if_neg hstage]
  rfl

theorem reload_held_iff (card : Card) : card.reload.view.held ↔ card.view.held := by
  simp only [View.held, view, reload, reload_stage]

theorem reload_spendable (hspend : Spendable liveness.reload) : Spendable liveness := by
  rcases reload_cases liveness with ⟨_, _, hlost, -⟩ | ⟨hkept, -⟩
  · rw [hlost] at hspend
    exact nomatch hspend.1
  · rw [hkept] at hspend
    exact hspend

/-- A tick starts where the invariant holds. -/
theorem loaded_inv (hworld : WorldOk name world) : CardInv name world (loadCard world) := by
  refine ⟨hworld, hworld.driven.reload, fun hspend ↦ hworld.armed (reload_spendable hspend), ?_, ?_⟩
  · by_cases hheld : world.card.view.held
    · exact reload_view_of_held world.card hheld ▸ hworld.accounts
    · have hshut : ¬ (loadCard world).view.held := fun hopen ↦ hheld ((reload_held_iff world.card).mp hopen)
      exact .of_closed hshut (fun round hround ↦ ⟨hworld.accounts.rounds_le round hround,
        hworld.accounts.closed hheld round hround⟩) hworld.accounts.moves_le
  · intro hheld
    have hview : (loadCard world).view = world.card.view := reload_view_of_held world.card hheld
    exact hview ▸ HandedOn.refl world.card.view hheld

theorem Loaded.matched (hload : Loaded world card)
    (hred : card.continuation.stage = .redTransitionPending) : Matched world card := by
  subst hload
  have hheld : world.card.view.held := (reload_held_iff world.card).mp (.inl hred)
  exact ⟨hred, hheld, reload_view_of_held world.card hheld ▸ .refl _⟩

theorem recoverDelivery_triple : CardEnds name (·.view.awaiting) (recoverDelivery answers) := by
  refine (observe_sampled .recovering).bind fun obs ↦ (block_sampled obs).orEnd
    (((window_sampled .recovering obs _).pre fun _ _ _ hseen ↦ hseen rfl).orEnd ?_ ⟨_, rfl⟩) ⟨_, rfl⟩
  refine ((save_keeps .observed).pre fun _ _ _ hawait ↦ hawait rfl).bind fun _ ↦
    triple_remembered.bind fun _ ↦ .ite (fun _ ↦ ?_) fun _ ↦ .ite (fun _ ↦ triple_done) fun _ ↦ ?_
  · refine ((busyClock_triple ?_).pre fun _ _ _ hpre ↦ hpre.2).bind fun _ ↦ triple_done
    exact fun _ ↦ ⟨rfl, rfl⟩
  · exact (deliverRedContinuation_triple _).pre fun _ _ _ hpre ↦ hpre.2

/-- A card that recovery has nothing to do with is one without an open transition. -/
theorem recoverWorkerContinuation_triple (marker : ReportMarker) :
    CardTriple name (fun world card ↦ Loaded world card ∧ card.continuation.stage ≠ .redTransitionPending)
      (recoverWorkerContinuation answers marker) (fun reply world card ↦ reply = none → Released world card) := by
  have hawait : ∀ world card, CardInv name world card → card.continuation.stage = .deliveryPending →
      card.view.awaiting := fun _ _ hinv hpend ↦
    ⟨.inr hpend, hinv.2.accounts.delivered (.inl hpend)⟩
  refine triple_remembered.bind fun seen ↦ .ite (fun hpend ↦ .ite (fun _ ↦ ?_) fun _ ↦ ?_)
    fun hpend ↦ .ite (fun hconf ↦ ?_) fun hconf ↦ ?_
  · refine (recoverDelivery_triple.pre ?_).bind fun _ ↦ triple_pure fun _ _ _ _ ↦ nofun
    rintro world card hinv ⟨rfl, -⟩
    exact hawait world seen hinv hpend
  · refine (confirmDelivery_triple.pre ?_).bind fun _ ↦
      (save_triple .reported fun _ _ hpre ↦ ⟨hpre.1, rfl, hpre.2⟩).bind fun _ ↦
      finishRetainedWorkerResume_triple.bind fun _ ↦ triple_pure fun _ _ _ _ ↦ nofun
    rintro world card hinv ⟨rfl, -⟩
    exact hawait world seen hinv hpend
  · refine (finishRetainedWorkerResume_triple.pre ?_).bind fun _ ↦ triple_pure fun _ _ _ _ ↦ nofun
    rintro world card hinv ⟨rfl, hload, -⟩
    have hasg : Assigned seen := fun _ ↦ hinv.2.accounts.delivered (.inr hconf)
    subst hload
    exact ⟨(reload_stage world.card.continuation).symm.trans hconf, rfl, hasg⟩
  · refine triple_pure ?_
    rintro world card - ⟨rfl, hload, hred⟩ -
    have hshut : ¬ seen.view.held := by
      rintro (hopen | hopen | hopen)
      · exact hred hopen
      · exact hpend hopen
      · exact hconf hopen
    refine ⟨fun hheld ↦ hshut ?_, hshut⟩
    rw [hload]
    exact (reload_held_iff world.card).mpr hheld

/-- A change between stages without an open transition. -/
theorem editClosed_triple {f : WorkerContinuation → Except Fault WorkerContinuation}
    (hf : ∀ world card continuation, P world card → f card.continuation = .ok continuation →
      ¬ card.view.held ∧ ¬ { card with continuation }.view.held) :
    CardTriple name P (editContinuation f) (fun _ _ card ↦ ¬ card.view.held) := by
  refine editContinuation_triple ?_
  rintro world card continuation ⟨-, hmem⟩ hp hchg
  obtain ⟨hbefore, hafter⟩ := hf world card continuation hp hchg
  exact ⟨hmem.settledEdit (fun hopen ↦ absurd hopen hbefore) hafter rfl rfl le_rfl
    (hmem.handed.closedEdit hbefore rfl rfl), hafter⟩

theorem confirmValidationMove_triple :
    CardTriple name P (editContinuation (·.confirmValidationMove)) (fun _ _ card ↦ ¬ card.view.held) := by
  refine editClosed_triple ?_
  intro _ _ _ _ hconf
  unfold WorkerContinuation.confirmValidationMove at hconf
  split at hconf <;> cases hconf <;> rename_i hstage <;> simp [View.held, view, hstage]

theorem freezeWorker_released :
    CardTriple name Released (freezeWorker answers) (fun _ ↦ Released) := by
  refine .ite (fun _ ↦ stopWorkerConfirmed_released) fun _ ↦ ?_
  refine (editContinuation_triple (Q := fun _ ↦ Released) ?_).bind fun _ ↦ triple_pure fun _ _ _ hrel ↦ hrel
  rintro _ card _ ⟨-, hmem⟩ hrel hretain
  cases hretain
  have hafter : ¬ { card with
      continuation := card.continuation.beginRetention (answers.clock .retained) }.view.held := by
    rintro (hopen | hopen | hopen) <;> cases hopen
  exact ⟨hmem.settledEdit (fun hopen ↦ absurd hopen hrel.2) hafter rfl rfl le_rfl fun hheld ↦ absurd hheld hrel.1,
    hrel.1, hafter⟩

theorem blockRepeatedDone_triple (reason : String) :
    CardTriple name Released (blockRepeatedDone answers reason) (fun _ _ _ ↦ True) :=
  (call_released .blockMove).bind fun _ ↦ (save_released .blocked).bind fun _ ↦ triple_done

/-- A bounced report opens a later round, with no transition open. -/
theorem bounceStaleDone_triple (attemptRound : ℕ) :
    CardTriple name Released (bounceStaleDone answers attemptRound) (fun _ _ _ ↦ True) := by
  refine (call_released .staleComment).bind fun _ ↦ (remember_released ?_).bind fun _ ↦
    (writeWorkerRelaunchIntent_released attemptRound).orEnd
      ((bringUpWorkerHead_triple attemptRound).bind fun _ ↦ triple_done) ⟨_, rfl⟩
  exact fun card hshut ↦ ⟨hshut, rfl, rfl, Nat.le_succ card.reportGeneration⟩

theorem rejectStaleDone_triple :
    CardTriple name Released (rejectStaleDone answers) (fun _ _ _ ↦ True) := by
  refine triple_remembered.bind fun seen ↦
    (stopWorkerConfirmed_released.pre fun _ _ _ hpre ↦ hpre.2).orEnd ((remember_released ?_).bind fun _ ↦
      .ite (fun _ ↦ blockRepeatedDone_triple _) fun _ ↦ bounceStaleDone_triple seen.attemptRound) ⟨_, rfl⟩
  exact fun _ hshut ↦ ⟨hshut, rfl, rfl, le_rfl⟩

theorem acceptStaleInfrastructureDone_triple :
    CardTriple name Released (acceptStaleInfrastructureDone answers) (fun _ _ _ ↦ True) := by
  refine triple_remembered.bind fun _ ↦ .ite (fun _ ↦ ?_) fun _ ↦ ?_
  · exact (stopWorkerConfirmed_released.pre fun _ _ _ hpre ↦ hpre.2).orEnd (blockRepeatedDone_triple "") ⟨_, rfl⟩
  · refine (freezeWorker_released.pre fun _ _ _ hpre ↦ hpre.2).orEnd ((remember_released ?_).bind fun _ ↦
      (call_released .staleComment).bind fun _ ↦ (remember_released ?_).bind fun _ ↦
      (save_released .reportAccepted).bind fun _ ↦ (call_released .validateMove).bind fun _ ↦
      (save_released .validateMoved).bind fun _ ↦ triple_done) ⟨_, rfl⟩
    all_goals exact fun _ hshut ↦ ⟨hshut, rfl, rfl, le_rfl⟩

theorem acceptDone_triple : CardTriple name Released (acceptDone answers) (fun _ _ _ ↦ True) := by
  refine (remember_released ?_).bind fun _ ↦ freezeWorker_released.orEnd
    ((save_released .reportAccepted).bind fun _ ↦ (call_released .validateMove).bind fun _ ↦
      triple_remembered.bind fun _ ↦
      (provided_triple (fun _ ↦ confirmValidationMove_triple) fun _ _ _ _ hpre ↦ hpre.2.2).bind fun _ ↦
      (save_keeps .validateMoved).bind fun _ ↦ triple_done) ⟨_, rfl⟩
  exact fun _ hshut ↦ ⟨hshut, rfl, rfl, le_rfl⟩

theorem handleWorkerReport_triple (marker : ReportMarker) :
    CardTriple name Released (handleWorkerReport answers marker) (fun _ _ _ ↦ True) := by
  refine triple_remembered.bind fun _ ↦ .ite (fun _ ↦ .ite (fun _ ↦ ?_) fun _ ↦ ?_) fun _ ↦
    triple_done
  · exact ((call_released .validateMove).pre fun _ _ _ hpre ↦ hpre.2).bind fun _ ↦
      (save_released .validateMoved).bind fun _ ↦ triple_done
  · refine ((call_released .verifyResult).pre fun _ _ _ hpre ↦ hpre.2).bind fun _ ↦ ?_
    cases answers.reported with
    | fresh => exact acceptDone_triple
    | stale => exact rejectStaleDone_triple
    | staleInfrastructure => exact acceptStaleInfrastructureDone_triple

theorem advanceWorker_triple (marker : ReportMarker) :
    CardTriple name Loaded (advanceWorker answers name marker) (fun _ _ _ ↦ True) := by
  refine triple_remembered.bind fun _ ↦ .ite (fun hred ↦ ?_) fun hred ↦ ?_
  · refine (completeRedTransition_triple.pre ?_).bind fun _ ↦ triple_done
    rintro world card - ⟨rfl, hload⟩
    exact hload.matched hred
  · refine ((recoverWorkerContinuation_triple marker).pre ?_).orEnd
      ((handleWorkerReport_triple marker).pre fun _ _ _ hshut ↦ hshut rfl) ⟨_, rfl⟩
    rintro world card - ⟨rfl, hload⟩
    exact ⟨hload, hred⟩

/-- The launch of another kind leaves the transition where it is. -/
theorem relaunch_triple (headRun : Option HeadBinding) (launchIntent : Option ℕ) (attemptRound : ℕ) :
    CardTriple name Loaded
      (Durable.remember fun card ↦ { card with workerHeadRun := headRun, launchIntent, attemptRound })
      (fun _ _ _ ↦ True) := by
  refine triple_remember ?_
  rintro world card ⟨hworld, hmem⟩ hload
  refine ⟨⟨hworld, hmem.driven, hmem.armed, ?_, ?_⟩, trivial⟩
  · exact { hmem.accounts with }
  · intro hheld
    have hview := reload_view_of_held world.card hheld
    have hsame : SameTransition world.card.view world.card.reload.view := hview ▸ .refl world.card.view
    rw [hload]
    exact .inl ⟨(reload_held_iff world.card).mpr hheld, hsame.transition, hsame.reserved, hsame.decisionBody,
      hsame.request⟩

theorem entry_triple (entry : Entry) :
    CardTriple name Loaded (entry.run name answers) (fun _ _ _ ↦ True) := by
  have hend {P : CardWorld → Card → Prop} : CardTriple name P (pure none : CardProgram (Option Reply))
      (fun _ _ _ ↦ True) := triple_done
  cases entry with
  | advance marker => exact advanceWorker_triple marker
  | finish =>
    refine triple_remembered.bind fun _ ↦ .ite (fun hred ↦ ?_) fun _ ↦ hend
    refine (completeRedTransition_triple.pre ?_).bind fun _ ↦ triple_done
    rintro world card - ⟨rfl, hload⟩
    exact hload.matched hred
  | confirmMove =>
    exact triple_remembered.bind fun _ ↦ .ite
      (fun _ ↦ confirmValidationMove_triple.bind fun _ ↦ (save_keeps .moveConfirmed).bind fun _ ↦ hend)
      fun _ ↦ hend
  | verdict opening =>
    exact ((beginRedTransition_triple opening).pre fun _ _ _ _ ↦ trivial).bind fun _ ↦
      triple_done
  | park _ _ _ _ =>
    refine (editClosed_triple ?_).bind fun _ ↦ (save_keeps .parked).bind fun _ ↦ hend
    intro world card continuation _ hpark
    unfold WorkerContinuation.beginPark at hpark
    split at hpark <;> cases hpark <;> rename_i hstage <;> simp [View.held, view, hstage]
  | confirmPark =>
    refine ((call_keeps (P := fun _ ↦ True) .parkMove fun _ _ _ ↦ trivial).pre fun _ _ _ _ ↦ trivial).bind
      fun _ ↦ (editClosed_triple ?_).bind fun _ ↦ (save_keeps .parkConfirmed).bind fun _ ↦ hend
    intro world card continuation _ hpark
    unfold WorkerContinuation.confirmPark at hpark
    split at hpark <;> cases hpark <;> rename_i hstage <;> simp [View.held, view, hstage]
  | stop =>
    exact (stopWorkerConfirmed_keeps (call_keeps (P := fun _ ↦ True) .stop fun _ _ hp ↦ hp) fun _ _ hp ↦ hp).weaken
      (fun _ _ _ _ ↦ trivial) fun _ _ _ _ _ ↦ trivial
  | relaunch headRun launchIntent attemptRound =>
    exact (relaunch_triple headRun launchIntent attemptRound).bind fun _ ↦ hend

/-- Every write of a tick keeps the invariant and hands open transitions on. -/
theorem cardTick_isChain (hworld : WorldOk name world) (input : Entry × Answers) :
    (world :: (cardTick name input world (loadCard world)).writes).IsChain (CardStep name) := by
  have hbody : CardTriple name Loaded
      (tryCatch
        (do
          let _ ← input.1.run name input.2
          pure ())
        fun _ ↦ pure ()) (fun _ _ _ ↦ True) :=
    Triple.tryCatch ((entry_triple input.1).bind fun _ ↦ triple_done) fun _ ↦ triple_done
  have htick : CardTriple name Loaded (cardTick name input) (fun _ _ _ ↦ True) :=
    hbody.bind fun _ ↦ save_keeps (P := fun _ ↦ True) .tickEnd
  exact (htick world (loadCard world) (loaded_inv hworld) rfl).1

end Ticks

end Ummanu.Continuation
