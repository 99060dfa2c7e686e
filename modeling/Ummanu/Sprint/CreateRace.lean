import Ummanu.Sprint.CloseLaw

/-!
# Creates and closes of one sprint

A create reads its sprint, and refuses one that is not open, before the transaction that writes its card; a
close freezes the cards it disposes of and commits later. The two take different locks, so that their moments
may come in any order: closes exclude one another and the reopening, creates exclude nothing. A card that is
written after its sprint was closed, or after a close froze its targets, stays on the closed sprint.

Scope. One sprint that has reservations. A close stands here from its frozen plan to the commit of its run,
under a request id of its own; a close that raises, or that a crash cuts, is rolled back.
-/

set_option autoImplicit false

namespace Ummanu.Sprint

open Library

/-- A create of a card that names the sprint. -/
structure CreateCall where
  ref : String
  project : String
  waits : Bool
  target : Column
  deriving DecidableEq

/-- The board, the creates that were admitted and have not committed, and the close that is under way. -/
structure World where
  board : Board
  reservations : List String
  admitted : List CreateCall := []
  closing : Option Document := none

/-- The admission of a create: the sprint is open and reserves the project, unless the card waits. -/
def admitsCreate (world : World) (call : CreateCall) : Prop :=
  world.board.state = .opened ∧ (call.project ∈ world.reservations ∨ call.waits = true)

/-- The card that a create writes. -/
def createdCard (world : World) (call : CreateCall) : Card where
  ref := call.ref
  state := call.target
  sprint := world.board.sprint

/-- The moments of creates and closes. -/
inductive Moment
  | admission
  | create
  | freeze
  | commit
  | rollback
  | reopen
  deriving DecidableEq

section Steps

variable (digest : String ↪ String)

inductive RaceStep : World → Moment → World → Prop
  | admission {world : World} (call : CreateCall) (hadmits : admitsCreate world call) :
      RaceStep world .admission { world with admitted := call :: world.admitted }
  | create {world : World} (call : CreateCall) (hcall : call ∈ world.admitted)
      (hfree : world.board.cards.find call.ref = none) :
      RaceStep world .create { world with
        board := { world.board with cards := world.board.cards.put (createdCard world call) }
        admitted := world.admitted.erase call }
  | freeze {world : World} (env : Env) (offered : Option Decisions) (document : Document)
      (hlock : world.closing = none) (hplan : planClose env offered world.board = .ok document) :
      RaceStep world .freeze { world with closing := some document }
  | commit {world : World} (env : Env) (requestId : String) (document : Document) (after : Board)
      (hclosing : world.closing = some document) (hfresh : Unstarted digest requestId world.board)
      (hrun : runClose digest env requestId document world.board = .ok after) :
      RaceStep world .commit { world with board := after, closing := none }
  | rollback {world : World} : RaceStep world .rollback { world with closing := none }
  | reopen {world : World} (hlock : world.closing = none) :
      RaceStep world .reopen { world with board := { world.board with state := .opened } }

/-- One moment of any create or close. -/
def AnyStep (world next : World) : Prop := ∃ moment, RaceStep digest world moment next

/-- One moment, where a create commits only while the sprint is open and no close is under way, and the plan of a
close decides on a reference once. -/
def ApartStep (world next : World) : Prop :=
  ∃ moment, RaceStep digest world moment next ∧
    (moment = .create → world.board.state = .opened ∧ world.closing = none) ∧
    (moment = .freeze → ∀ document ∈ next.closing, DistinctRefs document.decisions)

end Steps

/-- No card of the sprint is open while the sprint is closed. -/
def NoneLeft (board : Board) : Prop :=
  board.state = .closed → ∀ card ∈ board.cards.rows, card.sprint = board.sprint → card.typed = false →
    card.archived = true

/-! ### The moments that keep it -/

section Keeps

variable {digest : String ↪ String}

/-- A sprint with reservations, without open cards while it is closed, and with the plan of the close that is
under way made for the board as it is. -/
structure RaceInv (world : World) : Prop where
  reserving : world.board.reserving = true
  noneLeft : NoneLeft world.board
  frozen : ∀ document ∈ world.closing, DistinctRefs document.decisions ∧
    ∃ offered, Planned world.board offered document

/-- A close that did what its decisions state leaves no open card. -/
theorem noneLeft_of_closedExactly {before after : Board} {plan : Decisions}
    (hexact : ClosedExactly before after plan) (hspr : after.sprint = before.sprint) : NoneLeft after := by
  intro _ card hcard hlinked htyped
  have hfind := (KeyedTable.mem_rows_iff after.cards card).mp hcard
  by_cases hwork : ∃ work, IsWork before work ∧ work.ref = card.ref
  · obtain ⟨work, hwork, href⟩ := hwork
    by_cases hdone : work.state = .done
    · have hafter := hexact.done work hwork hdone
      rw [href, hfind] at hafter
      rw [Option.some.inj hafter]
    · obtain ⟨_, -, -, hafter⟩ := hexact.disposed work hwork hdone
      rw [href, hfind] at hafter
      rw [Option.some.inj hafter]
  · have hkept := hexact.otherCards card.ref fun work hisWork href ↦ hwork ⟨work, hisWork, href⟩
    rw [hfind] at hkept
    have hbefore := (KeyedTable.mem_rows_iff before.cards card).mpr hkept.symm
    -- an open card of the sprint would have been work
    by_contra hopen
    refine hwork ⟨card, ⟨List.mem_filter.mpr ⟨hbefore, ?_⟩, htyped⟩, rfl⟩
    simpa using And.intro (Bool.eq_false_iff.mpr hopen) (hlinked.trans hspr)

theorem ApartStep.keeps {world next : World} (hinv : RaceInv world) (hstep : ApartStep digest world next) :
    RaceInv next := by
  obtain ⟨_, hmoment, hapart, hdist⟩ := hstep
  cases hmoment with
  | admission call _ => exact ⟨hinv.reserving, hinv.noneLeft, hinv.frozen⟩
  | create call _ _ =>
    obtain ⟨hopen, hnone⟩ := hapart rfl
    refine ⟨hinv.reserving, fun hshut ↦ ?_, fun doc hdoc ↦ ?_⟩
    · exact nomatch hopen.symm.trans hshut
    · exact nomatch hnone.symm.trans hdoc
  | freeze env offered doc hlock hplan =>
    refine ⟨hinv.reserving, hinv.noneLeft, fun frozen hice ↦ ?_⟩
    cases hice
    exact ⟨hdist rfl doc rfl, offered, planClose_eq_ok hplan⟩
  | commit env _ doc _ hclos hfresh hrun =>
    obtain ⟨hdist, offered, hplan⟩ := hinv.frozen doc hclos
    obtain ⟨hran, hexact⟩ := closedExactly_of_runClose hinv.reserving hfresh hdist hplan hrun
    exact ⟨hran.reserving.trans hinv.reserving, noneLeft_of_closedExactly hexact hran.sprint, nofun⟩
  | rollback => exact ⟨hinv.reserving, hinv.noneLeft, nofun⟩
  | reopen hlock =>
    refine ⟨hinv.reserving, nofun, fun doc hdoc ↦ ?_⟩
    exact nomatch hlock.symm.trans hdoc

/-- While every create commits on an open sprint without a close under way, and every close decides on a reference
once, no card is left on a closed sprint. -/
theorem creates_noneLeft {start world : World} (hreserving : start.board.reserving = true)
    (hstart : NoneLeft start.board) (hidle : start.closing = none)
    (hrun : Relation.ReflTransGen (ApartStep digest) start world) : NoneLeft world.board := by
  have hinv : RaceInv world := by
    induction hrun with
    | refl =>
      exact ⟨hreserving, hstart, fun _ hdoc ↦ nomatch hidle.symm.trans hdoc⟩
    | tail _ hstep ih => exact hstep.keeps ih
  exact hinv.noneLeft

end Keeps

/-! ### A create across a close -/

/-- An open sprint without cards and issues. -/
def emptySprint : World where
  board := { sprint := "sprint:1", state := .opened, declared := [], reserving := true,
             cards := ⟨[], by decide⟩, issues := ⟨[], by decide⟩ }
  reservations := ["demo"]

def createDemo : CreateCall := ⟨"demo-1", "demo", false, .ready⟩

/-- A close with these decisions on cards, from its plan to its commit, if both answer. -/
theorem closes_of_ok {world : World} {cards : List Decision} {document : Document} {after : Board}
    (hlock : world.closing = none) (hnew : world.board.records = [])
    (hplan : planClose poEnv (some { cards }) world.board = .ok document)
    (hrun : runClose (.refl String) poEnv "close-1" document world.board = .ok after) :
    RaceStep (.refl String) world .freeze { world with closing := some document } ∧
      RaceStep (.refl String) { world with closing := some document } .commit
        { world with board := after, closing := none } := by
  refine ⟨.freeze poEnv _ document hlock hplan, .commit poEnv "close-1" document after rfl ⟨?_, fun _ _ ↦ ?_⟩ hrun⟩
  · simp [Board.isCommitted, hnew]
  · simp [IsTodo, Board.isCommitted, hnew]

/-- The sprint with the card of the create. -/
def oneCardSprint : World :=
  { emptySprint with
    board := { emptySprint.board with cards := emptySprint.board.cards.put (createdCard emptySprint createDemo) } }

theorem oneCardSprint_created : Relation.ReflTransGen (ApartStep (.refl String)) emptySprint oneCardSprint := by
  refine .tail (b := { emptySprint with admitted := [createDemo] }) (.single ⟨.admission, ?_, by simp, by simp⟩)
    ⟨.create, ?_, fun _ ↦ ⟨rfl, rfl⟩, by simp⟩
  · exact .admission createDemo ⟨rfl, .inl (by decide)⟩
  · exact .create createDemo List.mem_cons_self rfl

/-- The create commits, and then a close disposes of its card. -/
theorem creates_noneLeft_witness :
    ∃ world, Relation.ReflTransGen (ApartStep (.refl String)) emptySprint world ∧ world.board.state = .closed ∧
      (world.board.cards.find "demo-1").map (·.archived) = some true ∧ NoneLeft world.board := by
  obtain ⟨hfreeze, hcommit⟩ :=
    @closes_of_ok oneCardSprint [⟨"demo-1", "drop", "no time left", none⟩] _ _ rfl rfl rfl rfl
  have hfrozen : ApartStep (.refl String) oneCardSprint _ :=
    ⟨.freeze, hfreeze, by simp, fun _ _ hdoc ↦ Option.some.inj hdoc ▸ ⟨by decide, by decide⟩⟩
  have hclosed : ApartStep (.refl String) _ _ := ⟨.commit, hcommit, by simp, by simp⟩
  have hrun := (oneCardSprint_created.tail hfrozen).tail hclosed
  exact ⟨_, hrun, rfl, by decide +kernel, creates_noneLeft rfl (by simp [NoneLeft, emptySprint]) rfl hrun⟩

/-- The create is admitted, the sprint is closed, and then the card is written: it stays on the closed sprint. -/
theorem creates_leftOpen :
    ∃ world, Relation.ReflTransGen (AnyStep (.refl String)) emptySprint world ∧
      world.board.state = .closed ∧ ∃ card ∈ world.board.cards.rows,
        card.sprint = world.board.sprint ∧ card.typed = false ∧ card.archived = false := by
  have hcloses := @closes_of_ok { emptySprint with admitted := [createDemo] } [] _ _ rfl rfl rfl rfl
  refine ⟨_, .tail (.tail (.tail (.single ⟨.admission, .admission createDemo ⟨rfl, .inl (by decide)⟩⟩)
    ⟨.freeze, hcloses.1⟩) ⟨.commit, hcloses.2⟩) ⟨.create, .create createDemo List.mem_cons_self rfl⟩, rfl, ?_⟩
  exact ⟨⟨"demo-1", .ready, "sprint:1", false, false⟩, by decide, rfl, rfl, rfl⟩

end Ummanu.Sprint
