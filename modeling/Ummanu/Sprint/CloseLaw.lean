import Ummanu.Library.Loops
import Ummanu.Library.Texts
import Ummanu.Sprint.Close

/-!
# A close does what its decisions state

Every step of a close changes one card or one issue, under a request id of its own, and the steps of one
family have different ones. So a close that answers has changed exactly the issues it was to close, each with
its verdict, and exactly the linked cards, each archived where its disposition put it. This needs decisions
with one entry for a reference: two entries for one issue are accepted, and both are in the plan.
-/

set_option autoImplicit false

namespace Ummanu.Sprint

open Library
open Ledger (Raised)

variable {ref : String} {env : Env} {board after : Board}
variable {document : Document} {offered : Option Decisions} {entries : List Decision} {entry : Decision} {card : Card}

/-! ### Request ids of steps -/

section Ids

variable (digest : String ↪ String) (requestId : String)

theorem closeStepRequestId_toList (step ref : String) :
    (closeStepRequestId digest requestId step ref).toList =
      requestId.toList ++ (":sprint-close-".toList ++ (step.toList ++ ':' :: (digest ref).toList)) := by
  simp [closeStepRequestId]

/-- The step and the reference are read back from the id of a step. -/
theorem closeStepRequestId_inj {step other second : String} (hstep : ':' ∉ step.toList) (hoth : ':' ∉ other.toList)
    (hsame : closeStepRequestId digest requestId step ref = closeStepRequestId digest requestId other second) :
    step = other ∧ ref = second := by
  have hchars := congrArg String.toList hsame
  rw [closeStepRequestId_toList, closeStepRequestId_toList] at hchars
  have htail := List.append_cancel_left (List.append_cancel_left hchars)
  obtain ⟨hsteps, hdigests⟩ := append_cons_inj_of_first hstep hoth htail
  exact ⟨String.toList_inj.mp hsteps, digest.injective (String.toList_inj.mp hdigests)⟩

end Ids

/-! ### One step -/

section Steps

variable {requestId : String}

theorem isCommitted_of_cons {id : String} (hrecs : after.records = ⟨requestId, none⟩ :: board.records)
    (hid : after.isCommitted id = true) : board.isCommitted id = true ∨ id = requestId := by
  rw [Board.isCommitted, hrecs, List.any_cons, Bool.or_eq_true, decide_eq_true_eq] at hid
  exact hid.symm.imp_right Eq.symm

theorem card_eq_ok (hcard : board.card ref = .ok card) :
    board.cards.find ref = some card ∧ card.ref = ref := by
  unfold Board.card at hcard
  split at hcard
  · rename_i _ hfind
    cases hcard
    exact ⟨hfind, KeyedTable.key_of_find hfind⟩
  · cases hcard

theorem issue_eq_ok {issue : Issue} (hissue : board.issue ref = .ok issue) :
    board.issues.find ref = some issue ∧ issue.ref = ref := by
  unfold Board.issue at hissue
  split at hissue
  · rename_i _ hfind
    cases hissue
    exact ⟨hfind, KeyedTable.key_of_find hfind⟩
  · cases hissue

/-- A card step writes its card anew. -/
theorem archiveCard_eq_ok {step : Step} (hok : archiveCard env board step ref requestId = .ok after) :
    ∃ card, board.cards.find ref = some card ∧ card.ref = ref ∧
      after = board.putCard { card with archived := true } requestId := by
  obtain ⟨card, hcard, hok⟩ := bind_eq_ok hok
  obtain ⟨hfind, href⟩ := card_eq_ok hcard
  split_ifs at hok
  obtain ⟨_, -, hok⟩ := bind_eq_ok hok
  cases hok
  exact ⟨card, hfind, href, rfl⟩

theorem moveCard_eq_ok {target : Column} (hok : moveCard env board ref target requestId = .ok after) :
    ∃ card, board.cards.find ref = some card ∧ card.ref = ref ∧
      after = board.putCard { card with state := target } requestId := by
  obtain ⟨card, hcard, hok⟩ := bind_eq_ok hok
  obtain ⟨hfind, href⟩ := card_eq_ok hcard
  split_ifs at hok
  obtain ⟨_, -, hok⟩ := bind_eq_ok hok
  cases hok
  exact ⟨card, hfind, href, rfl⟩

/-- An issue step closes an open issue with the verdict. -/
theorem closeIssue_eq_ok (hok : closeIssue env board entry requestId = .ok after) :
    ∃ issue, board.issues.find entry.ref = some issue ∧ issue.ref = entry.ref ∧ issue.closeReason = none ∧
      after = board.putIssue { issue with closeReason := some entry.verdict } requestId := by
  unfold closeIssue at hok
  split_ifs at hok
  obtain ⟨issue, hissue, hok⟩ := bind_eq_ok hok
  obtain ⟨hfind, href⟩ := issue_eq_ok hissue
  split_ifs at hok with hshut
  obtain ⟨_, -, hok⟩ := bind_eq_ok hok
  cases hok
  exact ⟨issue, hfind, href, by simpa using hshut, rfl⟩

end Steps

/-! ### The loops -/

section Loops

variable {digest : String ↪ String} {requestId : String}

/-- The only records that were added are ones of a family of steps. -/
def AddsOnly (digest : String ↪ String) (requestId : String) (steps : List String) (before after : Board) : Prop :=
  ∀ id, after.isCommitted id = true →
    before.isCommitted id = true ∨ ∃ step ∈ steps, ∃ ref, id = closeStepRequestId digest requestId step ref

/-- The step of a reference is not committed. -/
def IsTodo (digest : String ↪ String) (requestId step : String) (board : Board) (ref : String) : Prop :=
  ¬ board.isCommitted (closeStepRequestId digest requestId step ref) = true

/-- Steps of other families leave a step to do. -/
theorem AddsOnly.isTodo {steps : List String} {before : Board} {step : String}
    (hadds : AddsOnly digest requestId steps before after) (hsteps : ∀ other ∈ steps, ':' ∉ other.toList)
    (hstep : ':' ∉ step.toList) (hoth : step ∉ steps) (htodo : IsTodo digest requestId step before ref) :
    IsTodo digest requestId step after ref := by
  intro hdone
  rcases hadds _ hdone with hbefore | ⟨other, hmem, _, hid⟩
  · exact htodo hbefore
  · obtain ⟨rfl, -⟩ := closeStepRequestId_inj digest requestId hstep (hsteps other hmem) hid
    exact hoth hmem

theorem AddsOnly.refl (steps : List String) (board : Board) : AddsOnly digest requestId steps board board :=
  fun _ hid ↦ .inl hid

/-- The steps of a reference are to do. -/
def AllTodo (digest : String ↪ String) (requestId : String) (steps : List String) (board : Board) (ref : String) :
    Prop :=
  ∀ step ∈ steps, IsTodo digest requestId step board ref

/-- Nothing changed but the cards and the records. -/
def CardsOnly (before after : Board) : Prop := after = { before with cards := after.cards, records := after.records }

/-- Nothing changed but the issues and the records. -/
def IssuesOnly (before after : Board) : Prop :=
  after = { before with issues := after.issues, records := after.records }

theorem CardsOnly.trans (first second third : Board) (hfst : CardsOnly first second)
    (hsnd : CardsOnly second third) : CardsOnly first third := by
  refine Eq.trans hsnd ?_
  conv_lhs => rw [hfst]

theorem IssuesOnly.trans (first second third : Board) (hfst : IssuesOnly first second)
    (hsnd : IssuesOnly second third) : IssuesOnly first third := by
  refine Eq.trans hsnd ?_
  conv_lhs => rw [hfst]

/-- An entry of a loop changed what its reference has in a table, under records of its own steps. -/
structure Entered {β : Type} (digest : String ↪ String) (requestId : String) (table : Board → String → Option β)
    (Rest : Board → Board → Prop) (steps : List String) (ref : String) (change : β → β) (before after : Board) :
    Prop where
  place : ∀ other, table after other = if other = ref then (table before other).map change else table before other
  records : ∀ id, after.isCommitted id = true → before.isCommitted id = true ∨
    ∃ step ∈ steps, id = closeStepRequestId digest requestId step ref
  rest : Rest before after

variable {progress next : Progress} {steps : List String}

theorem entered_putCard (change : Card → Card) (step : String) (hfind : board.cards.find ref = some card)
    (href : (change card).ref = ref) :
    Entered digest requestId (·.cards.find) CardsOnly [step] ref change board
      (board.putCard (change card) (closeStepRequestId digest requestId step ref)) where
  place := KeyedTable.find_put_change hfind href
  records _ hid := (isCommitted_of_cons rfl hid).imp_right fun hnew ↦ ⟨step, List.mem_cons_self, hnew⟩
  rest := rfl

theorem entered_putIssue {issue : Issue} (change : Issue → Issue) (step : String)
    (hfind : board.issues.find ref = some issue) (href : (change issue).ref = ref) :
    Entered digest requestId (·.issues.find) IssuesOnly [step] ref change board
      (board.putIssue (change issue) (closeStepRequestId digest requestId step ref)) where
  place := KeyedTable.find_put_change hfind href
  records _ hid := (isCommitted_of_cons rfl hid).imp_right fun hnew ↦ ⟨step, List.mem_cons_self, hnew⟩
  rest := rfl

/-- The issue that a decision closes. -/
def closedIssue (entry : Decision) (issue : Issue) : Issue := { issue with closeReason := some entry.verdict }

theorem closeDeclaredIssue_entered (htodo : AllTodo digest requestId ["issue"] progress.board entry.ref)
    (hok : closeDeclaredIssue digest env requestId progress entry = .ok next) :
    next.document.decisions = progress.document.decisions ∧
      (∃ issue, progress.board.issues.find entry.ref = some issue ∧ issue.closeReason = none) ∧
      Entered digest requestId (·.issues.find) IssuesOnly ["issue"] entry.ref (closedIssue entry) progress.board
        next.board := by
  unfold closeDeclaredIssue at hok
  rw [if_neg (htodo "issue" List.mem_cons_self)] at hok
  obtain ⟨_, -, hok⟩ := bind_eq_ok hok
  split_ifs at hok with hshut
  · exact nomatch hok
  obtain ⟨_, hboard, hok⟩ := bind_eq_ok hok
  obtain ⟨issue, hfind, href, hwhy, rfl⟩ := closeIssue_eq_ok hboard
  cases hok
  exact ⟨rfl, ⟨issue, hfind, hwhy⟩, entered_putIssue _ "issue" hfind href⟩

/-- The card that a Done card becomes. -/
def archivedCard (_ : String) (card : Card) : Card := { card with archived := true }

theorem archiveDone_entered (htodo : AllTodo digest requestId ["archive"] progress.board ref)
    (hok : archiveDone digest env requestId progress ref = .ok next) :
    next.document.decisions = progress.document.decisions ∧
      Entered digest requestId (·.cards.find) CardsOnly ["archive"] ref (archivedCard ref) progress.board
        next.board := by
  unfold archiveDone at hok
  rw [if_neg (htodo "archive" List.mem_cons_self)] at hok
  obtain ⟨_, hboard, hok⟩ := bind_eq_ok hok
  obtain ⟨_, hfind, href, rfl⟩ := archiveCard_eq_ok hboard
  cases hok
  exact ⟨rfl, entered_putCard _ "archive" hfind href⟩

/-- The card where its disposition puts it. -/
def disposedCard (targets : Targets) (entry : Decision) (card : Card) : Card :=
  match moveTarget targets entry with
  | .ok (some target) => { card with state := target, archived := true }
  | _ => { card with archived := true }

/-- The families of steps that dispose of a card. -/
def disposeSteps : List String := ["dispose-move", "dispose-archive"]

theorem colon_notMem_disposeSteps : ∀ step ∈ disposeSteps, ':' ∉ step.toList := by
  intro _ hstep
  rcases List.mem_cons.mp hstep with rfl | hstep
  · decide
  · rw [List.mem_singleton.mp hstep]
    decide

/-- The card after the move of its disposition. -/
def movedCard (target : Option Column) (card : Card) : Card := { card with state := target.getD card.state }

/-- What the move of a disposition does to the board. -/
theorem disposeMove_entered {target : Option Column} (htodo : IsTodo digest requestId "dispose-move" board entry.ref)
    (hok : disposeMove digest env requestId board entry target = .ok after) :
    Entered digest requestId (·.cards.find) CardsOnly ["dispose-move"] entry.ref (movedCard target) board after := by
  cases target with
  | none =>
    cases hok
    have hsame : movedCard none = id := rfl
    exact ⟨fun _ ↦ by simp [hsame], fun _ hid ↦ .inl hid, rfl⟩
  | some column =>
    unfold disposeMove at hok
    dsimp only at hok
    rw [if_neg htodo] at hok
    obtain ⟨_, -, hok⟩ := bind_eq_ok hok
    split_ifs at hok
    · cases hok
    · obtain ⟨_, hfind, href, rfl⟩ := moveCard_eq_ok hok
      exact entered_putCard (movedCard (some column)) "dispose-move" hfind href

/-- What a disposition does to the board: its card is where it puts it, and the records are its own. -/
theorem disposeCard_entered {targets : Targets}
    (htodo : AllTodo digest requestId disposeSteps progress.board entry.ref)
    (hok : disposeCard digest env requestId targets progress entry = .ok next) :
    next.document.decisions = progress.document.decisions ∧
      Entered digest requestId (·.cards.find) CardsOnly disposeSteps entry.ref (disposedCard targets entry)
        progress.board next.board := by
  obtain ⟨target, htarget, hok⟩ := bind_eq_ok hok
  obtain ⟨moved, hmov, hok⟩ := bind_eq_ok hok
  have hmove := disposeMove_entered (htodo "dispose-move" (by decide)) hmov
  have harch : ¬ moved.isCommitted (closeStepRequestId digest requestId "dispose-archive" entry.ref) = true := by
    intro hdone
    rcases hmove.records _ hdone with hdone | ⟨step, hstep, hsame⟩
    · exact htodo "dispose-archive" (by decide) hdone
    · rw [List.mem_singleton.mp hstep] at hsame
      exact absurd (closeStepRequestId_inj digest requestId (by decide) (by decide) hsame).1 (by decide)
  rw [if_neg harch] at hok
  obtain ⟨_, hboard, hok⟩ := bind_eq_ok hok
  obtain ⟨card, hfind, href, rfl⟩ := archiveCard_eq_ok hboard
  cases hok
  have hput := @entered_putCard _ _ _ digest requestId (archivedCard entry.ref) "dispose-archive" hfind href
  have hchg : archivedCard entry.ref ∘ movedCard target = disposedCard targets entry := by
    funext card
    cases target <;> simp [archivedCard, movedCard, disposedCard, htarget]
  refine ⟨rfl, fun o ↦ ?_, fun id hid ↦ ?_, ?_⟩
  · refine (hput.place o).trans ?_
    rw [hmove.place o, ← hchg]
    split_ifs <;> simp
  · rcases hput.records id hid with hold | ⟨step, hstep, hid⟩
    · rcases hmove.records id hold with hold | ⟨step, hstep, hid⟩
      · exact .inl hold
      · exact .inr ⟨step, List.mem_of_mem_head? (List.mem_singleton.mp hstep ▸ rfl), hid⟩
    · exact .inr ⟨step, List.mem_cons_of_mem _ hstep, hid⟩
  · exact CardsOnly.trans _ _ _ hmove.rest hput.rest

/-- What a loop does whose entries each change what their own reference has in a table. -/
theorem foldlM_entered {ι β : Type} (key : ι → String) (table : Board → String → Option β) (change : ι → β → β)
    (G : ι → Option β → Prop) {R : Board → Board → Prop} {step : Progress → ι → Except Raised Progress}
    {xs : List ι} {last : Progress} (hcolon : ∀ step ∈ steps, ':' ∉ step.toList) (hrefl : ∀ board, R board board)
    (htrans : ∀ first second third, R first second → R second third → R first third)
    (hstep : ∀ x s next, AllTodo digest requestId steps s.board (key x) → step s x = .ok next →
      next.document.decisions = s.document.decisions ∧ G x (table s.board (key x)) ∧
        Entered digest requestId table R steps (key x) (change x) s.board next.board)
    (hkeys : (xs.map key).Nodup) (htodo : ∀ x ∈ xs, AllTodo digest requestId steps progress.board (key x))
    (hok : xs.foldlM step progress = .ok last) :
    ((∀ x ∈ xs, G x (table progress.board (key x))) ∧
      ∀ ref, table last.board ref = changedAt key change xs ref (table progress.board ref)) ∧
      last.document.decisions = progress.document.decisions ∧
      AddsOnly digest requestId steps progress.board last.board ∧ R progress.board last.board := by
  have hready : ∀ x ∈ xs, ∀ y ∈ xs, key y ≠ key x → ∀ s next : Progress,
      AllTodo digest requestId steps s.board (key x) → step s x = .ok next →
      AllTodo digest requestId steps s.board (key y) → AllTodo digest requestId steps next.board (key y) := by
    intro x _ y _ hne s next hx hnext hy name hname hdone
    obtain ⟨-, -, hin⟩ := hstep x s next hx hnext
    rcases hin.records _ hdone with hold | ⟨o, hoth, hid⟩
    · exact hy name hname hold
    · exact hne (closeStepRequestId_inj digest requestId (hcolon name hname) (hcolon o hoth) hid).2
  refine foldlM_changes (fun s ref ↦ table s.board ref)
    (P := fun s ↦ s.document.decisions = progress.document.decisions ∧
      AddsOnly digest requestId steps progress.board s.board ∧ R progress.board s.board) hkeys
    (fun x _ s next hs hP hnext ↦ ?_) hready htodo ⟨rfl, AddsOnly.refl _ _, hrefl _⟩ hok
  obtain ⟨hdecs, hgood, hin⟩ := hstep x s next hs hnext
  refine ⟨⟨hgood, hin.place⟩, hdecs.trans hP.1, fun id hid ↦ ?_, htrans _ _ _ hP.2.2 hin.rest⟩
  rcases hin.records id hid with hold | ⟨step, hstep, hid⟩
  · exact hP.2.1 id hold
  · exact .inr ⟨step, hstep, key x, hid⟩

end Loops

/-! ### The whole run -/

section Run

variable {digest : String ↪ String} {requestId : String}

/-- No record of the close is on the board. -/
structure Unstarted (digest : String ↪ String) (requestId : String) (board : Board) : Prop where
  close : ¬ board.isCommitted requestId = true
  steps : ∀ step ref, IsTodo digest requestId step board ref

/-- The entries name each reference once. -/
def DistinctRefs (decisions : Decisions) : Prop :=
  (decisions.issues.map (·.ref)).Nodup ∧ (decisions.cards.map (·.ref)).Nodup

theorem closeDeclaredIssues_eq_ok {after : Progress} (hstart : document.closedIssues = [])
    (hok : closeDeclaredIssues digest env requestId { document, board } = .ok after) :
    (document.decisions.issues.filter closes).foldlM (closeDeclaredIssue digest env requestId)
      { document, board } = .ok after := by
  unfold closeDeclaredIssues at hok
  simp only [hstart, List.not_mem_nil, not_false_eq_true, and_true, Bool.decide_eq_true] at hok
  split_ifs at hok with hnone hinstance
  · cases hok
    rw [hnone]
    rfl
  · exact hok

/-- What a run of a close does to the board. -/
structure RanClose (document : Document) (requestId : String) (before after : Board) : Prop where
  state : after.state = .closed
  staged : after.staged = none
  sprint : after.sprint = before.sprint
  reserving : after.reserving = before.reserving
  record : ∃ done, after.closeDocument requestId = some done ∧ done.decisions = document.decisions
  open_before : ∀ entry ∈ document.decisions.issues, closes entry = true →
    ∃ issue, before.issues.find entry.ref = some issue ∧ issue.closeReason = none
  issues : ∀ ref, after.issues.find ref =
    changedAt (·.ref) closedIssue (document.decisions.issues.filter closes) ref (before.issues.find ref)
  cards : ∀ ref, after.cards.find ref = changedAt (·.ref) (disposedCard document.targets) document.decisions.cards ref
    (changedAt id archivedCard document.targets.archive ref (before.cards.find ref))

theorem transitionClosed_eq_ok (hok : transitionClosed env requestId board = .ok after) :
    after = { board with state := .closed, records := after.records } := by
  unfold transitionClosed at hok
  split_ifs at hok with hshut
  · cases hok
    rw [← hshut]
  · obtain ⟨_, -, hok⟩ := bind_eq_ok hok
    cases hok
    rfl

theorem runClose_eq_ok (hfresh : Unstarted digest requestId board) (hstart : document.closedIssues = [])
    (hdist : DistinctRefs document.decisions) (harchive : document.targets.archive.Nodup)
    (hok : runClose digest env requestId document board = .ok after) :
    RanClose document requestId board after := by
  obtain ⟨_, -, hok⟩ := bind_eq_ok hok
  obtain ⟨issues, hissues, hok⟩ := bind_eq_ok hok
  obtain ⟨archived, harch, hok⟩ := bind_eq_ok hok
  obtain ⟨disposed, hdisposed, hok⟩ := bind_eq_ok hok
  obtain ⟨_, -, hok⟩ := bind_eq_ok hok
  obtain ⟨_, -, hok⟩ := bind_eq_ok hok
  obtain ⟨closed, hshut, hok⟩ := bind_eq_ok hok
  cases hok
  -- the issues
  have hpend : ((document.decisions.issues.filter closes).map (·.ref)).Nodup :=
    (List.filter_sublist.map _).nodup hdist.1
  obtain ⟨⟨hopen, hissuesAfter⟩, hdecs, hadds, hiboard⟩ :=
    foldlM_entered (·.ref) (·.issues.find) closedIssue
      (fun _ f ↦ ∃ issue : Issue, f = some issue ∧ issue.closeReason = none) (R := IssuesOnly)
      (by simp) (fun _ ↦ rfl) IssuesOnly.trans (fun entry s next ↦ closeDeclaredIssue_entered) hpend
      (fun entry _ step _ ↦ hfresh.steps step entry.ref) (closeDeclaredIssues_eq_ok hstart hissues)
  -- the Done cards
  have htodo (ref : String) : AllTodo digest requestId ["archive"] issues.board ref := by
    intro step hstep
    rw [List.mem_singleton.mp hstep]
    exact hadds.isTodo (by decide) (by decide) (by decide) (hfresh.steps "archive" ref)
  obtain ⟨⟨-, hcarch⟩, hdarch, haddsArchived, haboard⟩ :=
    foldlM_entered id (·.cards.find) archivedCard (fun _ _ ↦ True) (R := CardsOnly) (by simp)
      (fun _ ↦ rfl) CardsOnly.trans
      (fun ref s next hs hnext ↦ (archiveDone_entered hs hnext).imp_right fun hin ↦ ⟨trivial, hin⟩)
      (by rwa [List.map_id]) (fun ref _ ↦ htodo ref) harch
  -- the other cards
  have hdisposeTodo (ref : String) : AllTodo digest requestId disposeSteps archived.board ref := by
    intro step hstep
    have hcolon := colon_notMem_disposeSteps step hstep
    have hoth : step ∉ ["issue"] ∧ step ∉ ["archive"] := by
      rcases List.mem_cons.mp hstep with rfl | hstep
      · decide
      · rw [List.mem_singleton.mp hstep]
        decide
    exact haddsArchived.isTodo (by decide) hcolon hoth.2
      (hadds.isTodo (by decide) hcolon hoth.1 (hfresh.steps step ref))
  obtain ⟨⟨-, hcdisp⟩, hddisp, -, hdboard⟩ :=
    foldlM_entered (·.ref) (·.cards.find) (disposedCard document.targets) (fun _ _ ↦ True) (R := CardsOnly)
      colon_notMem_disposeSteps (fun _ ↦ rfl) CardsOnly.trans
      (fun entry s next hs hnext ↦ (disposeCard_entered hs hnext).imp_right fun hin ↦ ⟨trivial, hin⟩)
      hdist.2 (fun entry _ ↦ hdisposeTodo entry.ref) hdisposed
  have hcboard := transitionClosed_eq_ok hshut
  refine ⟨?_, rfl, ?_, ?_, ⟨disposed.document, ?_, ?_⟩, fun entry hent hclose ↦ ?_, fun ref ↦ ?_, fun ref ↦ ?_⟩
  · rw [hcboard]
  · rw [hcboard, hdboard, haboard, hiboard]
  · rw [hcboard, hdboard, haboard, hiboard]
  · simp [Board.closeDocument]
  · rw [hddisp, hdarch, hdecs]
  · exact hopen entry (List.mem_filter.mpr ⟨hent, hclose⟩)
  · have hsame : closed.issues = issues.board.issues := by
      rw [hcboard, hdboard, haboard]
    rw [hsame, hissuesAfter]
  · have hbegin : issues.board.cards = board.cards := by rw [hiboard]
    have hend : closed.cards = disposed.board.cards := by rw [hcboard]
    rw [hend, hcdisp, hcarch, hbegin]

end Run

/-! ### The plan -/

section Plan

/-- A card of the sprint that a close disposes of. -/
def IsWork (board : Board) (card : Card) : Prop := card ∈ board.linked ∧ card.typed = false

theorem IsWork.find (hwork : IsWork board card) : board.cards.find card.ref = some card :=
  (KeyedTable.mem_rows_iff board.cards card).mp (List.mem_of_mem_filter hwork.1)

theorem IsWork.unique {card other : Card} (hwork : IsWork board card) (hoth : IsWork board other)
    (hsame : card.ref = other.ref) : card = other := by
  have hfind := hwork.find
  rw [hsame, hoth.find] at hfind
  exact (Option.some.inj hfind).symm

theorem mem_linkedTasks : card ∈ board.linked.filter (·.typed = false) ↔ IsWork board card := by
  rw [List.mem_filter, decide_eq_true_iff, IsWork]

variable (hreserving : board.reserving = true)

include hreserving

theorem closeTargets_reserving : closeTargets board = Targets.fromCards board.linked := by
  rw [closeTargets, if_pos hreserving]

theorem mem_closeTargets_archive :
    ref ∈ (closeTargets board).archive ↔ ∃ card, IsWork board card ∧ card.state = .done ∧ card.ref = ref := by
  simp [closeTargets_reserving hreserving, Targets.fromCards, IsWork, and_assoc, and_left_comm]

theorem mem_closeTargets_remaining :
    ref ∈ (closeTargets board).remaining ↔ ∃ card, IsWork board card ∧ card.state ≠ .done ∧ card.ref = ref := by
  simp [closeTargets_reserving hreserving, Targets.fromCards, IsWork, and_assoc, and_left_comm]

theorem nodup_closeTargets_archive : (closeTargets board).archive.Nodup := by
  rw [closeTargets_reserving hreserving, Targets.fromCards]
  rw [(List.perm_insertionSort _ _).nodup_iff]
  refine List.Sublist.nodup ?_ board.cards.unique
  exact ((List.filter_sublist.trans List.filter_sublist).trans List.filter_sublist).map _

/-- The frozen state of a card is the card's. -/
theorem stateOf_closeTargets (hwork : IsWork board card) (hstate : card.state ≠ .done) :
    (closeTargets board).stateOf card.ref = some card.state := by
  have hmem : (card.ref, card.state) ∈ (closeTargets board).remainingStates := by
    rw [closeTargets_reserving hreserving, Targets.fromCards]
    refine List.mem_map.mpr ⟨card, List.mem_filter.mpr ⟨mem_linkedTasks.mpr hwork, by simpa using hstate⟩, rfl⟩
  rw [Targets.stateOf]
  cases hfind : (closeTargets board).remainingStates.find? (·.1 = card.ref) with
  | none =>
    rw [List.find?_eq_none] at hfind
    exact absurd (decide_eq_true rfl) (hfind _ hmem)
  | some pair =>
    have hpair := List.mem_of_find?_eq_some hfind
    have href : pair.1 = card.ref := by simpa using List.find?_some hfind
    rw [closeTargets_reserving hreserving, Targets.fromCards] at hpair
    obtain ⟨_, hoth, rfl⟩ := List.mem_map.mp hpair
    have hwork' := mem_linkedTasks.mp (List.mem_of_mem_filter hoth)
    rw [hwork.unique hwork' href.symm]
    rfl

omit hreserving

theorem checkNamed_eq_ok {asked : List String} {unknown missing : String} {describe : String → String}
    (hok : checkNamed entries asked unknown missing describe = .ok ()) (ref : String) :
    ref ∈ entries.map (·.ref) ↔ ref ∈ asked := by
  unfold checkNamed at hok
  dsimp only at hok
  split_ifs at hok with hunk hmiss
  rw [not_not, List.filter_eq_nil_iff] at hunk hmiss
  exact ⟨fun href ↦ by simpa using hunk ref href, fun href ↦ by simpa using hmiss ref href⟩

theorem sortedDecisions_perm (entries : List Decision) : (sortedDecisions entries).Perm entries :=
  List.perm_insertionSort _ _

theorem sorted_distinctRefs {decisions : Decisions} (hdist : DistinctRefs decisions) :
    DistinctRefs decisions.sorted :=
  ⟨((sortedDecisions_perm _).map _).nodup_iff.mpr hdist.1, ((sortedDecisions_perm _).map _).nodup_iff.mpr hdist.2⟩

variable {offered : Option Decisions} {document : Document}

/-- What a plan that was made says. -/
structure Planned (board : Board) (offered : Option Decisions) (document : Document) : Prop where
  targets : document.targets = closeTargets board
  decisions : document.decisions = (offered.getD {}).sorted
  start : document.closedIssues = []
  issues : ∀ ref, ref ∈ document.decisions.issues.map (·.ref) ↔ ref ∈ board.declared
  cards : ∀ ref, ref ∈ document.decisions.cards.map (·.ref) ↔ ref ∈ (closeTargets board).remaining

theorem planClose_eq_ok (hok : planClose env offered board = .ok document) : Planned board offered document := by
  obtain ⟨_, hplan, hok⟩ := bind_eq_ok hok
  obtain ⟨_, -, hok⟩ := bind_eq_ok hok
  cases hok
  obtain ⟨⟨⟩, hissues, hplan⟩ := bind_eq_ok hplan
  obtain ⟨⟨⟩, hcards, hplan⟩ := bind_eq_ok hplan
  obtain ⟨_, -, hplan⟩ := bind_eq_ok hplan
  obtain ⟨_, -, hplan⟩ := bind_eq_ok hplan
  cases hplan
  refine ⟨rfl, rfl, rfl, fun ref ↦ ?_, fun ref ↦ ?_⟩
  · rw [((sortedDecisions_perm _).map _).mem_iff]
    exact checkNamed_eq_ok hissues ref
  · rw [((sortedDecisions_perm _).map _).mem_iff]
    exact checkNamed_eq_ok hcards ref

end Plan

/-! ### Calls under one request id -/

section Calls

variable {digest : String ↪ String} {requestId : String}

/-- The column of a card after its disposition. -/
def dispositionState (entry : Decision) (state : Column) : Column :=
  if entry.verdict = alreadyMoved then state else (dispositionTargets entry.verdict).getD state

theorem disposedCard_eq {targets : Targets} (hstate : targets.stateOf entry.ref = some card.state) :
    disposedCard targets entry card =
      { card with state := dispositionState entry card.state, archived := true } := by
  unfold disposedCard moveTarget dispositionState
  rw [hstate]
  split_ifs with hmov
  · rfl
  · cases dispositionTargets entry.verdict with
    | none => rfl
    | some _ =>
      dsimp only [Option.getD_some]
      split_ifs with hthere
      · rw [Option.some.inj hthere]
      · rfl

/-- The close did what its decisions state, and nothing else. -/
structure ClosedExactly (before after : Board) (plan : Decisions) : Prop where
  state : after.state = .closed
  oneDecision : ∀ ref ∈ before.declared, (plan.issues.filter (·.ref = ref)).length = 1
  declared : ∀ entry ∈ plan.issues, entry.ref ∈ before.declared
  closed : ∀ entry ∈ plan.issues, closes entry = true → ∃ issue, before.issues.find entry.ref = some issue ∧
    issue.closeReason = none ∧ after.issues.find entry.ref = some { issue with closeReason := some entry.verdict }
  otherIssues : ∀ ref, (∀ entry ∈ plan.issues, closes entry = true → entry.ref ≠ ref) →
    after.issues.find ref = before.issues.find ref
  done : ∀ card, IsWork before card → card.state = .done →
    after.cards.find card.ref = some { card with archived := true }
  disposed : ∀ card, IsWork before card → card.state ≠ .done → ∃ entry ∈ plan.cards, entry.ref = card.ref ∧
    after.cards.find card.ref = some { card with state := dispositionState entry card.state, archived := true }
  otherCards : ∀ ref, (∀ card, IsWork before card → card.ref ≠ ref) → after.cards.find ref = before.cards.find ref

/-- One entry of a list without two for a reference has it. -/
theorem length_filter_ref (hrefs : (entries.map (·.ref)).Nodup) (hmem : ref ∈ entries.map (·.ref)) :
    (entries.filter (·.ref = ref)).length = 1 := by
  have hcount := List.count_eq_one_of_mem hrefs hmem
  rw [List.count, List.countP_map, List.countP_eq_length_filter] at hcount
  congr 1

theorem Planned.distinctRefs (hplan : Planned board offered document)
    (hdist : ∀ decisions ∈ offered, DistinctRefs decisions) :
    DistinctRefs document.decisions := by
  rw [hplan.decisions]
  refine sorted_distinctRefs ?_
  cases offered with
  | none => exact ⟨List.nodup_nil, List.nodup_nil⟩
  | some decisions => exact hdist decisions rfl

/-- A run of a plan with distinct references closes exactly as it states. -/
theorem closedExactly_of_runClose (hreserving : board.reserving = true)
    (hfresh : Unstarted digest requestId board) (hrefs : DistinctRefs document.decisions)
    (hplan : Planned board offered document) (hok : runClose digest env requestId document board = .ok after) :
    RanClose document requestId board after ∧ ClosedExactly board after document.decisions := by
  have harchive : document.targets.archive.Nodup := by
    rw [hplan.targets]
    exact nodup_closeTargets_archive hreserving
  have hran := runClose_eq_ok hfresh hplan.start hrefs harchive hok
  refine ⟨hran, hran.state, fun ref href ↦ ?_, fun entry hent ↦ ?_, fun entry hent hclose ↦ ?_,
    fun ref hoth ↦ ?_, fun card hwork hdone ↦ ?_, fun card hwork hdone ↦ ?_, fun ref hoth ↦ ?_⟩
  · exact length_filter_ref hrefs.1 ((hplan.issues ref).mpr href)
  · exact (hplan.issues entry.ref).mp (List.mem_map_of_mem hent)
  · obtain ⟨issue, hfind, hwhy⟩ := hran.open_before entry hent hclose
    refine ⟨issue, hfind, hwhy, ?_⟩
    have hpend : ((document.decisions.issues.filter closes).map (·.ref)).Nodup :=
      (List.filter_sublist.map _).nodup hrefs.1
    rw [hran.issues, changedAt_of_mem closedIssue hpend (List.mem_filter.mpr ⟨hent, hclose⟩), hfind]
    rfl
  · rw [hran.issues, changedAt_of_notMem]
    intro hmem
    obtain ⟨entry, hent, href⟩ := List.mem_map.mp hmem
    obtain ⟨hent, hclose⟩ := List.mem_filter.mp hent
    exact hoth entry hent hclose href
  · -- a Done card has no disposition
    have hdisp : card.ref ∉ document.decisions.cards.map (·.ref) := by
      rw [hplan.cards, mem_closeTargets_remaining hreserving]
      rintro ⟨o, hwork', hstate, href⟩
      exact hstate (hwork'.unique hwork href ▸ hdone)
    have hmem : card.ref ∈ document.targets.archive := by
      rw [hplan.targets, mem_closeTargets_archive hreserving]
      exact ⟨card, hwork, hdone, rfl⟩
    have hkeys : (document.targets.archive.map id).Nodup := by rwa [List.map_id]
    rw [hran.cards, changedAt_of_notMem _ hdisp, ← id_eq card.ref,
      changedAt_of_mem archivedCard hkeys hmem, id_eq, hwork.find]
    rfl
  · have hmem : card.ref ∈ document.decisions.cards.map (·.ref) := by
      rw [hplan.cards, mem_closeTargets_remaining hreserving]
      exact ⟨card, hwork, hdone, rfl⟩
    obtain ⟨entry, hent, href⟩ := List.mem_map.mp hmem
    have harch : card.ref ∉ document.targets.archive.map id := by
      rw [List.map_id, hplan.targets, mem_closeTargets_archive hreserving]
      rintro ⟨o, hwork', hstate, href'⟩
      exact hdone (hwork'.unique hwork href' ▸ hstate)
    refine ⟨entry, hent, href, ?_⟩
    have hstate : document.targets.stateOf entry.ref = some card.state := by
      rw [href, hplan.targets]
      exact stateOf_closeTargets hreserving hwork hdone
    rw [hran.cards, changedAt_of_notMem archivedCard harch, ← href,
      changedAt_of_mem (disposedCard document.targets) hrefs.2 hent, href, hwork.find, Option.map_some,
      disposedCard_eq hstate]
  · have hdisp : ref ∉ document.decisions.cards.map (·.ref) := by
      rw [hplan.cards, mem_closeTargets_remaining hreserving]
      rintro ⟨card, hwork, -, href⟩
      exact hoth card hwork href
    have harch : ref ∉ document.targets.archive.map id := by
      rw [List.map_id, hplan.targets, mem_closeTargets_archive hreserving]
      rintro ⟨card, hwork, -, href⟩
      exact hoth card hwork href
    rw [hran.cards, changedAt_of_notMem _ hdisp, changedAt_of_notMem _ harch]

/-- A committed close is answered and changes nothing. -/
theorem afterClose_committed (hdoc : board.closeDocument requestId = some document) :
    afterClose digest env requestId offered board = board := by
  unfold afterClose closeAtomic
  rw [hdoc]
  dsimp only
  cases checkCompletedClose document offered <;> rfl

theorem closeRun_committed (hdoc : board.closeDocument requestId = some document)
    (calls : List (Env × Option Decisions)) : closeRun digest requestId board calls = board := by
  induction calls with
  | nil => rfl
  | cons _ _ ih =>
    rw [closeRun, List.foldl_cons, afterClose_committed hdoc]
    exact ih

theorem Unstarted.closeDocument (hfresh : Unstarted digest requestId board) :
    board.closeDocument requestId = none := by
  have hnone : board.records.find? (·.requestId = requestId) = none := by
    rw [List.find?_eq_none]
    intro rec hrec hid
    exact hfresh.close (List.any_eq_true.mpr ⟨rec, hrec, hid⟩)
  rw [Board.closeDocument, hnone]
  rfl

/-- A call on a board without records of the close either changes nothing or closes exactly. -/
theorem afterClose_unstarted (hreserving : board.reserving = true) (hfresh : Unstarted digest requestId board)
    (hstage : board.staged = none) (hdist : ∀ decisions ∈ offered, DistinctRefs decisions) :
    afterClose digest env requestId offered board = board ∨
      ∃ document, (afterClose digest env requestId offered board).closeDocument requestId = some document ∧
        ClosedExactly board (afterClose digest env requestId offered board) document.decisions := by
  cases hcall : closeAtomic digest env requestId offered board with
  | error _ =>
    left
    rw [afterClose, hcall]
  | ok after =>
    right
    have hafter : afterClose digest env requestId offered board = after := by rw [afterClose, hcall]
    unfold closeAtomic at hcall
    rw [hfresh.closeDocument, hstage] at hcall
    obtain ⟨_, hplan, hrun⟩ := bind_eq_ok hcall
    have hplanned := planClose_eq_ok hplan
    obtain ⟨hran, hexact⟩ :=
      closedExactly_of_runClose hreserving hfresh (hplanned.distinctRefs hdist) hplanned hrun
    obtain ⟨done, hdone, hdecs⟩ := hran.record
    rw [hafter]
    exact ⟨done, hdone, hdecs ▸ hexact⟩

/-- With one entry for a reference in each decisions document, the calls under one request id leave the board as
it was or close the sprint exactly as the decisions state; from then on the calls change nothing. -/
theorem closeRun_exactly (hopen : board.state = .opened) (hreserving : board.reserving = true)
    (hfresh : Unstarted digest requestId board) (hstaged : board.staged = none)
    (calls : List (Env × Option Decisions))
    (hdistinct : ∀ call ∈ calls, ∀ decisions ∈ call.2, DistinctRefs decisions) :
    (closeRun digest requestId board calls = board ∨
      ∃ document, (closeRun digest requestId board calls).closeDocument requestId = some document ∧
        ClosedExactly board (closeRun digest requestId board calls) document.decisions) ∧
    ((closeRun digest requestId board calls).state = .closed → ∀ more,
      closeRun digest requestId (closeRun digest requestId board calls) more =
        closeRun digest requestId board calls) := by
  have hrun : closeRun digest requestId board calls = board ∨
      ∃ document, (closeRun digest requestId board calls).closeDocument requestId = some document ∧
        ClosedExactly board (closeRun digest requestId board calls) document.decisions := by
    induction calls with
    | nil => exact .inl rfl
    | cons call rest ih =>
      rw [closeRun, List.foldl_cons]
      rcases afterClose_unstarted hreserving hfresh hstaged (hdistinct call List.mem_cons_self) with
        hsame | ⟨document, hdoc, hexact⟩
      · rw [hsame]
        exact ih fun l hlater ↦ hdistinct l (List.mem_cons_of_mem call hlater)
      · right
        have hkept : rest.foldl (fun board call ↦ afterClose digest call.1 requestId call.2 board)
            (afterClose digest call.1 requestId call.2 board) = afterClose digest call.1 requestId call.2 board :=
          closeRun_committed hdoc rest
        rw [hkept]
        exact ⟨document, hdoc, hexact⟩
  refine ⟨hrun, fun hshut more ↦ ?_⟩
  rcases hrun with hsame | ⟨document, hdoc, -⟩
  · rw [hsame, hopen] at hshut
    exact nomatch hshut
  · exact closeRun_committed hdoc more

end Calls

/-! ### A sprint with one issue -/

/-- A sprint that declared one issue, with a card in Done and one in progress. -/
def oneIssueBoard : Board where
  sprint := "sprint:1"
  state := .opened
  declared := ["issue:a"]
  reserving := true
  cards := ⟨[⟨"demo-1", .done, "sprint:1", false, false⟩, ⟨"demo-2", .inProgress, "sprint:1", false, false⟩],
    by decide⟩
  issues := ⟨[⟨"issue:a", none⟩], by decide⟩

/-- The product owner's close, in which no step fails. -/
def poEnv : Env where
  role := "po"
  hasInstance := true
  admits source target := source ≠ target
  live _ := false
  refuse _ := none

def dropDemo2 : Decision := ⟨"demo-2", "drop", "no time left", none⟩

theorem oneIssueBoard_unstarted : Unstarted (.refl String) "close-1" oneIssueBoard where
  close := by decide
  steps _ _ := by simp [IsTodo, Board.isCommitted, oneIssueBoard]

theorem closeRun_exactly_witness :
    let calls := [(poEnv, some { issues := [⟨"issue:a", "resolved", "fixed", none⟩], cards := [dropDemo2] })]
    ∃ document, (closeRun (.refl String) "close-1" oneIssueBoard calls).closeDocument "close-1" = some document ∧
      ClosedExactly oneIssueBoard (closeRun (.refl String) "close-1" oneIssueBoard calls) document.decisions := by
  intro calls
  have hshut : (closeRun (.refl String) "close-1" oneIssueBoard calls).state = .closed := by decide +kernel
  refine (closeRun_exactly rfl rfl oneIssueBoard_unstarted rfl calls ?_).1.resolve_left fun hsame ↦ ?_
  · intro _ hcall _ hdecs
    rw [List.mem_singleton.mp hcall] at hdecs
    cases hdecs
    exact ⟨by decide, by decide⟩
  · rw [hsame] at hshut
    exact nomatch hshut

/-- Two decisions for the issue are accepted: the plan says that it stays open and that it is resolved. -/
theorem closeRun_twoDecisions :
    let after := closeRun (.refl String) "close-1" oneIssueBoard [(poEnv, some {
      issues := [⟨"issue:a", "open", "not yet", none⟩, ⟨"issue:a", "resolved", "fixed", none⟩]
      cards := [dropDemo2] })]
    after.state = .closed ∧
      (after.closeDocument "close-1").map (fun document ↦ document.decisions.issues.map (·.verdict)) =
        some ["open", "resolved"] ∧
      after.issues.find "issue:a" = some ⟨"issue:a", some "resolved"⟩ ∧
      ∀ document ∈ after.closeDocument "close-1", ¬ ClosedExactly oneIssueBoard after document.decisions := by
  intro after
  have hverd : (after.closeDocument "close-1").map
      (fun document ↦ document.decisions.issues.map (·.verdict)) = some ["open", "resolved"] := by decide +kernel
  refine ⟨by decide +kernel, hverd, by decide +kernel, fun document hdoc hexact ↦ ?_⟩
  have hone := hexact.oneDecision "issue:a" List.mem_cons_self
  have hall : document.decisions.issues.filter (·.ref = "issue:a") = document.decisions.issues := by
    rw [List.filter_eq_self]
    intro entry hent
    simpa [oneIssueBoard] using hexact.declared entry hent
  rw [Option.mem_def.mp hdoc, Option.map_some, Option.some.injEq] at hverd
  have htwo := congrArg List.length hverd
  rw [List.length_map, ← hall, hone] at htwo
  exact absurd htwo (by decide)

end Ummanu.Sprint
