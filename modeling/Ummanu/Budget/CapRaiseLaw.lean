import Ummanu.Budget.CapRaise
import Ummanu.Budget.DecisionLaw

/-!
# One answer raises one card

An owner's answer to a batch decision is meant for every card of the batch. Without an explicit request id
the raises of all of them share one id, the comment's. The first call that is let in commits its record under
that id; from then on every call with the comment replays the record or is refused as a foreign claim, and the
board stays as it is. So exactly one card is raised, by the number of the answer, whatever is called
afterwards.
-/

set_option autoImplicit false

namespace Ummanu.Budget

open Library Ledger

variable {board : Board}
variable {call : RaiseCall}

/-! ### Used request ids -/

section Used

variable {requests : Requests} {requestId : String} {committed : Json}

/-- A write under a committed id leaves the board as it was. -/
theorem write_committed {payload : Card → Except Raised Json} {mutation : Board → Card → Board}
    {after : Board} {request : Write} {reply : Reply}
    (hcom : committedEvent board.requests request.requestId = some committed)
    (hwrite : write payload mutation board request = .ok (after, reply)) : after = board := by
  unfold write at hwrite
  rw [hcom] at hwrite
  obtain ⟨-, -, hwrite⟩ := bind_eq_ok hwrite
  obtain ⟨_, hbook, hwrite⟩ := bind_eq_ok hwrite
  obtain ⟨-, -, hwrite⟩ := bind_eq_ok hwrite
  rw [append_committed hcom] at hbook
  cases hbook
  cases hwrite
  rfl

variable {digest : String ↪ String}

theorem raiseE2eCap_write {after : Board} {reply : Reply}
    (hrai : raiseE2eCap digest board call = .ok (after, reply)) :
    ∃ decision runs request, request.requestId = call.request ∧
      write (raisePayload runs call.comment decision) (raiseMutation call runs decision) board request =
        .ok (after, reply) := by
  obtain ⟨-, -, hrai⟩ := bind_eq_ok hrai
  obtain ⟨-, -, hrai⟩ := bind_eq_ok hrai
  obtain ⟨-, -, hrai⟩ := bind_eq_ok hrai
  obtain ⟨⟨decision, runs⟩, -, hrai⟩ := bind_eq_ok hrai
  obtain ⟨-, -, hrai⟩ := bind_eq_ok hrai
  exact ⟨decision, runs, _, rfl, hrai⟩

/-- A call whose request id is used leaves the board as it was. -/
theorem afterRaise_used (hcom : committedEvent board.requests call.request = some committed) :
    afterRaise digest board call = board := by
  unfold afterRaise
  split
  · rename_i _ _ hrai
    obtain ⟨_, _, _, hreq, hwrite⟩ := raiseE2eCap_write hrai
    rw [← hreq] at hcom
    exact write_committed hcom hwrite
  · rfl

theorem raiseRun_used {calls : List RaiseCall} (hcalls : ∀ call ∈ calls, call.request = requestId)
    (hcom : committedEvent board.requests requestId = some committed) :
    raiseRun digest board calls = board := by
  induction calls with
  | nil => rfl
  | cons call _ ih =>
    have hused : afterRaise digest board call = board := by
      rw [← hcalls call List.mem_cons_self] at hcom
      exact afterRaise_used hcom
    rw [raiseRun, List.foldl_cons, hused]
    exact ih fun l hlater ↦ hcalls l (List.mem_cons_of_mem call hlater)

end Used

/-! ### Fresh request ids -/

section Fresh

variable {requests : Requests} {requestId : String} {now : ℕ}

theorem Write.record_generic (request : Write) (card : Card) (revision : String) (payload : Json) :
    isProtocolEvent (request.record card revision payload) = false := rfl

/-- A write under a fresh id has its effect and commits its record. -/
theorem write_fresh {payload : Card → Except Raised Json} {mutation : Board → Card → Board} {board : Board}
    {request : Write} {card changed : Card} {document : Json}
    (hfresh : board.requests.find request.requestId = none) (hcard : board.cards request.reference = some card)
    (hload : payload card = .ok document)
    (hbook : ∀ before, (mutation before card).requests = before.requests)
    (hchg : ∀ ledger, (mutation { board with requests := ledger } card).cards request.reference = some changed) :
    ∃ after reply ledger, write payload mutation board request = .ok (after, reply) ∧
      after.cards = (mutation { board with requests := ledger } card).cards ∧
        (committedEvent after.requests request.requestId).isSome = true := by
  let staged := claimRow board.requests request.requestId (request.record card card.revision document) .staged
    request.now
  have hstage : pendingEvent staged request.requestId = some (request.record card card.revision document) :=
    record_claimRow _ _ _ _ _
  obtain ⟨restaged, _, hrestage, hrestaged, hsame⟩ := @stage_generic staged request.requestId request.now _
    (request.record card changed.revision document) hstage (request.record_generic _ _ _)
    (request.record_generic _ _ _)
  let committed := claimRow restaged request.requestId (request.record card changed.revision document) .committed
    request.now
  refine ⟨{ mutation { board with requests := staged } card with requests := committed },
    ⟨request.eventId, false⟩, staged, ?_, rfl, ?_⟩
  · have hshow : board.show request.reference = .ok card := by rw [Board.show, hcard]
    have hmutated : (mutation { board with requests := staged } card).show request.reference = .ok changed := by
      rw [Board.show, hchg]
    unfold write
    rw [committedEvent, pendingEvent, record_of_absent hfresh, record_of_absent hfresh]
    simp only [writeEffect, hshow, hload, stage_absent hfresh, bind, Except.bind, Except.mapError]
    rw [hmutated]
    simp only [hbook]
    rw [hrestage]
    simp only [append_pending hrestaged hsame, pure, Except.pure]
    rfl
  · rw [committedEvent, record_claimRow]
    rfl

end Fresh

/-! ### The answer to a batch decision -/

section Batch

variable (digest : String ↪ String)

/-- The owner's comment answers the decision card of a batch, after its handover, by a raise; no raise was made
with the comment before. -/
structure BatchAnswer (board : Board) (comment decision : String) (batch : List CardRef) (runs : ℕ) : Prop where
  nonempty : comment ≠ ""
  named : ∃ event, namedEvent board.requests comment = some event ∧ event.get "kind" = .str "commented" ∧
    (event.get "payload").get "marker" = .str ownerRole ∧ (event.get "ref").textOr = decision ∧
      (commentBody digest (board.comments decision) ((event.get "payload").get "body_sha256").textOr).bind
        ownerAnswer = some (.raise runs)
  cut : ∃ first rest generation, batch = first :: rest ∧
    createdId (events board.requests decision) = some (batchDecisionRequestId (batch.map (·.text)) generation)
  handed : comment ∈ ownerAnswersAfterHandover false (events board.requests decision)
  unused : board.requests.find ("e2e-cap-raise-" ++ comment) = none
  first : ∀ reference, earlierRaise board reference comment = none

variable {digest} {comment decision : String} {batch : List CardRef} {runs : ℕ}

/-- The batch decision is one of exactly its cards. -/
theorem BatchAnswer.isBudgetDecision_iff (hanswer : BatchAnswer digest board comment decision batch runs)
    (reference : String) :
    isBudgetDecision reference (events board.requests decision) = true ↔ reference ∈ batch.map (·.text) := by
  obtain ⟨_, _, _, rfl, hmade⟩ := hanswer.cut
  unfold isBudgetDecision
  rw [hmade]
  simp only [isDecisionOf_batchDecisionRequestId, batchDecisionCards_batchDecisionRequestId, decide_eq_true_eq]
  constructor
  · rintro (hone | hbatch)
    · exact nomatch hone
    · exact hbatch.2
  · intro hmem
    obtain ⟨card, -, rfl⟩ := List.mem_map.mp hmem
    exact .inr ⟨card.not_sprint, hmem⟩

theorem answeredRaise_ok_iff {eventId : String} {add : Option ℕ} {raised : ℕ} :
    answeredRaise eventId (some (.raise runs)) add = .ok raised ↔
      raised = runs ∧ (add = none ∨ add = some runs) := by
  unfold answeredRaise
  dsimp only
  split_ifs with hadd
  · constructor
    · intro hok
      cases hok
      exact ⟨rfl, hadd⟩
    · rintro ⟨rfl, -⟩
      rfl
  · constructor
    · exact nofun
    · exact fun hok ↦ absurd hok.2 hadd

/-- What the comment authorizes: a raise of each card of the batch by the number of the answer. -/
theorem BatchAnswer.authorizedRaise_iff (hanswer : BatchAnswer digest board comment decision batch runs)
    (hstripped : strip comment.toList = comment.toList) {reference card : String} {add : Option ℕ} {raised : ℕ} :
    authorizedRaise digest board.requests board.comments comment reference add = .ok (card, raised) ↔
      (card = decision ∧ raised = runs) ∧ reference ∈ batch.map (·.text) ∧ (add = none ∨ add = some runs) := by
  obtain ⟨ev, hnamed, hkind, hmarker, rfl, hbody⟩ := hanswer.named
  have howner : ¬ (ev.get "kind" ≠ .str "commented" ∨ (ev.get "payload").get "marker" ≠ .str ownerRole) := by
    simp [hkind, hmarker]
  rw [← hanswer.isBudgetDecision_iff, authorizedRaise, hstripped, String.ofList_toList, if_neg hanswer.nonempty, hnamed]
  dsimp only
  rw [if_neg howner, hbody]
  by_cases hdec : isBudgetDecision reference (events board.requests (ev.get "ref").textOr) = true
  · rw [if_neg (by simp [hdec]), if_neg (not_not.mpr hanswer.handed)]
    constructor
    · intro hok
      obtain ⟨_, hans, hpair⟩ := bind_eq_ok hok
      cases hpair
      obtain ⟨rfl, hadd⟩ := answeredRaise_ok_iff.mp hans
      exact ⟨⟨rfl, rfl⟩, hdec, hadd⟩
    · rintro ⟨⟨rfl, rfl⟩, -, hadd⟩
      rw [answeredRaise_ok_iff.mpr ⟨rfl, hadd⟩]
      rfl
  · rw [if_pos (by simpa using hdec)]
    constructor
    · rintro ⟨⟩
    · exact fun hok ↦ absurd hok.2.1 hdec

/-- The card has a cap of its own. -/
def hasOwnCap (board : Board) (card : Card) : Prop :=
  (card.type = "" ∨ card.type = "code") ∧ (card.sprint = "" ∨ board.sprintOpen card.sprint = false) ∧
    card.recordType ≠ "issue" ∧ card.recordType ≠ "product"

/-- The call is one that the comment authorizes: by the product owner, on a card of the batch with a cap of its
own, and by the number of the answer if it names one. -/
structure Authorized (board : Board) (batch : List CardRef) (runs : ℕ) (call : RaiseCall) : Prop where
  role : call.role = "po" ∧ strip call.actor.toList ≠ "observer".toList
  add : call.add = none ∨ call.add = some (runs : ℤ)
  named : call.reference ∈ batch.map (·.text)
  card : ∃ card, board.cards call.reference = some card ∧ hasOwnCap board card

theorem admitPo_ok_iff {role actor : String} :
    admitPo role actor = .ok () ↔ role = "po" ∧ strip actor.toList ≠ "observer".toList := by
  unfold admitPo
  split_ifs with hobserver hrole <;> simp_all

theorem checkCard_ok_iff :
    checkCard board call = .ok () ↔ ∃ card, board.cards call.reference = some card ∧
      (card.type = "" ∨ card.type = "code") ∧ (card.sprint = "" ∨ board.sprintOpen card.sprint = false) := by
  unfold checkCard
  cases hcard : board.cards call.reference with
  | none => simp [Board.show, hcard, bind, Except.bind]
  | some card =>
    simp only [Board.show, hcard, bind, Except.bind, pure, Except.pure, Option.some.injEq, exists_eq_left']
    split_ifs with htype hspr
    · tauto
    · simp only [reduceCtorEq, false_iff, hspr.2]
      tauto
    · refine iff_of_true rfl ⟨by tauto, ?_⟩
      by_cases hnil : card.sprint = ""
      · exact .inl hnil
      · exact .inr (by simpa [hnil] using hspr)

/-- The number that a call names is the one of the answer, and counts. -/
theorem checkAdd_and_iff (hruns : 0 < runs) {add : Option ℤ} :
    checkAdd add = .ok () ∧ (add.map Int.toNat = none ∨ add.map Int.toNat = some runs) ↔
      add = none ∨ add = some (runs : ℤ) := by
  cases add with
  | none => simp [checkAdd]
  | some _ =>
    unfold checkAdd
    dsimp only
    split_ifs with hsmall
    · simp only [false_and, false_or, Option.some.injEq, false_iff]
      omega
    · simp only [Option.map_some, reduceCtorEq, false_or, Option.some.injEq, true_and]
      omega

theorem raisePayload_ok_iff {card : Card} :
    (∃ document, raisePayload runs comment decision card = .ok document) ↔
      card.recordType ≠ "issue" ∧ card.recordType ≠ "product" := by
  unfold raisePayload checkExecutionRecord
  split_ifs with htyped
  · tauto
  · tauto

theorem BatchAnswer.runs_pos (hanswer : BatchAnswer digest board comment decision batch runs) : 0 < runs := by
  obtain ⟨_, -, -, -, -, hbody⟩ := hanswer.named
  obtain ⟨_, -, hrai⟩ := Option.bind_eq_some_iff.mp hbody
  exact (ownerAnswer_eq_raise hrai).2

/-- The card with one more raise. -/
def raisedCard (call : RaiseCall) (runs : ℕ) (decision : String) (card : Card) : Card :=
  { card with
    updatedAt := call.raisedAt
    capRaises := card.capRaises ++ [⟨runs, call.comment, decision, call.raisedAt⟩] }

theorem cardCap_raisedCard (call : RaiseCall) (card : Card) :
    cardCap (raisedCard call runs decision card) = cardCap card + runs := by
  simp only [cardCap, raisedCard, List.map_append, List.map_cons, List.map_nil, List.sum_append, List.sum_cons,
    List.sum_nil]
  omega

/-- A call with the comment and without a request id of its own. -/
def isCallOf (comment : String) (call : RaiseCall) : Prop := call.comment = comment ∧ call.requestId = none

theorem isCallOf.request (hcall : isCallOf comment call) :
    call.request = "e2e-cap-raise-" ++ comment := by
  rw [RaiseCall.request, hcall.2, ← hcall.1]

theorem isCallOf.stripped (hcall : isCallOf comment call) :
    strip comment.toList = comment.toList := by
  rw [← hcall.1, RaiseCall.comment, String.toList_ofList, strip_strip]

section

variable (hanswer : BatchAnswer digest board comment decision batch runs)
include hanswer

/-- Before the first raise, a call that is authorized raises its card and uses the request id. -/
theorem BatchAnswer.afterRaise_authorized (hcall : isCallOf comment call) (hauth : Authorized board batch runs call) :
    ∃ card, board.cards call.reference = some card ∧
      (afterRaise digest board call).cards =
        Function.update board.cards call.reference (some (raisedCard call runs decision card)) ∧
      (committedEvent (afterRaise digest board call).requests ("e2e-cap-raise-" ++ comment)).isSome = true := by
  obtain ⟨card, hcard, htype, hspr, hrec⟩ := hauth.card
  obtain ⟨hadd, hnum⟩ := (checkAdd_and_iff hanswer.runs_pos).mpr hauth.add
  have hraise := (hanswer.authorizedRaise_iff hcall.stripped).mpr ⟨⟨rfl, rfl⟩, hauth.named, hnum⟩
  obtain ⟨doc, hdoc⟩ := (@raisePayload_ok_iff comment decision runs card).mpr hrec
  have hunused : board.requests.find call.request = none := by rw [hcall.request, hanswer.unused]
  have honce : checkRaisedOnce board call = .ok () := by
    unfold checkRaisedOnce
    rw [hcall.1, hanswer.first]
    split <;> first | rfl | contradiction
  let request : Write := {
    kind := cardCapRaised
    role := call.role
    actor := call.actor
    reference := call.reference
    requestId := call.request
    identity := raiseIdentity runs comment
    eventId := call.eventId
    occurredAt := call.raisedAt
    now := call.now }
  obtain ⟨after, reply, _, hwrite, hcards, hcom⟩ :=
    @write_fresh (raisePayload runs comment decision) (raiseMutation call runs decision) board request card
      (raisedCard call runs decision card) doc hunused hcard hdoc (fun _ ↦ rfl)
      (fun _ ↦ Function.update_self _ _ _)
  have hok : raiseE2eCap digest board call = .ok (after, reply) := by
    rw [raiseE2eCap, admitPo_ok_iff.mpr hauth.role, hadd, checkCard_ok_iff.mpr ⟨card, hcard, htype, hspr⟩,
      hcall.1, hraise, honce]
    exact hwrite
  have hafter : afterRaise digest board call = after := by rw [afterRaise, hok]
  refine ⟨card, hcard, ?_, ?_⟩
  · rw [hafter, hcards]
    rfl
  · rw [hafter, ← hcall.request]
    exact hcom

/-- Before the first raise, a call that is not authorized is refused. -/
theorem BatchAnswer.afterRaise_unauthorized (hcall : isCallOf comment call)
    (hauth : ¬ Authorized board batch runs call) : afterRaise digest board call = board := by
  unfold afterRaise
  split
  · rename_i _ _ hrai
    refine absurd ?_ hauth
    obtain ⟨⟨⟩, hrole, hrai⟩ := bind_eq_ok hrai
    obtain ⟨⟨⟩, hadd, hrai⟩ := bind_eq_ok hrai
    obtain ⟨⟨⟩, hcard, hrai⟩ := bind_eq_ok hrai
    obtain ⟨⟨_, _⟩, hauthorizes, hrai⟩ := bind_eq_ok hrai
    obtain ⟨-, -, hrai⟩ := bind_eq_ok hrai
    rw [hcall.1] at hauthorizes
    obtain ⟨-, hnamed, hnum⟩ := (hanswer.authorizedRaise_iff hcall.stripped).mp hauthorizes
    obtain ⟨shown, hshown, htype, hspr⟩ := checkCard_ok_iff.mp hcard
    refine ⟨admitPo_ok_iff.mp hrole, (checkAdd_and_iff hanswer.runs_pos).mp ⟨hadd, hnum⟩, hnamed, shown, hshown,
      htype, hspr, ?_⟩
    -- the payload of the record was made
    have habs : board.requests.find call.request = none := by rw [hcall.request, hanswer.unused]
    unfold write at hrai
    rw [committedEvent, pendingEvent, record_of_absent habs, record_of_absent habs] at hrai
    obtain ⟨_, hagain, hrai⟩ := bind_eq_ok hrai
    obtain ⟨doc, hdoc, -⟩ := bind_eq_ok hrai
    rw [Board.show, hshown] at hagain
    cases hagain
    exact raisePayload_ok_iff.mp ⟨doc, hdoc⟩
  · rfl

/-- A run of calls with the comment is its first authorized call. -/
theorem BatchAnswer.raiseRun_cases {calls : List RaiseCall} (hcalls : ∀ call ∈ calls, isCallOf comment call) :
    (∀ call ∈ calls, ¬ Authorized board batch runs call) ∧ raiseRun digest board calls = board ∨
      ∃ call ∈ calls, Authorized board batch runs call ∧
        raiseRun digest board calls = afterRaise digest board call := by
  induction calls with
  | nil => exact .inl ⟨nofun, rfl⟩
  | cons call rest ih =>
    have hcall := hcalls call List.mem_cons_self
    have hrest (l : RaiseCall) (hlater : l ∈ rest) := hcalls l (List.mem_cons_of_mem call hlater)
    rw [raiseRun, List.foldl_cons]
    by_cases hauth : Authorized board batch runs call
    · refine .inr ⟨call, List.mem_cons_self, hauth, ?_⟩
      obtain ⟨-, -, -, hcom⟩ := hanswer.afterRaise_authorized hcall hauth
      obtain ⟨_, hrec⟩ := Option.isSome_iff_exists.mp hcom
      exact raiseRun_used (fun l hlater ↦ (hrest l hlater).request) hrec
    · rw [hanswer.afterRaise_unauthorized hcall hauth]
      rcases ih hrest with ⟨hnone, hsame⟩ | ⟨a, hfst, hfauth, hafter⟩
      · refine .inl ⟨fun l hlater ↦ ?_, hsame⟩
        rcases List.mem_cons.mp hlater with rfl | hlater
        · exact hauth
        · exact hnone l hlater
      · exact .inr ⟨a, List.mem_cons_of_mem call hfst, hfauth, hafter⟩

end

/-- The cap of the card with a reference. -/
def Board.cap (board : Board) (reference : String) : Option ℕ := (board.cards reference).map cardCap

/-- At most one card of the batch changes, it is raised by the number of the answer once, and so every card
that is called is raised exactly when the calls that are authorized name one card. -/
theorem batchRaise_oneCard (hanswer : BatchAnswer digest board comment decision batch runs)
    (calls : List RaiseCall) (hcalls : ∀ call ∈ calls, isCallOf comment call) :
    (∀ reference, (raiseRun digest board calls).cards reference ≠ board.cards reference →
      (∃ call ∈ calls, Authorized board batch runs call ∧ call.reference = reference) ∧
        (raiseRun digest board calls).cap reference = (board.cap reference).map (· + runs)) ∧
    ((∀ call ∈ calls, Authorized board batch runs call →
        (raiseRun digest board calls).cap call.reference = (board.cap call.reference).map (· + runs)) ↔
      ∀ call ∈ calls, ∀ other ∈ calls, Authorized board batch runs call → Authorized board batch runs other →
        call.reference = other.reference) := by
  rcases hanswer.raiseRun_cases hcalls with ⟨hnone, hsame⟩ | ⟨first, hfst, hauth, hafter⟩
  · rw [hsame]
    refine ⟨fun reference hchg ↦ absurd rfl hchg, ?_⟩
    refine iff_of_true (fun call hcall h ↦ absurd h (hnone call hcall)) ?_
    exact fun call hcall other hoth h ↦ absurd h (hnone call hcall)
  · obtain ⟨card, hcard, hcards, -⟩ := hanswer.afterRaise_authorized (hcalls first hfst) hauth
    have herr : (raiseRun digest board calls).cap first.reference =
        (board.cap first.reference).map (· + runs) := by
      rw [hafter, Board.cap, hcards, Function.update_self, Board.cap, hcard, Option.map_some, Option.map_some,
        Option.map_some, cardCap_raisedCard]
    have hkept (reference : String) (hoth : reference ≠ first.reference) :
        (raiseRun digest board calls).cards reference = board.cards reference := by
      rw [hafter, hcards, Function.update_of_ne hoth]
    refine ⟨fun reference hchg ↦ ?_, fun hall ↦ ?_, fun hone call hcall hcauth ↦ ?_⟩
    · have hrefer : reference = first.reference := by
        by_contra hoth
        exact hchg (hkept reference hoth)
      subst hrefer
      exact ⟨⟨first, hfst, hauth, rfl⟩, herr⟩
    · -- a second card that is called keeps its cap
      have hsingle (call : RaiseCall) (hcall : call ∈ calls) (hcauth : Authorized board batch runs call) :
          call.reference = first.reference := by
        by_contra hoth
        have hcap := hall call hcall hcauth
        obtain ⟨_, hcalled, -⟩ := hcauth.card
        rw [Board.cap, hkept _ hoth, Board.cap, hcalled, Option.map_some, Option.map_some, Option.some.injEq] at hcap
        have hpos := hanswer.runs_pos
        omega
      intro call hcall other hoth hcauth hoauth
      rw [hsingle call hcall hcauth, hsingle other hoth hoauth]
    · rw [hone call hcall first hfst hcauth hauth]
      exact herr

end Batch

/-! ### A batch of two cards -/

def twoCards : List CardRef := [⟨"demo-1", by decide⟩, ⟨"demo-2", by decide⟩]

/-- The decision card of the two cards. -/
def twoCardsLedger : Requests where
  rows := decisionRows (batchDecisionRequestId ["demo-1", "demo-2"] 6)
  unique := by decide

def twoCardsBoard : Board where
  requests := twoCardsLedger
  cards reference :=
    if reference = "demo-1" then some { number := 1, updatedAt := "1" }
    else if reference = "demo-2" then some { number := 2, updatedAt := "1" }
    else if reference = "demo-7" then
      some { number := 7, type := "decision", updatedAt := "3",
             comments := [⟨"owner", "[owner]\ne2e budget: raise 2"⟩] }
    else none
  openSprints := []

/-- The product owner raises the cap of a card with the comment. -/
def raiseOf (reference eventId : String) : RaiseCall where
  role := "po"
  actor := "po"
  reference := reference
  authorizedBy := "e3"
  add := none
  requestId := none
  eventId := eventId
  raisedAt := "4"
  now := 4

theorem twoCardsBoard_answer :
    BatchAnswer (.refl String) twoCardsBoard "e3" "demo-7" twoCards 2 where
  nonempty := by decide
  named := ⟨_, rfl, by decide +kernel, by decide +kernel, by decide +kernel, by decide +kernel⟩
  cut := ⟨⟨"demo-1", by decide⟩, [⟨"demo-2", by decide⟩], 6, rfl, by decide +kernel⟩
  handed := by decide +kernel
  unused := by decide +kernel
  first reference := by
    rw [earlierRaise, List.find?_eq_none]
    intro _ hevent
    obtain ⟨row, hrow, rfl⟩ := List.mem_map.mp hevent
    have hbook := List.mem_of_mem_filter ((List.mem_insertionSort _).mp hrow)
    have hkinds : ∀ row ∈ twoCardsLedger.rows, row.intent.get "kind" ≠ .str cardCapRaised := by decide +kernel
    simpa using fun hkind ↦ absurd hkind (hkinds row hbook)

theorem raiseOf_authorized {reference eventId : String} (hrefer : reference ∈ twoCards.map (·.text)) :
    Authorized twoCardsBoard twoCards 2 (raiseOf reference eventId) where
  role := ⟨rfl, show strip "po".toList ≠ "observer".toList by decide⟩
  add := .inl rfl
  named := hrefer
  card := by
    have hcards : reference = "demo-1" ∨ reference = "demo-2" := by simpa [twoCards] using hrefer
    rcases hcards with rfl | rfl
    · exact ⟨_, rfl, .inr rfl, .inl rfl, by decide, by decide⟩
    · exact ⟨_, rfl, .inr rfl, .inl rfl, by decide, by decide⟩

theorem batchRaise_oneCard_witness :
    (raiseRun (.refl String) twoCardsBoard [raiseOf "demo-1" "r1", raiseOf "demo-1" "r2"]).cap "demo-1" =
      some 5 := by
  have hcalls : ∀ call ∈ [raiseOf "demo-1" "r1", raiseOf "demo-1" "r2"], isCallOf "e3" call := by
    simp only [List.mem_cons, List.not_mem_nil, or_false, forall_eq_or_imp, forall_eq]
    exact ⟨⟨by decide +kernel, rfl⟩, by decide +kernel, rfl⟩
  have herr := (batchRaise_oneCard twoCardsBoard_answer _ hcalls).2.mpr (by simp [raiseOf])
    (raiseOf "demo-1" "r1") List.mem_cons_self (raiseOf_authorized List.mem_cons_self)
  exact herr

/-- Both cards of the batch are called, and the second keeps its cap. -/
theorem batchRaise_secondKept :
    Authorized twoCardsBoard twoCards 2 (raiseOf "demo-2" "r2") ∧
      (raiseRun (.refl String) twoCardsBoard [raiseOf "demo-1" "r1", raiseOf "demo-2" "r2"]).cap "demo-1" = some 5 ∧
      twoCardsBoard.cap "demo-2" = some 3 ∧
      (raiseRun (.refl String) twoCardsBoard [raiseOf "demo-1" "r1", raiseOf "demo-2" "r2"]).cap "demo-2" = some 3 :=
  ⟨raiseOf_authorized (by simp [twoCards]), by decide +kernel, by decide +kernel, by decide +kernel⟩

end Ummanu.Budget
