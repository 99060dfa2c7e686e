import Ummanu.Budget.Decision
import Ummanu.Ledger.RequestsLaw

/-!
# A decision authorizes its own scope

The ids of decisions are read back by their prefix, so that what a decision authorizes rests on how ids are
put together. Card references are tokens and stand for themselves; a sprint's reference is `sprint:` and a
name that is not restricted, and two names that become one token share their ids. Among names no two of which
do, the ids of different scopes and batches differ, a batch names exactly its cards, and a raise is authorized
only by a decision of its scope, by the number of the owner's one answer line.
-/

set_option autoImplicit false

namespace Ummanu.Budget

open Library Ledger

/-! ### References -/

/-- The grammar of card references: lower-case letters, digits and dashes, a dash and digits at the end, and
not a dash at the begin. -/
def isCardRef (ref : List Char) : Bool :=
  ref.all (fun c ↦ c.isLower || c.isDigit || c = '-') = true ∧ ref.head? ≠ some '-' ∧
    ref.getLast?.any Char.isDigit = true ∧
    2 ≤ (ref.reverse.dropWhile Char.isDigit).length ∧ (ref.reverse.dropWhile Char.isDigit).head? = some '-'

@[ext]
structure CardRef where
  text : String
  grammar : isCardRef text.toList = true

/-- What has an e2e budget: a sprint, by its name, or a card outside every sprint. -/
inductive Scope
  | sprint (name : String)
  | card (ref : CardRef)

/-- The reference of a scope. -/
def Scope.ref : Scope → String
  | .sprint name => "sprint:" ++ name
  | .card ref => ref.text

/-- A sprint of the scope has one of the names. -/
def Scope.within (names : Set String) : Scope → Prop
  | .sprint name => name ∈ names
  | .card _ => True

/-- What a decision card was cut for: one scope, or a batch of cards. -/
inductive Cut
  | scope (scope : Scope) (generation : ℕ)
  | batch (first : CardRef) (rest : List CardRef) (generation : ℕ)

/-- The id that the decision card was created under. -/
def Cut.requestId : Cut → String
  | .scope cutFor generation => decisionRequestId cutFor.ref generation
  | .batch first rest generation => batchDecisionRequestId ((first :: rest).map (·.text)) generation

def Cut.within (names : Set String) : Cut → Prop
  | .scope cutFor _ => cutFor.within names
  | .batch _ _ _ => True

/-- The decision was cut for the scope, or for a batch that names it. -/
def Cut.names (scope : Scope) : Cut → Prop
  | .scope cutFor _ => cutFor = scope
  | .batch first rest _ => ∃ card ∈ first :: rest, scope = .card card

section CardRefs

variable (card : CardRef)

theorem CardRef.chars : ∀ c ∈ card.text.toList, c.isLower = true ∨ c.isDigit = true ∨ c = '-' := by
  have hgram := card.grammar
  simp only [isCardRef, decide_eq_true_eq, List.all_eq_true] at hgram
  simpa [or_assoc] using hgram.1

theorem CardRef.isToken : isToken card.text.toList = true := by
  have hgram := card.grammar
  simp only [isCardRef, decide_eq_true_eq] at hgram
  obtain ⟨-, hhead, hlast, -, -⟩ := hgram
  rw [Ledger.isToken, decide_eq_true_iff, List.all_eq_true]
  refine ⟨?_, fun c hc ↦ ?_, hhead, ?_⟩
  · rintro hnil
    rw [hnil] at hlast
    cases hlast
  · rcases card.chars c hc with hlower | hdigit | rfl
    · simp [keepsInToken, Char.isAlphanum, Char.isAlpha, hlower]
    · simp [keepsInToken, Char.isAlphanum, hdigit]
    · rfl
  · intro hdash
    rw [hdash] at hlast
    cases hlast

theorem CardRef.requestToken : requestToken card.text = card.text := requestToken_of_isToken card.isToken

/-- A character outside the grammar is in no card reference. -/
theorem CardRef.not_mem {c : Char} (hc : (c.isLower || c.isDigit || c = '-') = false) :
    c ∉ card.text.toList := by
  intro hmem
  have := card.chars c hmem
  simp_all

theorem CardRef.not_sprint : isSprintRef card.text = false := by
  rw [isSprintRef, ← Bool.not_eq_true, List.isPrefixOf_iff_prefix]
  intro hspr
  have hcolon : ':' ∈ card.text.toList := hspr.subset (by decide)
  exact card.not_mem (by decide) hcolon

end CardRefs

/-! ### Ids of decisions -/

section Ids

/-- What stands before the token of a scope. -/
def actionHead (sprint : Bool) : List Char :=
  if sprint then "dispatcher-e2e-budget-".toList else "dispatcher-e2e-cap-".toList

theorem decisionPrefix_append (scopeRef : String) (generation : List Char) :
    (decisionPrefix scopeRef).toList ++ generation =
      (actionHead (isSprintRef scopeRef) ++ (requestToken scopeRef).toList) ++ '-' :: generation := by
  have hdisp : requestToken "dispatcher" = "dispatcher" := by decide
  have hbudget : requestToken "e2e-budget" = "e2e-budget" := by decide
  have hcap : requestToken "e2e-cap" = "e2e-cap" := by decide
  rw [decisionPrefix, decisionAction, actionHead]
  cases isSprintRef scopeRef <;>
    simp [joinedTokens, hdisp, hbudget, hcap]

theorem dash_notMem_of_isDigits {digits : List Char} (hdig : isDigits digits = true) : '-' ∉ digits := by
  intro hmem
  rw [isDigits, Bool.and_eq_true, List.all_eq_true] at hdig
  cases hdig.2 _ hmem

/-- The kind of the scope, its token and the generation are read back from an id. -/
theorem decisionPrefix_append_inj {scopeRef otherRef : String} {ds es : List Char} (hds : '-' ∉ ds) (hes : '-' ∉ es)
    (hsame : (decisionPrefix scopeRef).toList ++ ds = (decisionPrefix otherRef).toList ++ es) :
    isSprintRef scopeRef = isSprintRef otherRef ∧ requestToken scopeRef = requestToken otherRef ∧ ds = es := by
  rw [decisionPrefix_append, decisionPrefix_append] at hsame
  obtain ⟨hfront, hback⟩ := append_cons_inj_of_last hds hes hsame
  cases hscope : isSprintRef scopeRef <;> cases hoth : isSprintRef otherRef <;>
    rw [hscope, hoth] at hfront <;> simp [actionHead] at hfront
  · exact ⟨rfl, String.toList_inj.mp hfront, hback⟩
  · exact ⟨rfl, String.toList_inj.mp hfront, hback⟩

theorem decisionRequestId_toList (scopeRef : String) (generation : ℕ) :
    (decisionRequestId scopeRef generation).toList =
      (decisionPrefix scopeRef).toList ++ (toString generation).toList := by
  rw [decisionRequestId, String.toList_append]

theorem decisionRequestId_inj {scopeRef otherRef : String} {generation other : ℕ} :
    decisionRequestId scopeRef generation = decisionRequestId otherRef other ↔
      (isSprintRef scopeRef = isSprintRef otherRef ∧ requestToken scopeRef = requestToken otherRef) ∧
        generation = other := by
  constructor
  · intro hsame
    have hchars := congrArg String.toList hsame
    rw [decisionRequestId_toList, decisionRequestId_toList] at hchars
    obtain ⟨hkind, htoken, hdig⟩ := decisionPrefix_append_inj
      (dash_notMem_of_isDigits (isDigits_toString generation)) (dash_notMem_of_isDigits (isDigits_toString other))
      hchars
    exact ⟨⟨hkind, htoken⟩, toString_injective (String.toList_inj.mp hdig)⟩
  · rintro ⟨⟨hkind, htoken⟩, rfl⟩
    rw [← String.toList_inj, decisionRequestId_toList, decisionRequestId_toList, decisionPrefix_append,
      decisionPrefix_append, hkind, htoken]

/-- A decision is one of the scope exactly when it was cut for the scope's kind and token. -/
theorem isDecisionOf_decisionRequestId (scopeRef otherRef : String) (generation : ℕ) :
    isDecisionOf scopeRef (decisionRequestId otherRef generation) = true ↔
      isSprintRef scopeRef = isSprintRef otherRef ∧ requestToken scopeRef = requestToken otherRef := by
  rw [isDecisionOf, decisionRequestId_toList]
  constructor
  · cases hread : (decisionPrefix scopeRef).toList.isPrefixOf?
        ((decisionPrefix otherRef).toList ++ (toString generation).toList) with
    | none => exact fun h ↦ nomatch h
    | some _ =>
      intro hdig
      have hchars := List.isPrefixOf?_eq_some_iff_append_eq.mp hread
      obtain ⟨hkind, htoken, -⟩ := decisionPrefix_append_inj (dash_notMem_of_isDigits hdig)
        (dash_notMem_of_isDigits (isDigits_toString generation)) hchars
      exact ⟨hkind, htoken⟩
  · rintro ⟨hkind, htoken⟩
    have hread : (decisionPrefix scopeRef).toList.isPrefixOf?
        ((decisionPrefix otherRef).toList ++ (toString generation).toList) =
          some (toString generation).toList := by
      rw [List.isPrefixOf?_eq_some_iff_append_eq, decisionPrefix_append, decisionPrefix_append, hkind, htoken]
    rw [hread]
    exact isDigits_toString generation

/-! ### Ids of batches -/

section

variable (scopeRef : String) (spent : List String) (generation : ℕ)

/-- The text of a batch id. -/
theorem batchDecisionRequestId_toList :
    (batchDecisionRequestId spent generation).toList =
      batchPrefix.toList ++ ((toString generation).toList ++
        '-' :: ['.'].intercalate (spent.map fun ref ↦ (requestToken ref).toList)) := by
  simp [batchDecisionRequestId, String.toList_intercalate, Function.comp_def]

/-- A decision of one scope does not start as a batch's does. -/
theorem decisionPrefix_append_ne_batch (generation tail : List Char) :
    (decisionPrefix scopeRef).toList ++ generation ≠ batchPrefix.toList ++ tail := by
  rw [decisionPrefix_append, actionHead, batchPrefix]
  cases isSprintRef scopeRef <;> simp

theorem decisionRequestId_ne_batch (generation other : ℕ) (spent : List String) :
    decisionRequestId scopeRef generation ≠ batchDecisionRequestId spent other := by
  intro hsame
  have hchars := congrArg String.toList hsame
  rw [decisionRequestId_toList, batchDecisionRequestId_toList] at hchars
  exact decisionPrefix_append_ne_batch _ _ _ hchars

theorem batchDecisionCards_decisionRequestId :
    batchDecisionCards (decisionRequestId scopeRef generation) = [] := by
  rw [batchDecisionCards]
  cases hread : batchPrefix.toList.isPrefixOf? (decisionRequestId scopeRef generation).toList with
  | none => rfl
  | some _ =>
    have hchars := List.isPrefixOf?_eq_some_iff_append_eq.mp hread
    rw [decisionRequestId_toList] at hchars
    exact absurd hchars.symm (decisionPrefix_append_ne_batch _ _ _)

theorem isDecisionOf_batchDecisionRequestId :
    isDecisionOf scopeRef (batchDecisionRequestId spent generation) = false := by
  rw [isDecisionOf]
  cases hread : (decisionPrefix scopeRef).toList.isPrefixOf? (batchDecisionRequestId spent generation).toList with
  | none => rfl
  | some _ =>
    have hchars := List.isPrefixOf?_eq_some_iff_append_eq.mp hread
    rw [batchDecisionRequestId_toList] at hchars
    exact absurd hchars (decisionPrefix_append_ne_batch _ _ _)

end

/-- The tail of a batch id is read at the first dash. -/
theorem batchTail_append {digits cards : List Char} (hdig : isDigits digits = true) (hsome : cards ≠ [])
    (hline : '\n' ∉ cards) : batchTail (digits ++ '-' :: cards) = some cards := by
  rw [isDigits, Bool.and_eq_true, List.all_eq_true] at hdig
  obtain ⟨hne, hall⟩ := hdig
  have hdrop : (digits ++ '-' :: cards).dropWhile Char.isDigit = '-' :: cards := by
    rw [List.dropWhile_append_of_pos hall]
    rfl
  have htake : (digits ++ '-' :: cards).takeWhile Char.isDigit = digits := by
    rw [List.takeWhile_append_of_pos hall, List.takeWhile_cons_of_neg (by decide), List.append_nil]
  rw [batchTail, hdrop]
  simp only [htake]
  rw [if_pos ⟨by simpa using hne, hsome, hline⟩]

/-- A batch names its cards, one by one and in order. -/
theorem batchDecisionCards_batchDecisionRequestId (first : CardRef) (rest : List CardRef) (generation : ℕ) :
    batchDecisionCards (batchDecisionRequestId ((first :: rest).map (·.text)) generation) =
      (first :: rest).map (·.text) := by
  let texts := (first :: rest).map (·.text.toList)
  have htok : ((first :: rest).map (·.text)).map (fun ref ↦ (requestToken ref).toList) = texts := by
    rw [List.map_map]
    exact List.map_congr_left fun card _ ↦ congrArg String.toList card.requestToken
  have hsplit : (['.'].intercalate texts).splitOn '.' = texts := by
    refine List.splitOn_intercalate '.' (fun text htext ↦ ?_) (List.cons_ne_nil _ _)
    obtain ⟨card, -, rfl⟩ := List.mem_map.mp htext
    exact card.not_mem (by decide)
  have hsome : ['.'].intercalate texts ≠ [] := by
    intro hnil
    rw [hnil] at hsplit
    have hfst : first.text.toList = [] := (List.cons.inj hsplit).1.symm
    have htoken := first.isToken
    rw [hfst] at htoken
    exact nomatch htoken
  have hline : '\n' ∉ ['.'].intercalate texts := by
    refine notMem_intercalate (by decide) fun text htext ↦ ?_
    obtain ⟨card, -, rfl⟩ := List.mem_map.mp htext
    exact card.not_mem (by decide)
  have hread : batchPrefix.toList.isPrefixOf?
      (batchDecisionRequestId ((first :: rest).map (·.text)) generation).toList =
        some ((toString generation).toList ++ '-' :: ['.'].intercalate texts) := by
    rw [List.isPrefixOf?_eq_some_iff_append_eq, batchDecisionRequestId_toList, htok]
  rw [batchDecisionCards, hread]
  simp only [batchTail_append (isDigits_toString generation) hsome hline, hsplit]
  rw [List.map_map]
  exact List.map_congr_left fun card _ ↦ String.ofList_toList

end Ids

/-! ### The answer that counts -/

/-- The event is an owner's comment. -/
def isOwnerComment (event : Json) : Prop :=
  (event.get "kind").textOr = "commented" ∧ (event.get "payload").get "marker" = .str ownerRole

/-- An id that counts is one of an owner's comment, and the card was handed over before it. -/
theorem ownerAnswersAfterHandover_mem {handed : Bool} {history : List Json} {eventId : String}
    (hmem : eventId ∈ ownerAnswersAfterHandover handed history) :
    ∃ front answer back, history = front ++ answer :: back ∧
      (handed = true ∨ ∃ handover ∈ front, (handover.get "kind").textOr = handedToOwner) ∧
        isOwnerComment answer ∧ (answer.get "event_id").textOr = eventId := by
  -- the history is read once, from its begin
  induction history generalizing handed with
  | nil => exact nomatch hmem
  | cons ev rest ih =>
    rw [ownerAnswersAfterHandover] at hmem
    split_ifs at hmem with hover hcount
    · obtain ⟨front, answer, back, hrest, -, hans⟩ := ih hmem
      exact ⟨ev :: front, answer, back, by rw [hrest, List.cons_append],
        .inr ⟨ev, List.mem_cons_self, hover⟩, hans⟩
    rcases List.mem_cons.mp hmem with rfl | hmem
    · exact ⟨[], ev, rest, rfl, .inl hcount.1, ⟨hcount.2.1, hcount.2.2.1⟩, rfl⟩
    -- the answer comes later in the history
    all_goals
      obtain ⟨front, answer, back, hrest, hearl, hans⟩ := ih hmem
      exact ⟨ev :: front, answer, back, by rw [hrest, List.cons_append],
        hearl.imp_right fun ⟨handover, hfront, hkind⟩ ↦ ⟨handover, List.mem_cons_of_mem ev hfront, hkind⟩,
        hans⟩

/-- The answers that the lines of a comment give. -/
def answerLines (body : String) : List Answer := (splitLines [] body.toList).filterMap lineAnswer

theorem ownerAnswer_eq_raise {body : String} {runs : ℕ} (hans : ownerAnswer body = some (.raise runs)) :
    answerLines body = [.raise runs] ∧ 0 < runs := by
  rw [ownerAnswer] at hans
  rw [answerLines]
  split at hans
  · exact nomatch hans
  · rename_i _ hlines
    split_ifs at hans with hpos
    cases hans
    exact ⟨hlines, hpos⟩
  · exact nomatch hans

section Authorized

variable (digest : String ↪ String)

/-- The event id names an owner's comment on the decision card, made after the card was handed over, whose
one answer line raises by `runs`. -/
structure OwnersRaise (requests : Requests) (comments : String → List Comment) (eventId decision : String)
    (runs : ℕ) : Prop where
  named : ∃ event, namedEvent requests eventId = some event ∧ isOwnerComment event ∧
    (event.get "ref").textOr = decision ∧
      ∃ comment ∈ comments decision, comment.marker = ownerRole ∧
        digest comment.text = ((event.get "payload").get "body_sha256").textOr ∧
          answerLines comment.text = [.raise runs]
  afterHandover : ∃ front answer back, events requests decision = front ++ answer :: back ∧
    (∃ handover ∈ front, (handover.get "kind").textOr = handedToOwner) ∧
      isOwnerComment answer ∧ (answer.get "event_id").textOr = eventId

variable {digest}

theorem commentBody_eq_some {comments : List Comment} {recorded body : String}
    (hbody : commentBody digest comments recorded = some body) :
    ∃ comment ∈ comments, comment.marker = ownerRole ∧ digest comment.text = recorded ∧ comment.text = body := by
  rw [commentBody, Option.map_eq_some_iff] at hbody
  obtain ⟨comment, hfnd, rfl⟩ := hbody
  have hcounts := List.find?_some hfnd
  rw [decide_eq_true_iff] at hcounts
  exact ⟨comment, List.mem_of_find?_eq_some hfnd, hcounts.1, hcounts.2, rfl⟩

theorem answeredRaise_eq_ok {eventId : String} {answer : Option Answer} {add : Option ℕ} {runs : ℕ}
    (hrai : answeredRaise eventId answer add = .ok runs) : answer = some (.raise runs) := by
  unfold answeredRaise at hrai
  split at hrai
  · exact nomatch hrai
  · exact nomatch hrai
  · split_ifs at hrai
    cases hrai
    rfl

/-- What a raise that is authorized rests on. -/
theorem authorizedRaise_eq_ok {requests : Requests} {comments : String → List Comment}
    {authorizedBy scopeRef decision : String} {add : Option ℕ} {runs : ℕ}
    (hrai : authorizedRaise digest requests comments authorizedBy scopeRef add = .ok (decision, runs)) :
    isBudgetDecision scopeRef (events requests decision) = true ∧
      OwnersRaise digest requests comments (String.ofList (strip authorizedBy.toList)) decision runs := by
  rw [authorizedRaise] at hrai
  dsimp only at hrai
  split_ifs at hrai with hnil
  split at hrai
  · exact nomatch hrai
  rename_i ev hnamed
  split_ifs at hrai with howner hdec hover
  obtain ⟨_, hans, hpair⟩ := bind_eq_ok hrai
  cases hpair
  push Not at howner
  obtain ⟨_, hbody, hanswer⟩ := Option.bind_eq_some_iff.mp (answeredRaise_eq_ok hans)
  obtain ⟨comment, hcomment, hmarker, hdigest, rfl⟩ := commentBody_eq_some hbody
  obtain ⟨front, ans, back, hhist, hbefore, hcount⟩ := ownerAnswersAfterHandover_mem hover
  refine ⟨by simpa using hdec, ⟨ev, hnamed, ⟨by simp [howner.1], howner.2⟩, rfl, comment, hcomment,
    hmarker, hdigest, (ownerAnswer_eq_raise hanswer).1⟩, front, ans, back, hhist, ?_, hcount⟩
  simpa using hbefore

/-! ### Scopes and their tokens -/

/-- The token of the sprint with a name. -/
def sprintToken (name : String) : String := requestToken ("sprint:" ++ name)

theorem isSprintRef_sprint (name : String) : isSprintRef ("sprint:" ++ name) = true := by
  rw [isSprintRef, String.toList_append, List.isPrefixOf_iff_prefix]
  exact List.prefix_append _ _

/-- Scopes of one kind and one token are the same, if the names have tokens of their own. -/
theorem Scope.eq_of_token {names : Set String} (hnames : Set.InjOn sprintToken names) {scope other : Scope}
    (hscope : scope.within names) (hoth : other.within names)
    (hkind : isSprintRef scope.ref = isSprintRef other.ref)
    (htoken : requestToken scope.ref = requestToken other.ref) : scope = other := by
  cases scope with
  | sprint name =>
    cases other with
    | sprint b => exact congrArg Scope.sprint (hnames hscope hoth htoken)
    | card b => exact nomatch (isSprintRef_sprint name).symm.trans (hkind.trans b.not_sprint)
  | card a =>
    cases other with
    | sprint name => exact nomatch a.not_sprint.symm.trans (hkind.trans (isSprintRef_sprint name))
    | card b =>
      have htext : a.text = b.text := by
        rw [← a.requestToken, ← b.requestToken]
        exact htoken
      exact congrArg Scope.card (CardRef.ext htext)

/-- A decision card that is one of the scope was cut for it, or for a batch that names it. -/
theorem Cut.names_of_isBudgetDecision {names : Set String} (hnames : Set.InjOn sprintToken names) {scope : Scope}
    {cut : Cut} (hscope : scope.within names) (hcut : cut.within names) {history : List Json}
    (hmade : createdId history = some cut.requestId)
    (hdec : isBudgetDecision scope.ref history = true) : cut.names scope := by
  unfold isBudgetDecision at hdec
  rw [hmade] at hdec
  simp only [decide_eq_true_eq] at hdec
  cases cut with
  | scope _ generation =>
    rw [Cut.requestId, isDecisionOf_decisionRequestId, batchDecisionCards_decisionRequestId] at hdec
    rcases hdec with ⟨hkind, htoken⟩ | ⟨-, hbatch⟩
    · exact Scope.eq_of_token hnames hcut hscope hkind.symm htoken.symm
    · exact nomatch hbatch
  | batch _ _ generation =>
    rw [Cut.requestId, isDecisionOf_batchDecisionRequestId, batchDecisionCards_batchDecisionRequestId] at hdec
    rcases hdec with hone | ⟨hcard, hbatch⟩
    · exact nomatch hone
    · obtain ⟨card, hmem, htext⟩ := List.mem_map.mp hbatch
      refine ⟨card, hmem, ?_⟩
      cases scope with
      | sprint name => exact nomatch (isSprintRef_sprint name).symm.trans hcard
      | card _ => exact congrArg Scope.card (CardRef.ext htext.symm)

variable (digest)

/-- Among the sprints of some names and all cards, a decision authorizes its own scope and its own number. -/
structure OwnScope (names : Set String) : Prop where
  authorizes (requests : Requests) (comments : String → List Comment) (authorizedBy : String) (scope : Scope)
    (cut : Cut) (add : Option ℕ) (decision : String) (runs : ℕ) :
    scope.within names → cut.within names →
    authorizedRaise digest requests comments authorizedBy scope.ref add = .ok (decision, runs) →
    createdId (events requests decision) = some cut.requestId →
      cut.names scope ∧ OwnersRaise digest requests comments (String.ofList (strip authorizedBy.toList)) decision runs
  inverse (first : CardRef) (rest : List CardRef) (generation : ℕ) :
    batchDecisionCards (batchDecisionRequestId ((first :: rest).map (·.text)) generation) =
      (first :: rest).map (·.text)
  scopes_ne (scope other : Scope) (generation second : ℕ) :
    scope.within names → other.within names → scope ≠ other →
      decisionRequestId scope.ref generation ≠ decisionRequestId other.ref second
  batch_ne (scope : Scope) (generation second : ℕ) (first : CardRef) (rest : List CardRef) :
    decisionRequestId scope.ref generation ≠ batchDecisionRequestId ((first :: rest).map (·.text)) second

theorem ownScope_of_injOn {names : Set String} (hnames : Set.InjOn sprintToken names) : OwnScope digest names where
  authorizes requests comments authorizedBy scope cut add decision runs hscope hcut hrai hmade := by
    obtain ⟨hdec, howner⟩ := authorizedRaise_eq_ok hrai
    exact ⟨Cut.names_of_isBudgetDecision hnames hscope hcut hmade hdec, howner⟩
  inverse := batchDecisionCards_batchDecisionRequestId
  scopes_ne scope other generation second hscope hoth hne hsame := by
    obtain ⟨⟨hkind, htoken⟩, -⟩ := decisionRequestId_inj.mp hsame
    exact hne (Scope.eq_of_token hnames hscope hoth hkind htoken)
  batch_ne scope generation second first rest := decisionRequestId_ne_batch _ _ _ _

/-- Decisions keep to their scope among the sprints of some names exactly when no two of the names become one
token. -/
theorem decisions_ownScope_iff (names : Set String) : OwnScope digest names ↔ Set.InjOn sprintToken names := by
  refine ⟨fun hown name hname o hoth htoken ↦ ?_, ownScope_of_injOn digest⟩
  by_contra hne
  refine hown.scopes_ne (.sprint name) (.sprint o) 0 0 hname hoth (fun h ↦ hne (Scope.sprint.inj h)) ?_
  exact decisionRequestId_inj.mpr ⟨⟨(isSprintRef_sprint name).trans (isSprintRef_sprint o).symm, htoken⟩, rfl⟩

end Authorized

/-- The rows of a decision card created under an id, handed to the owner, and the owner's comment on it. -/
def decisionRows (created : String) : List Row :=
  [⟨created,
      .obj [("event_id", .str "e1"), ("kind", .str "created"), ("ref", .str "demo-7"), ("request_id", .str created)],
      .committed, some "demo-7", 1, some 1⟩,
    ⟨"handover-1",
      .obj [("event_id", .str "e2"), ("kind", .str "handed_to_owner"), ("ref", .str "demo-7"),
        ("request_id", .str "handover-1")],
      .committed, some "demo-7", 2, some 2⟩,
    ⟨"comment-1",
      .obj [("event_id", .str "e3"), ("kind", .str "commented"),
        ("payload", .obj [("body_sha256", .str "e2e budget: raise 2"), ("marker", .str "owner")]),
        ("ref", .str "demo-7"), ("request_id", .str "comment-1")],
      .committed, some "demo-7", 3, some 3⟩]

/-- The decision card of the sprint `a b`. -/
def decisionOfAB : Requests where
  rows := decisionRows (decisionRequestId "sprint:a b" 3)
  unique := by decide

/-- The comment raises the budget of the sprint `a-b`, which has the same token. -/
theorem decisions_sharedToken :
    createdId (events decisionOfAB "demo-7") = some (decisionRequestId (Scope.sprint "a b").ref 3) ∧
      authorizedRaise (.refl String) decisionOfAB (fun _ ↦ [⟨"owner", "[owner]\ne2e budget: raise 2"⟩]) "e3"
        (Scope.sprint "a-b").ref none = .ok ("demo-7", 2) ∧
      ¬ (Cut.scope (.sprint "a b") 3).names (.sprint "a-b") ∧
      decisionRequestId (Scope.sprint "a b").ref 3 = decisionRequestId (Scope.sprint "a-b").ref 3 := by
  refine ⟨by decide +kernel, by decide +kernel, fun hnames ↦ ?_, by decide +kernel⟩
  exact absurd (Scope.sprint.inj hnames) (by decide)

end Ummanu.Budget
