import Ummanu.Po.PumpLaw

/-!
# What an answer of the service says

The answer to a request that takes a request id follows its acceptance, which the operation reports around the
write that accepts it. The invariant of an operation is `Honest`: before it reports, the store is the one it
started on; once it knows an answer, the request id is held by what the request asks for. Whatever raises, in
whichever call, the answer is then read off the acceptance and says no more than what was written.

Whether the request id is held by nothing else is decided by `_reserve`, which skips the files that it cannot
read and compares card facts as values, for which `true` is `1`. `handle_truthful_iff` says after which histories
an answer is truthful whatever fails: those that leave no request which the checks let pass with something else
on file under its id.
-/

set_option autoImplicit false

namespace Ummanu.Po

open Library

variable {requestId : String} {start : Store}
variable {fingerprint : Fingerprint} {blind : Unreadable}

/-! ### The invariant of an operation -/

/-- A call may fail with anything. -/
def stormy (blind : Unreadable) : Weather := ⟨blind, fun _ ↦ True⟩

theorem stormy_start (mishaps : Mishaps) : (stormy mishaps.unreadable).Admits (Memory.start mishaps) :=
  ⟨rfl, fun _ _ ↦ trivial⟩

/-- Before an operation reports, the store is unchanged; once it knows its answer, its claims are held. -/
structure Honest (start : Store) (claims : List (String × Fingerprint)) (s : Store) (w : Acceptance) : Prop where
  named : Named s
  quiet : w.accepting = false → w.answer = none ∧ s = start
  held : w.answer.isSome → ∀ claim ∈ claims, Owned s claim

/-- Every write leaves a store with names of one input each. -/
def KeepsNamed (_ next : Store) : Prop := Named next

/-- The operation has not reported anything. -/
def Unreported (_ : Store) (w : Acceptance) : Prop := w.accepting = false

/-- `Judged`, with the invariant of an operation. -/
abbrev Operates {α : Type} (blind : Unreadable) (start : Store) (claims : List (String × Fingerprint))
    (P : Store → Acceptance → Prop) (program : Program α) (Q : α → Store → Acceptance → Prop) : Prop :=
  Judged KeepsNamed (stormy blind) (Honest start claims) P program Q

/-! ### Stores that grow -/

section Grow

variable {store next : Store}

/-- A store with the same files. -/
theorem Named.congr (hnamed : Named store) (hqueue : next.queue = store.queue)
    (hdeny : next.refused = store.refused) (hname : next.nextName = store.nextName) : Named next := by
  refine hnamed.of_files ?_ hname
  rw [Store.files, hqueue, hdeny]
  exact fun _ hitem ↦ hitem

/-- What a claim of a session does under an id without a row. -/
theorem claimSession_new {cli model effort : String} {title : Option String} {answer : Session × Bool}
    (hrow : store.requests.find requestId = none)
    (hclaim : store.claimSession cli model effort title requestId fingerprint = .ok (answer, next)) :
    answer = (store.newSession cli model effort title, true) ∧
      next = store.withSession (store.newSession cli model effort title) requestId fingerprint := by
  rw [Store.claimSession, Store.knownRequest, hrow] at hclaim
  cases hclaim
  exact ⟨rfl, rfl⟩

/-- A claimed session takes its id. -/
theorem holders_withSession (session : Session) (hrow : store.requests.find requestId = none) :
    holders (store.withSession session requestId fingerprint) = insert (requestId, fingerprint) (holders store) :=
  holders_putRow store ⟨requestId, fingerprint, session.id, none⟩ hrow rfl rfl rfl

/-- The store with one more queued input. -/
def Store.queued (store : Store) (item : QueuedInput) : Store :=
  { store with queue := store.queue ++ [item], nextName := store.nextName + 1 }

/-- A queued input takes its id. -/
theorem holders_queued (store : Store) (item : QueuedInput) :
    holders (store.queued item) = insert (item.requestId, item.fingerprint) (holders store) := by
  ext held
  simp only [holders, Store.queued, Set.mem_ofPred_eq, List.mem_append, List.mem_singleton, Set.mem_insert_iff]
  constructor
  · rintro (hrow | ⟨o, hoth | rfl, hheld⟩ | hdeny)
    · exact .inr (.inl hrow)
    · exact .inr (.inr (.inl ⟨o, hoth, hheld⟩))
    · exact .inl hheld.symm
    · exact .inr (.inr (.inr hdeny))
  · rintro (rfl | hrow | ⟨o, hoth, hheld⟩ | hdeny)
    · exact .inr (.inl ⟨item, .inr rfl, rfl⟩)
    · exact .inl hrow
    · exact .inr (.inl ⟨o, .inl hoth, hheld⟩)
    · exact .inr (.inr hdeny)

theorem Named.queued (hnamed : Named store) {item : QueuedInput} (hname : item.name = store.nextName) :
    Named (store.queued item) := by
  have hfiles (o : QueuedInput) (hoth : o ∈ (store.queued item).files) : o ∈ store.files ∨ o = item := by
    simp only [Store.queued, Store.files, List.mem_append, List.mem_singleton] at hoth ⊢
    tauto
  refine ⟨fun o hoth ↦ ?_, fun a hfst b hsnd hnames ↦ ?_⟩
  · rcases hfiles o hoth with hold | rfl
    · exact Nat.lt_succ_of_lt (hnamed.fresh o hold)
    · exact hname ▸ Nat.lt_succ_self _
  · rcases hfiles a hfst with hold | rfl <;> rcases hfiles b hsnd with hold' | rfl
    · exact hnamed.named a hold b hold' hnames
    · exact absurd (hnamed.fresh a hold) (by omega)
    · exact absurd (hnamed.fresh b hold') (by omega)
    · rfl

end Grow

/-! ### Before the acceptance -/

section Reserve

variable {G : Store → Store → Prop} {weather : Weather} {I P : Store → Acceptance → Prop}

theorem Judged.required_bind {α : Type} {value name : String} {next : String → Program α}
    {Q : α → Store → Acceptance → Prop}
    (hnext : stripped value ≠ "" → Judged G weather I P (next (stripped value)) Q) :
    Judged G weather I P (required value name >>= next) Q := by
  unfold required
  split_ifs with hnil
  · exact .bind (Q := fun _ _ _ ↦ False) judged_throw nofun
  · exact hnext hnil

theorem Judged.effort_bind {α : Type} {efforts : String → List String} {cli effort : String}
    {next : String → Program α} {Q : α → Store → Acceptance → Prop}
    (hnext : stripped effort ∈ efforts cli → Judged G weather I P (next (stripped effort)) Q) :
    Judged G weather I P (requireExplicitEffort efforts cli effort >>= next) Q := by
  unfold requireExplicitEffort
  split_ifs with hoffer
  · exact hnext hoffer
  · exact .bind (Q := fun _ _ _ ↦ False) judged_throw nofun

/-- A reading that is not used. -/
theorem Judged.ask_bind {α β : Type} {read : Store → Except PoError α} {next : α → Program β}
    {Q : β → Store → Acceptance → Prop} (hnext : ∀ a, Judged G weather I P (next a) Q) :
    Judged G weather I P (ask read >>= next) Q :=
  (judged_ask read).bind fun a ↦ (hnext a).pre fun _ _ _ hpre ↦ hpre.1

/-- What `_reserve` finds without a conflict, by the rows and by the files that can be read. -/
inductive Reserved (s : Store) (blind : Unreadable) (requestId : String) (fingerprint : Fingerprint) :
    Option Owner → Prop
  | row {row : PoRequest} (hrow : s.requests.find requestId = some row) (hsame : row.fingerprint = fingerprint) :
      Reserved s blind requestId fingerprint (some (.request row))
  | queued {item : QueuedInput} (hrow : s.requests.find requestId = none)
      (hfound : (s.visible blind).find? (·.requestId = requestId) = some item)
      (hsame : item.repeats fingerprint = true) : Reserved s blind requestId fingerprint (some (.queued item))
  | unseen (hrow : s.requests.find requestId = none)
      (hqueue : (s.visible blind).find? (·.requestId = requestId) = none)
      (hrefused : (s.refused.filter fun item ↦ !blind.refused item.name).find? (·.requestId = requestId) = none) :
      Reserved s blind requestId fingerprint none

theorem Reserved.row_eq_none {s : Store} (hresv : Reserved s blind requestId fingerprint none) :
    s.requests.find requestId = none := by
  cases hresv
  assumption

/-- What was found holds the id. -/
theorem Reserved.owned {s : Store} {owner : Owner} (hresv : Reserved s blind requestId fingerprint (some owner))
    (hother : NoOther s (requestId, fingerprint)) : Owned s (requestId, fingerprint) := by
  refine hother.owned ?_
  cases hresv with
  | row hrow hsame => exact hsame ▸ mem_holders_of_row hrow
  | @queued item _ hfound _ =>
    have hid : item.requestId = requestId := by simpa using List.find?_some hfound
    have hheld := mem_holders_of_queue (List.mem_of_mem_filter (List.mem_of_find?_eq_some hfound))
    rw [hid] at hheld
    have hsame : item.fingerprint = fingerprint := hother _ hheld
    rwa [hsame] at hheld

theorem judged_reserve (requestId : String) (fingerprint : Fingerprint) :
    Judged G weather I P (reserve requestId fingerprint)
      (fun known s w ↦ P s w ∧ Reserved s weather.blind requestId fingerprint known) := by
  refine (judged_ask _).bind fun row ↦ ?_
  cases row with
  | some row =>
    refine .ite (fun _ ↦ judged_throw) fun hsame ↦ judged_pure ?_
    rintro s w - ⟨hpre, hrow⟩
    exact ⟨hpre, .row (Except.ok.inj hrow) (not_not.mp hsame)⟩
  | none =>
    refine (judged_queueFind requestId).bind fun f ↦ ?_
    cases f with
    | some _ =>
      refine .ite (fun _ ↦ judged_throw) fun hsame ↦ judged_pure ?_
      rintro s w - ⟨⟨hpre, hrow⟩, hfnd⟩
      exact ⟨hpre, .queued (Except.ok.inj hrow) hfnd.symm (not_not.mp hsame)⟩
    | none =>
      refine (judged_queueFindRefused requestId).bind fun refused ↦ ?_
      cases refused with
      | some => exact judged_throw
      | none =>
        refine judged_pure ?_
        rintro s w - ⟨⟨⟨hpre, hrow⟩, hqueue⟩, hdeny⟩
        exact ⟨hpre, .unseen (Except.ok.inj hrow) hqueue.symm hdeny.symm⟩

/-! Readings inside a handler. -/

theorem judged_readableSprint (sprintRef : String) :
    Judged G weather I P (readableSprint sprintRef)
      (fun found s w ↦ (∀ sprint, found = some sprint → s.sprints.find sprintRef = some sprint) ∧ P s w) := by
  have hread : Judged G weather (fun s w ↦ I s w ∧ P s w) (fun _ _ ↦ True) (readableSprint sprintRef)
      (fun found s _ ↦ ∀ sprint, found = some sprint → s.sprints.find sprintRef = some sprint) := by
    refine ((judged_ask _).post ?_).tryCatch fun _ ↦ judged_pure (by simp)
    rintro found s w - ⟨-, hfound⟩ sprint rfl
    exact Except.ok.inj hfound
  exact hread.keeping.pre fun _ _ _ hpre ↦ ⟨trivial, hpre⟩

theorem judged_sessionOrNone (sessionId : Option String) :
    Judged G weather I P (sessionOrNone sessionId) (fun _ ↦ P) := by
  cases sessionId with
  | none => exact judged_pure fun _ _ _ hpre ↦ hpre
  | some sessionId =>
    refine .ite (fun _ ↦ judged_pure fun _ _ _ hpre ↦ hpre) fun _ ↦ .frame fun J ↦ ?_
    refine .tryCatch (Judged.ask_bind fun _ ↦ judged_pure fun _ _ _ _ ↦ trivial) fun error ↦ ?_
    cases error
    all_goals first | exact judged_throw | exact judged_pure fun _ _ _ _ ↦ trivial

/-- The production rule has a note for an input, or none to give. -/
def Noted (env : Env) (s : Store) (source : Source) (card : Option Json) : Prop :=
  source = .dispatcher → env.factsProblem card = none ∧ ∀ production sprintRef,
    env.operationOf card = some (production, sprintRef) →
      production = noProduction ∨ sprintRef = "" ∨ (s.sprints.find sprintRef).isSome

theorem judged_productionRule (env : Env) {source : Source} (card : Option Json) (requestId : String) :
    Judged G weather I P (productionRule env card requestId) (fun _ s w ↦ P s w ∧ Noted env s source card) := by
  unfold productionRule
  cases hfacts : env.factsProblem card with
  | some _ => exact judged_throw
  | none =>
    rcases hoperation : env.operationOf card with _ | ⟨production, sprintRef⟩
    · exact judged_pure fun _ _ _ hpre ↦ ⟨hpre, fun _ ↦ ⟨hfacts, by simp [hoperation]⟩⟩
    · refine .ite (fun hnone ↦ judged_pure fun _ _ _ hpre ↦ ⟨hpre, fun _ ↦ ⟨hfacts, ?_⟩⟩) fun _ ↦ ?_
      · rintro _ _ hsame
        cases hoperation.symm.trans hsame
        exact or_assoc.mp (.inl hnone)
      · refine (judged_readableSprint sprintRef).bind fun sp ↦ ?_
        cases sp with
        | none => exact judged_throw
        | some sp =>
          refine judged_pure ?_
          rintro s w - ⟨hfound, hpre⟩
          refine ⟨hpre, fun _ ↦ ⟨hfacts, ?_⟩⟩
          rintro _ _ hsame
          cases hoperation.symm.trans hsame
          exact .inr (.inr (by simp [hfound sp rfl]))

theorem judged_inputNote (env : Env) (source : Source) (card : Option Json) (requestId : String) :
    Judged G weather I P (inputNote env source card requestId) (fun _ s w ↦ P s w ∧ Noted env s source card) :=
  Judged.ite (fun _ ↦ judged_productionRule env card requestId) fun hsource ↦
    judged_pure fun _ _ _ hpre ↦ ⟨hpre, fun hdispatcher ↦ absurd hdispatcher hsource⟩

theorem judged_sent (sessionId requestId : String) (repeated : Bool) :
    Judged G weather I P (sent sessionId requestId repeated) (fun _ ↦ P) := by
  refine .ask_bind fun row ↦ ?_
  rcases row with _ | ⟨_, _, _, _ | _⟩
  case some.some => exact .ask_bind fun _ ↦ judged_pure fun _ _ _ hpre ↦ hpre
  -- with no turn yet, the queue says whether the message still waits
  all_goals
    refine (judged_queueFind requestId).bind fun f ↦ ?_
    cases f with
    | none => exact judged_throw
    | some _ => exact judged_pure fun _ _ _ hpre ↦ hpre.1

theorem judged_seeded (seedId : String) : Judged G weather I P (seeded seedId) (fun _ ↦ P) := by
  refine .ask_bind fun row ↦ ?_
  cases row with
  | some row => exact judged_pure fun _ _ _ hpre ↦ hpre
  | none =>
    refine (judged_queueFind seedId).bind fun found ↦ ?_
    cases found with
    | some item => exact judged_pure fun _ _ _ hpre ↦ hpre.1
    | none =>
      refine (judged_queueFindRefused seedId).bind fun refused ↦ ?_
      cases refused with
      | some item => exact judged_pure fun _ _ _ hpre ↦ hpre.1.1
      | none => exact judged_pure fun _ _ _ hpre ↦ hpre.1.1

end Reserve

/-! ### What the checks let pass -/

/-- What `submit` claims. -/
def submitClaims (sessionId : String) (text : Option String) (requestId : String) (card : Option Json) :
    List (String × Fingerprint) :=
  (text.map fun text ↦ (stripped requestId, .send (stripped sessionId) text card)).toList

/-- The ids that an ok answer says are owned, with what owns them. -/
def Request.claims : Request → List (String × Fingerprint)
  | .createSession cli model effort requestId =>
    [(stripped requestId, .session cli (stripped model) (stripped effort))]
  | .submit sessionId text requestId _ card => submitClaims sessionId text requestId card
  | _ => []

/-- A request of a session or a message that passes its own checks and `_reserve`. A message that is new also
needs an open session, and a note if the production rule asks for one. -/
inductive Accepts (env : Env) (s : Store) (blind : Unreadable) : Request → Prop
  | createSession {cli model effort requestId : String} {known : Option Owner} (hid : stripped requestId ≠ "")
      (hcli : cli ∈ clis) (hmodel : stripped model ≠ "") (heffort : stripped effort ∈ env.efforts cli)
      (hknown : Reserved s blind (stripped requestId) (.session cli (stripped model) (stripped effort)) known) :
      Accepts env s blind (.createSession cli model effort requestId)
  | submit {sessionId text requestId : String} {source : Source} {card : Option Json} {known : Option Owner}
      (hid : stripped requestId ≠ "") (hsession : stripped sessionId ≠ "") (htext : stripped text ≠ "")
      (hsource : source ≠ .poService) (hcard : ¬(card.isSome ∧ source ≠ .dispatcher))
      (hobject : card.any (!·.isObject) = false)
      (hknown : Reserved s blind (stripped requestId) (.send (stripped sessionId) text card) known)
      (hnew : known = none → (∃ session, s.session (stripped sessionId) = .ok session ∧ session.state ≠ .closed) ∧
        Noted env s source card) :
      Accepts env s blind (.submit sessionId (some text) requestId source card)

/-- If the checks let a request pass, nothing else is on file under the ids of the claims. -/
def Unambiguous (env : Env) (s : Store) (blind : Unreadable) (request : Request)
    (claims : List (String × Fingerprint)) : Prop :=
  Accepts env s blind request → ∀ claim ∈ claims, NoOther s claim

/-! ### The operations -/

section Operations

variable {claims : List (String × Fingerprint)}

/-- The writes of a pump keep what an operation that was accepted has promised. -/
theorem pumpWrite_honest {s t : Store} {w : Acceptance} (htrue : Honest start claims s w ∧ w.answer.isSome)
    (hwrite : PumpWrite blind s t) : KeepsNamed s t ∧ Honest start claims t w ∧ w.answer.isSome := by
  have hnamed := hwrite.named htrue.1.named
  refine ⟨hnamed, ⟨hnamed, fun hquiet ↦ ?_, fun hans claim hclaim ↦ ?_⟩, htrue.2⟩
  · have hanswer := htrue.2
    rw [(htrue.1.quiet hquiet).1] at hanswer
    cases hanswer
  · exact hwrite.owned htrue.1.named (htrue.1.held hans claim hclaim)

/-- A pump after the acceptance. -/
theorem operates_pump : Operates blind start claims (fun _ w ↦ w.answer.isSome) pump (fun _ _ w ↦ w.answer.isSome) := by
  have hpump : Judged KeepsNamed (stormy blind) (fun s w ↦ Honest start claims s w ∧ w.answer.isSome)
      (fun _ _ ↦ True) pump (fun _ _ _ ↦ True) :=
    judged_pump (fun _ _ _ htrue hwrite ↦ pumpWrite_honest htrue hwrite) fun _ _ htrue ↦ htrue.1.named
  exact hpump.keeping.weaken (fun _ _ _ hans ↦ ⟨trivial, hans⟩) fun _ _ _ _ hpost ↦ hpost.2

/-- An accepted request has its claims. -/
theorem operates_accepted {reply : Reply} :
    Operates blind start claims (fun s _ ↦ ∀ claim ∈ claims, Owned s claim) (accepted reply)
      (fun _ _ w ↦ w.answer.isSome) :=
  judged_accepted fun _ _ htrue hheld ↦ ⟨⟨htrue.named, nofun, fun _ ↦ hheld⟩, rfl⟩

theorem operates_accepting {P : Store → Prop} :
    Operates blind start claims (fun s w ↦ Unreported s w ∧ P s) accepting
      (fun _ s w ↦ w.accepting = true ∧ w.answer = none ∧ P s) :=
  judged_accepting fun s w htrue hpre ↦ by
    obtain ⟨hans, -⟩ := htrue.quiet hpre.1
    refine ⟨⟨htrue.named, nofun, ?_⟩, rfl, hans, hpre.2⟩
    rw [hans]
    exact nofun

/-- A write of the acceptance: a claim that has nothing else on file is owned by what is written for it. -/
theorem operates_write {α : Type} {run : Store → Except PoError (α × Store)} {P : Store → Prop}
    {held : String × Fingerprint} (hclaims : ∀ claim ∈ claims, claim = held)
    (hrun : ∀ s a next, P s → run s = .ok (a, next) → (Named s → Named next) ∧
      holders next = insert held (holders s)) :
    Operates blind start claims
      (fun s w ↦ w.accepting = true ∧ w.answer = none ∧ P s ∧ ∀ claim ∈ claims, NoOther s claim) (call run)
      (fun _ s w ↦ w.accepting = true ∧ w.answer = none ∧ ∀ claim ∈ claims, Owned s claim) := by
  refine judged_call ?_
  rintro s _ _ _ htrue ⟨hacc, hans, hpre, hother⟩ hok
  obtain ⟨hnamed, hholds⟩ := hrun s _ _ hpre hok
  refine ⟨hnamed htrue.named, ⟨hnamed htrue.named, fun hquiet ↦ ?_, ?_⟩, hacc, hans, fun claim hclaim ↦ ?_⟩
  · cases hacc.symm.trans hquiet
  · rw [hans]
    exact nofun
  · exact (hother claim hclaim).insert (hclaims claim hclaim ▸ hholds)

/-- A session is claimed after the acceptance was announced. -/
theorem operates_claimSession {cli model effort : String} {title : Option String}
    (hclaims : ∀ claim ∈ claims, claim = (requestId, fingerprint)) :
    Operates blind start claims (fun s w ↦ w.accepting = true ∧ w.answer = none ∧
        s.requests.find requestId = none ∧ ∀ claim ∈ claims, NoOther s claim)
      (call (·.claimSession cli model effort title requestId fingerprint))
      (fun _ s w ↦ w.accepting = true ∧ w.answer = none ∧ ∀ claim ∈ claims, Owned s claim) := by
  refine operates_write hclaims fun s a next hrow hclaim ↦ ?_
  obtain ⟨-, rfl⟩ := claimSession_new hrow hclaim
  exact ⟨fun hnamed ↦ hnamed.congr rfl rfl rfl, holders_withSession _ hrow⟩

/-- An input is queued after the acceptance was announced. -/
theorem operates_queuePut {sessionId text : String} {source : Source} {card : Option Json}
    {note : Option String} (hclaims : ∀ claim ∈ claims, claim = (requestId, .send sessionId text card)) :
    Operates blind start claims (fun s w ↦ w.accepting = true ∧ w.answer = none ∧ True ∧
        ∀ claim ∈ claims, NoOther s claim)
      (queuePut sessionId text requestId source card note)
      (fun _ s w ↦ w.accepting = true ∧ w.answer = none ∧ ∀ claim ∈ claims, Owned s claim) := by
  refine operates_write (P := fun _ ↦ True) hclaims fun s a next _ hput ↦ ?_
  cases hput
  exact ⟨fun hnamed ↦ hnamed.queued rfl, holders_queued s _⟩

section

variable (env : Env)

/-- What is on file when a request that the checks let pass is about to be accepted. -/
theorem Honest.noOther {request : Request} {s : Store} {w : Acceptance} (htrue : Honest start claims s w)
    (hquiet : Unreported s w) (hclear : Unambiguous env start blind request claims)
    (haccepts : Accepts env s blind request) : ∀ claim ∈ claims, NoOther s claim := by
  obtain ⟨-, rfl⟩ := htrue.quiet hquiet
  exact hclear haccepts

theorem operates_createSession {cli model effort requestId : String}
    (hclaims : ∀ claim ∈ claims, claim ∈ (Request.createSession cli model effort requestId).claims)
    (hclear : Unambiguous env start blind (.createSession cli model effort requestId) claims) :
    Operates blind start claims Unreported (createSession env cli model effort requestId)
      (fun _ _ w ↦ w.answer.isSome) := by
  simp only [Request.claims, List.mem_singleton] at hclaims
  refine .required_bind fun hid ↦ .ite (fun _ ↦ judged_throw) fun hcli ↦
    .ite (fun _ ↦ judged_throw) fun hmodel ↦ (judged_ask _).bind fun efforts ↦ ?_
  refine .given (c := efforts = env.efforts) (fun _ _ _ hpre ↦ (Except.ok.inj hpre.2).symm) ?_
  rintro rfl
  refine .effort_bind fun heffort ↦ ?_
  refine ((judged_reserve (stripped requestId)
    (.session cli (stripped model) (stripped effort))).pre fun _ _ _ hpre ↦ hpre.1).bind fun known ↦ ?_
  have hother {s : Store} {w : Acceptance} (htrue : Honest start claims s w) (hquiet : Unreported s w)
      (hresv : Reserved s blind (stripped requestId) (.session cli (stripped model) (stripped effort)) known) :=
    htrue.noOther env hquiet hclear (.createSession hid (not_not.mp hcli) hmodel heffort hresv)
  rcases known with _ | ⟨row⟩ | ⟨_⟩
  · refine ((operates_accepting (P := fun s ↦ s.requests.find (stripped requestId) = none ∧
      ∀ claim ∈ claims, NoOther s claim)).pre ?_).bind fun _ ↦ ?_
    · exact fun s w htrue hpre ↦ ⟨hpre.1, hpre.2.row_eq_none, hother htrue hpre.1 hpre.2⟩
    · refine (operates_claimSession hclaims).bind fun answer ↦ ?_
      exact (operates_accepted.pre fun _ _ _ hpost ↦ hpost.2.2).bind fun _ ↦ judged_pure fun _ _ _ hans ↦ hans
  · refine (operates_accepted.pre fun s w htrue hpost ↦ ?_).bind fun _ ↦
      Judged.ask_bind fun _ ↦ judged_pure fun _ _ _ hans ↦ hans
    intro claim hclaim
    have hfree := hother htrue hpost.1 hpost.2 claim hclaim
    rw [hclaims claim hclaim] at hfree ⊢
    exact hpost.2.owned hfree
  · rintro s w - hpost
    cases hpost.2 with
    | queued _ _ hsame => cases hsame

theorem operates_submit {sessionId : String} {text : Option String} {requestId : String} {source : Source}
    {card : Option Json}
    (hclaims : ∀ claim ∈ claims, claim ∈ (Request.submit sessionId text requestId source card).claims)
    (hclear : Unambiguous env start blind (.submit sessionId text requestId source card) claims) :
    Operates blind start claims Unreported (submit env sessionId text requestId source card)
      (fun _ _ w ↦ w.answer.isSome) := by
  refine .required_bind fun hid ↦ Judged.required_bind fun hsession ↦ ?_
  refine .ite (fun _ ↦ judged_throw) fun hnonempty ↦ .ite (fun _ ↦ judged_throw) fun hsource ↦
    .ite (fun _ ↦ judged_throw) fun hcard ↦ .ite (fun _ ↦ judged_throw) fun hobject ↦ ?_
  cases text with
  | none => exact judged_throw
  | some text =>
    simp only [Request.claims, submitClaims, Option.map_some, Option.toList_some, List.mem_singleton] at hclaims
    have hpass {s : Store} {known : Option Owner}
        (hresv : Reserved s blind (stripped requestId) (.send (stripped sessionId) text card) known) :=
      @Accepts.submit env s blind _ _ _ _ _ known hid hsession (by simpa using hnonempty) hsource hcard
        (by simpa using hobject) hresv
    refine (judged_reserve _ _).bind fun known ↦ ?_
    cases known with
    | some _ =>
      refine (operates_accepted.pre fun s w htrue hpost ↦ ?_).bind fun _ ↦ judged_sent _ _ _
      intro claim hclaim
      have hfree := htrue.noOther env hpost.1 hclear (hpass hpost.2 (by simp)) claim hclaim
      rw [hclaims claim hclaim] at hfree ⊢
      exact hpost.2.owned hfree
    | none =>
      refine (judged_ask _).bind fun session ↦ .ite (fun _ ↦ judged_throw) fun hopen ↦ ?_
      refine (judged_inputNote env source card _).bind fun _ ↦ ((operates_accepting (P := fun s ↦ True ∧
        ∀ claim ∈ claims, NoOther s claim)).pre ?_).bind fun _ ↦ ?_
      · rintro s w htrue ⟨⟨⟨hquiet, hresv⟩, hread⟩, hnoted⟩
        exact ⟨hquiet, trivial,
          htrue.noOther env hquiet hclear (hpass hresv fun _ ↦ ⟨⟨session, hread, hopen⟩, hnoted⟩)⟩
      · refine (operates_queuePut hclaims).bind fun _ ↦ ?_
        exact (operates_accepted.pre fun s w _ hpost ↦ hpost.2.2).bind fun _ ↦
          operates_pump.bind fun _ ↦ judged_sent _ _ _

/-- A write after the acceptance of a request without claims. -/
theorem operates_call {α : Type} {run : Store → Except PoError (α × Store)}
    (hrun : ∀ s a next, Named s → run s = .ok (a, next) → Named next) :
    Operates blind start [] (fun _ w ↦ w.accepting = true) (call run) (fun _ _ w ↦ w.accepting = true) := by
  refine judged_call fun s w a next htrue hacc hok ↦ ?_
  have hnamed := hrun s a next htrue.named hok
  refine ⟨hnamed, ⟨hnamed, fun hquiet ↦ ?_, by simp⟩, hacc⟩
  cases hacc.symm.trans hquiet

/-- A write of a sprint after the acceptance was announced. -/
theorem operates_sprintWrite (sprintRef requestId : String) (change : SprintRecord → SprintRecord) :
    Operates blind start [] (fun _ w ↦ w.accepting = true) (sprintWrite sprintRef requestId change)
      (fun _ _ w ↦ w.accepting = true) := by
  refine operates_call fun s _ next hnamed hwrite ↦ ?_
  split_ifs at hwrite
  · cases hwrite
    exact hnamed
  · split at hwrite
    · cases hwrite
    · cases hwrite
      exact hnamed.congr rfl rfl rfl

theorem operates_queueSeed (sessionId text seedId : String) :
    Operates blind start [] (fun _ w ↦ w.accepting = true) (queueSeed sessionId text seedId)
      (fun _ _ w ↦ w.accepting = true) := by
  refine (judged_seeded seedId).bind fun _ ↦ .ite (fun _ ↦ judged_pure fun _ _ _ hpre ↦ hpre) fun hfnd ↦ ?_
  refine operates_call fun s _ next hnamed hput ↦ ?_
  cases hput
  exact @Named.queued s hnamed ⟨s.nextName, sessionId, text, seedId, .poService, none, none⟩ rfl

theorem operates_reseed (sprint : SprintRecord) (sessionId requestId : String) :
    Operates blind start [] (fun _ w ↦ w.accepting = true) (reseed env sprint sessionId requestId)
      (fun _ _ w ↦ w.accepting = true) := by
  refine .ite (fun _ ↦ judged_pure fun _ _ _ hpre ↦ hpre) fun _ ↦ ?_
  refine (judged_sessionOrNone _).bind fun _ ↦
    .ite (fun _ ↦ judged_pure fun _ _ _ hpre ↦ hpre) fun _ ↦ ?_
  refine .ask_bind fun _ ↦ (operates_queueSeed _ _ _).bind fun _ ↦ ?_
  exact (operates_sprintWrite _ _ _).bind fun _ ↦ operates_sprintWrite _ _ _

theorem operates_resolveFresh (sprint : SprintRecord) (requestId : String) :
    Operates blind start [] (fun s w ↦ Unreported s w ∧ s.requests.find requestId = none)
      (resolveFresh env sprint requestId) (fun _ _ _ ↦ True) := by
  refine .ite (fun _ ↦ judged_throw) fun _ ↦ (judged_sessionOrNone _).bind fun prev ↦ ?_
  cases prev.filter (·.state = .opened) with
  | some _ => exact judged_pure fun _ _ _ _ ↦ trivial
  | none =>
    refine .ask_bind fun efforts ↦ ?_
    rcases successorChoice env efforts prev with _ | ⟨_, _, _⟩
    · exact judged_throw
    · refine .effort_bind fun _ ↦ operates_accepting.bind fun _ ↦
        ((operates_claimSession (by simp)).pre fun _ _ _ hpre ↦ ⟨hpre.1, hpre.2.1, hpre.2.2, by simp⟩).bind fun _ ↦ ?_
      refine ((operates_reseed env sprint _ _).pre fun _ _ _ hpost ↦ hpost.1).bind fun _ ↦ ?_
      refine (operates_accepted.pre fun _ _ _ _ ↦ by simp).bind fun _ ↦ operates_pump.bind fun _ ↦ ?_
      exact judged_pure fun _ _ _ _ ↦ trivial

theorem operates_sprintSession (sprintRef requestId : String) :
    Operates blind start [] Unreported (sprintSession env sprintRef requestId) (fun _ _ _ ↦ True) := by
  refine .required_bind fun _ ↦ Judged.required_bind fun _ ↦
    (judged_reserve _ _).bind fun k ↦ .ask_bind fun sp ↦ ?_
  cases sp with
  | none => exact judged_throw
  | some sp =>
    rcases k with _ | ⟨_⟩ | ⟨_⟩
    · exact (operates_resolveFresh env sp (stripped requestId)).pre fun _ _ _ hpost ↦
        ⟨hpost.1, hpost.2.row_eq_none⟩
    · refine (operates_accepting (P := fun _ ↦ True)).pre (fun _ _ _ hpre ↦ ⟨hpre.1, trivial⟩) |>.bind fun _ ↦ ?_
      refine ((operates_reseed env sp _ _).pre fun _ _ _ hpost ↦ hpost.1).bind fun _ ↦ ?_
      exact (operates_accepted.pre fun _ _ _ _ ↦ by simp).bind fun _ ↦ judged_pure fun _ _ _ _ ↦ trivial
    · refine (operates_resolveFresh env sp (stripped requestId)).pre fun s w _ hpost ↦ ?_
      cases hpost.2 with
      | queued _ _ hsame => cases hsame

end

end Operations

/-! ### The answers -/

/-- `ID_OPERATIONS`. -/
def Request.takesId : Request → Bool
  | .createSession .. | .submit .. | .sprintSession .. => true
  | _ => false

/-- The answer is marked `nothing_written`. -/
def Answer.nothingWritten : Answer → Bool
  | .error _ _ nothingWritten => nothingWritten
  | .ok _ => false

/-- What an answer says about what was written between two stores, and about who owns the claims. -/
structure Truthful (request : Request) (claims : List (String × Fingerprint)) (start : Store) (answer : Answer)
    (finish : Store) : Prop where
  nothingWritten : answer.nothingWritten = true → finish = start
  owned : ∀ reply, answer = .ok reply → ∀ claim ∈ claims, Owned finish claim
  announced : request.takesId = true → finish ≠ start →
    (∃ reply, answer = .ok reply) ∨ ∃ message, answer = .error "outcome_unknown" message false

/-- The request is answered, truthfully. -/
def Told (request : Request) (claims : List (String × Fingerprint)) (start : Store)
    (result : Except PoError Answer) (finish : Store) : Prop :=
  ∃ answer, result = .ok answer ∧ Truthful request claims start answer finish

section Answers

variable {request : Request} {claims : List (String × Fingerprint)} {mishaps : Mishaps}

theorem refusal_nothingWritten (error : PoError) : (refusal error false).nothingWritten = false := by
  cases error <;> rfl

theorem refusal_ne_ok (error : PoError) (nothingWritten : Bool) (reply : Reply) :
    refusal error nothingWritten ≠ .ok reply := by
  cases error <;> exact nofun

/-- The answer that is read off the acceptance. -/
theorem Honest.raised {finish : Store} {w : Acceptance} (htrue : Honest start claims finish w) (error : PoError) :
    Truthful request claims start (raisedAnswer w error) finish := by
  unfold raisedAnswer
  cases hans : w.answer with
  | some reply => exact ⟨by rintro ⟨⟩, fun _ _ ↦ htrue.held (by simp [hans]), fun _ _ ↦ .inl ⟨reply, rfl⟩⟩
  | none =>
    cases hacc : w.accepting with
    | true => exact ⟨by rintro ⟨⟩, by rintro _ ⟨⟩, fun _ _ ↦ .inr ⟨_, rfl⟩⟩
    | false =>
      obtain ⟨-, rfl⟩ := htrue.quiet hacc
      exact ⟨fun _ ↦ rfl, fun reply hok ↦ absurd hok (refusal_ne_ok error _ reply), fun _ hne ↦ absurd rfl hne⟩

/-- The answer to an operation that takes a request id is truthful. -/
theorem answerIdOperation_told {method : Program Reply} (hnamed : Named start)
    (hmethod : Operates mishaps.unreadable start claims Unreported method
      (fun _ s _ ↦ ∀ claim ∈ claims, Owned s claim)) :
    Meets KeepsNamed (answerIdOperation method) (fun result finish _ ↦ Told request claims start result finish) start
      (Memory.start mishaps) := by
  have hstart : Honest start claims start {} := ⟨hnamed, fun _ ↦ ⟨rfl, rfl⟩, by simp⟩
  have hrun := hmethod start (Memory.start mishaps) ⟨stormy_start mishaps, hstart⟩ rfl
  simp only [answerIdOperation, meets_tryCatch, meets_bind]
  refine hrun.mono ?_
  rintro result finish _ ⟨⟨-, htrue⟩, hpost⟩
  cases result with
  | ok reply =>
    simp only [meets_pure]
    exact ⟨_, rfl, by rintro ⟨⟩, fun _ _ ↦ hpost reply rfl, fun _ _ ↦ .inl ⟨reply, rfl⟩⟩
  | error error =>
    simp only [meets_remembered, meets_pure]
    exact ⟨_, rfl, htrue.raised error⟩

/-- `Judged`, with the names of the files as the invariant. -/
abbrev StaysNamed (method : Program Reply) : Prop :=
  ∀ blind, Judged KeepsNamed (stormy blind) (fun s _ ↦ Named s) (fun _ _ ↦ True) method (fun _ _ _ ↦ True)

/-- An answer to another operation is never marked. -/
theorem answerOther_told {method : Program Reply} (hnamed : Named start) (htakes : request.takesId = false)
    (hmethod : StaysNamed method) :
    Meets KeepsNamed (answerOther method) (fun result finish _ ↦ Told request [] start result finish) start
      (Memory.start mishaps) := by
  have hrun := hmethod mishaps.unreadable start (Memory.start mishaps) ⟨stormy_start mishaps, hnamed⟩ trivial
  have htrue (answer : Answer) (finish : Store) (hmark : answer.nothingWritten = false) :
      Truthful request [] start answer finish := by
    refine ⟨fun hnothing ↦ ?_, fun _ _ ↦ by simp, fun htakes' ↦ ?_⟩
    · cases hmark.symm.trans hnothing
    · cases htakes.symm.trans htakes'
  simp only [answerOther, meets_tryCatch, meets_bind]
  refine hrun.mono ?_
  rintro result finish _ ⟨⟨-, hfin⟩, -⟩
  cases result with
  | ok _ =>
    simp only [meets_pure]
    exact ⟨_, rfl, htrue _ _ rfl⟩
  | error error =>
    simp only [meets_pure]
    exact ⟨_, rfl, htrue _ _ (refusal_nothingWritten error)⟩

/-- A call that changes no files. -/
theorem stays_call {α : Type} {run : Store → Except PoError (α × Store)} {P : Store → Acceptance → Prop}
    {weather : Weather} (hrun : ∀ s a next, run s = .ok (a, next) → next.queue = s.queue ∧
      next.refused = s.refused ∧ next.nextName = s.nextName) :
    Judged KeepsNamed weather (fun s _ ↦ Named s) P (call run) (fun _ _ _ ↦ True) := by
  refine judged_call fun s w a next hnamed _ hok ↦ ?_
  obtain ⟨hqueue, hdeny, hname⟩ := hrun s a next hok
  have hafter := hnamed.congr hqueue hdeny hname
  exact ⟨hafter, hafter, trivial⟩

theorem stopTurn_stays (sessionId : String) (seq : ℕ) : StaysNamed (stopTurn sessionId seq) := by
  refine fun _ ↦ .required_bind fun _ ↦ (stays_call ?_).bind fun _ ↦ judged_pure fun _ _ _ _ ↦ trivial
  rintro _ _ _ hstop
  cases hstop
  exact ⟨rfl, rfl, rfl⟩

theorem closeSession_stays (sessionId : String) : StaysNamed (closeSession sessionId) := by
  refine fun _ ↦ .required_bind fun _ ↦ judged_queuePending.bind fun _ ↦ .ite (fun _ ↦ judged_throw) fun _ ↦ ?_
  refine (stays_call ?_).bind fun _ ↦ judged_pure fun _ _ _ _ ↦ trivial
  intro _ _ _ hclose
  obtain ⟨_, -, hclose⟩ := bind_eq_ok hclose
  split_ifs at hclose
  · cases hclose
    exact ⟨rfl, rfl, rfl⟩
  · cases hclose
    exact ⟨rfl, rfl, rfl⟩

theorem renameSession_stays (sessionTitle : String → Except PoError (Option String)) (sessionId title : String) :
    StaysNamed (renameSession sessionTitle sessionId title) := by
  refine fun _ ↦ .required_bind fun _ ↦ stays_call ?_
  intro _ _ _ hren
  obtain ⟨_, -, hren⟩ := bind_eq_ok hren
  obtain ⟨_, -, hren⟩ := bind_eq_ok hren
  cases hren
  exact ⟨rfl, rfl, rfl⟩

theorem status_stays : StaysNamed status :=
  fun _ ↦ judged_queuePending.bind fun _ ↦ .ask_bind fun _ ↦ judged_pure fun _ _ _ _ ↦ trivial

theorem requestRestart_stays : StaysNamed requestRestart := by
  refine fun _ ↦ (stays_call ?_).bind fun _ ↦ .ask_bind fun _ ↦ judged_pure fun _ _ _ _ ↦ trivial
  intro _ _ _ hmark
  cases hmark
  exact ⟨rfl, rfl, rfl⟩

end Answers

section Handle

variable (env : Env) (sessionTitle : String → Except PoError (Option String))

/-- Every request is answered whatever its calls do, and truthfully about claims that are not ambiguous. -/
theorem handle_told (request : Request) (mishaps : Mishaps) (claims : List (String × Fingerprint))
    (hnamed : Named start) (hclaims : ∀ claim ∈ claims, claim ∈ request.claims)
    (hclear : Unambiguous env start mishaps.unreadable request claims) :
    Meets KeepsNamed (handle env sessionTitle request) (fun result finish _ ↦ Told request claims start result finish)
      start (Memory.start mishaps) := by
  have hother (htakes : request.claims = []) {program : Program Answer}
      (hprog : Meets KeepsNamed program (fun result finish _ ↦ Told request [] start result finish) start
        (Memory.start mishaps)) :
      Meets KeepsNamed program (fun result finish _ ↦ Told request claims start result finish) start
        (Memory.start mishaps) := by
    obtain rfl : claims = [] := List.eq_nil_iff_forall_not_mem.mpr fun claim hclaim ↦
      absurd (hclaims claim hclaim) (by simp [htakes])
    exact hprog
  cases request with
  | malformed _ =>
    rw [handle, meets_pure]
    exact ⟨_, rfl, fun _ ↦ rfl, by rintro _ ⟨⟩, by rintro ⟨⟩⟩
  | createSession cli model effort requestId =>
    exact answerIdOperation_told hnamed
      ((operates_createSession env hclaims hclear).post fun _ _ _ htrue ↦ htrue.held)
  | submit sessionId text requestId src card =>
    exact answerIdOperation_told hnamed ((operates_submit env hclaims hclear).post fun _ _ _ htrue ↦ htrue.held)
  | sprintSession sprintRef requestId =>
    refine hother rfl (answerIdOperation_told hnamed ?_)
    exact (operates_sprintSession env sprintRef requestId).post fun _ _ _ _ _ ↦ by simp
  | stopTurn sessionId seq => exact hother rfl (answerOther_told hnamed rfl (stopTurn_stays sessionId seq))
  | closeSession sessionId => exact hother rfl (answerOther_told hnamed rfl (closeSession_stays sessionId))
  | renameSession sessionId title =>
    exact hother rfl (answerOther_told hnamed rfl (renameSession_stays sessionTitle sessionId title))
  | status => exact hother rfl (answerOther_told hnamed rfl status_stays)
  | restart => exact hother rfl (answerOther_told hnamed rfl requestRestart_stays)

/-- Every write of every event leaves names of one input each. -/
theorem tick_named {s : Store} (hnamed : Named s) (input : Event × Mishaps) :
    (s :: (tick env sessionTitle input s (Memory.start {})).writes).IsChain KeepsNamed := by
  obtain ⟨ev, mishaps⟩ := input
  have hchain {ev : Event} {Q : Except PoError Unit → Store → Memory → Prop}
      (hmeets : Meets KeepsNamed (ev.program env sessionTitle) Q s (Memory.start mishaps)) :
      (s :: (tick env sessionTitle (ev, mishaps) s (Memory.start {})).writes).IsChain KeepsNamed := hmeets.1
  have hstays {program : Program Unit}
      (hprog : Judged KeepsNamed (stormy mishaps.unreadable) (fun s _ ↦ Named s) (fun _ _ ↦ True) program
        (fun _ _ _ ↦ True)) :=
    hprog s (Memory.start mishaps) ⟨stormy_start mishaps, hnamed⟩ trivial
  cases ev with
  | request asked =>
    refine hchain (Q := fun _ _ _ ↦ True) ?_
    simp only [Event.program, meets_bind]
    refine (handle_told env sessionTitle asked mishaps [] hnamed (by simp) fun _ ↦ by simp).mono ?_
    rintro _ _ _ ⟨_, rfl, -⟩
    simp
  | pump =>
    refine hchain (hstays (judged_pump ?_ fun _ _ hnamed ↦ hnamed))
    exact fun s t w hnamed hwrite ↦ ⟨hwrite.named hnamed, hwrite.named hnamed⟩
  | settle _ _ _ =>
    refine hchain (hstays ?_)
    rw [Event.program]
    refine stays_call ?_
    rintro s a next hset
    cases hset
    exact ⟨rfl, rfl, rfl⟩
  | sprint _ =>
    refine hchain (hstays ?_)
    rw [Event.program]
    refine stays_call ?_
    rintro s a next hwrite
    cases hwrite
    exact ⟨rfl, rfl, rfl⟩

theorem initial_named (sprints : KeyedTable SprintRecord.ref) : Named (Store.initial sprints) where
  fresh _ hitem := absurd hitem List.not_mem_nil
  named _ hitem := absurd hitem List.not_mem_nil

theorem storeAfter_named (hnamed : Named start) (history : List ((Event × Mishaps) × Option ℕ)) :
    Named (storeAfter env sessionTitle start history) := by
  induction history generalizing start with
  | nil => exact hnamed
  | cons attempt _ ih =>
    refine ih (crashStep_invariant Named attempt hnamed ?_ fun _ _ _ hnext ↦ hnext)
    exact tick_named env sessionTitle hnamed attempt.1

end Handle

/-! ### A request that the checks let pass

Without a fault such a request is answered ok, and what was on file under its id stays there. -/

section Passes

variable {α : Type} {G : Store → Store → Prop} {s : Store} {v : Memory}

theorem meets_ask_clear {read : Store → Except PoError α} {R : Except PoError α → Store → Memory → Prop}
    (hclear : v.faults = []) : Meets G (ask read) R s v ↔ R (read s) s v := by
  have hsame : { v with faults := v.faults.tail } = v := by
    rw [hclear, List.tail_nil, ← hclear]
  simp only [ask, nextFault, meets_bind, meets_remembered, meets_remember, meets_pure, hsame]
  rw [hclear]
  simp only [List.head?_nil, Option.join_none, meets_bind, meets_stored]
  cases read s <;> simp

theorem meets_call_clear {run : Store → Except PoError (α × Store)} {R : Except PoError α → Store → Memory → Prop}
    {a : α} {next : Store} (hclear : v.faults = []) (hrun : run s = .ok (a, next)) :
    Meets G (call run) R s v ↔ G s next ∧ R (.ok a) next v := by
  have hsame : { v with faults := v.faults.tail } = v := by
    rw [hclear, List.tail_nil, ← hclear]
  simp only [call, nextFault, meets_bind, meets_remembered, meets_remember, meets_pure, hsame]
  rw [hclear]
  simp [hrun]

theorem meets_reserve_clear {known : Option Owner} {R : Except PoError (Option Owner) → Store → Memory → Prop}
    (hclear : v.faults = []) (hresv : Reserved s v.unreadable requestId fingerprint known)
    (hpost : R (.ok known) s v) : Meets G (reserve requestId fingerprint) R s v := by
  have hask {β : Type} (read : Store → Except PoError β) (Q : Except PoError β → Store → Memory → Prop) :
      Meets G (ask read) Q s v ↔ Q (read s) s v := meets_ask_clear hclear
  simp only [reserve, storeRequest, queueFind, queuePending, queueFindRefused, meets_bind, hask]
  cases hresv with
  | row hrow hsame =>
    simp only [hrow, hsame, ne_eq, not_true_eq_false, if_false, meets_pure]
    exact hpost
  | queued hrow hfound hsame =>
    rw [Store.visible] at hfound
    simp only [hrow, meets_bind, hask, meets_remembered, meets_pure, hfound, hsame, not_true_eq_false, if_false]
    exact hpost
  | unseen hrow hqueue hrefused =>
    rw [Store.visible] at hqueue
    simp only [hrow, meets_bind, hask, meets_remembered, meets_pure, hqueue, hrefused]
    exact hpost

/-- An operation that ends after its acceptance is answered ok. -/
theorem answerIdOperation_ok {method : Program Reply} {K : Store → Prop}
    (hmethod : Meets G method (fun result t w ↦ ((∃ reply, result = .ok reply) ∨ w.acceptance.answer.isSome) ∧ K t)
      s v) :
    Meets G (answerIdOperation method) (fun result t _ ↦ (∃ reply, result = .ok (.ok reply)) ∧ K t) s v := by
  simp only [answerIdOperation, meets_tryCatch, meets_bind]
  refine hmethod.mono fun result t w hend ↦ ?_
  cases result with
  | ok reply =>
    simp only [meets_pure]
    exact ⟨⟨reply, rfl⟩, hend.2⟩
  | error error =>
    simp only [meets_remembered, meets_pure]
    obtain ⟨reply, hans⟩ := Option.isSome_iff_exists.mp (hend.1.resolve_left (by simp))
    exact ⟨⟨reply, by simp [raisedAnswer, hans]⟩, hend.2⟩

/-- What a program keeps after the acceptance. -/
theorem Judged.accepted {program : Program Reply} {K : Store → Prop} (hacc : v.acceptance.answer.isSome)
    (hkeeps : Judged (fun _ _ ↦ True) (stormy v.unreadable) (fun s w ↦ K s ∧ w.answer.isSome) (fun _ _ ↦ True)
      program (fun _ _ _ ↦ True)) (hstart : K s) :
    Meets (fun _ _ ↦ True) program
      (fun result t w ↦ ((∃ reply, result = .ok reply) ∨ w.acceptance.answer.isSome) ∧ K t) s v :=
  (hkeeps s v ⟨⟨rfl, fun _ _ ↦ trivial⟩, hstart, hacc⟩ trivial).mono fun _ _ _ hend ↦ ⟨.inr hend.1.2.2, hend.1.2.1⟩

/-- The id is held by a queued file that cannot be read, or by one that was set aside. -/
def Hidden (blind : Unreadable) (held : String × Fingerprint) (s : Store) : Prop :=
  Named s ∧ ((∃ item ∈ s.queue, blind.queued item.name = true ∧ (item.requestId, item.fingerprint) = held) ∨
    ∃ item ∈ s.refused, (item.requestId, item.fingerprint) = held)

theorem Hidden.mem_holders {held : String × Fingerprint} (hhidden : Hidden blind held s) : held ∈ holders s := by
  rcases hhidden.2 with ⟨item, hitem, -, hheld⟩ | hdeny
  · exact .inr (.inl ⟨item, hitem, hheld⟩)
  · exact .inr (.inr hdeny)

/-- What is on file under an id of which nothing can be read is hidden. -/
theorem Reserved.hidden {other : Fingerprint} (hresv : Reserved s blind requestId fingerprint none)
    (hnamed : Named s) (hheld : (requestId, other) ∈ holders s) : Hidden blind (requestId, other) s := by
  cases hresv with
  | unseen hrow hqueue hrefused =>
    refine ⟨hnamed, ?_⟩
    rcases hheld with ⟨row, hfind, -⟩ | ⟨item, hitem, hheld⟩ | hdeny
    · cases hrow.symm.trans hfind
    · refine .inl ⟨item, hitem, ?_, hheld⟩
      by_contra hsees
      refine List.find?_eq_none.mp hqueue item (List.mem_filter.mpr ⟨hitem, by simpa using hsees⟩) ?_
      simpa using congrArg Prod.fst hheld
    · exact .inr hdeny

/-- A pump does not touch the files that it cannot read, nor those that were set aside. -/
theorem PumpWrite.hidden {held : String × Fingerprint} {t : Store} (hwrite : PumpWrite blind s t)
    (hhidden : Hidden blind held s) : Hidden blind held t := by
  refine ⟨hwrite.named hhidden.1, ?_⟩
  obtain ⟨hnamed, hfiles⟩ := hhidden
  cases hwrite with
  | claim hhead hclaim =>
    rcases claimTurn_cases hclaim with ⟨-, -, -, -, rfl⟩ | ⟨-, -, -, -, -, rfl⟩
    · exact hfiles
    · exact hfiles
  | settle _ _ _ => exact hfiles
  | @refuse item hhead =>
    refine hfiles.imp id ?_
    rintro ⟨o, hdeny, hheld⟩
    by_cases hname : o.name = item.name
    · obtain rfl := hnamed.named o (List.mem_append_right _ hdeny) item (List.mem_append_left _ hhead.mem) hname
      exact ⟨o, by simp [Store.setAside], hheld⟩
    · exact ⟨o, by simp [Store.setAside, hdeny, hname], hheld⟩
  | @remove item hhead htaken =>
    refine hfiles.imp ?_ id
    rintro ⟨o, hqueue, hblind, hheld⟩
    refine ⟨o, List.mem_filter.mpr ⟨hqueue, decide_eq_true fun hname ↦ ?_⟩, hblind, hheld⟩
    have hsees := (List.mem_filter.mp (List.mem_of_find?_eq_some hhead)).2
    rw [← hname, hblind] at hsees
    cases hsees

theorem judged_pump_hidden {held : String × Fingerprint} {P : Store → Acceptance → Prop} :
    Judged (fun _ _ ↦ True) (stormy blind) (fun s w ↦ Hidden blind held s ∧ w.answer.isSome) P pump
      (fun _ _ _ ↦ True) :=
  judged_pump (fun _ _ _ hkept hwrite ↦ ⟨trivial, hwrite.hidden hkept.1, hkept.2⟩) fun _ _ hkept ↦ hkept.1.1

variable (env : Env)

theorem createSession_passes {cli model effort requestId : String} {known : Option Owner} {other : Fingerprint}
    (hclear : v.faults = []) (hid : stripped requestId ≠ "") (hcli : cli ∈ clis) (hmodel : stripped model ≠ "")
    (heffort : stripped effort ∈ env.efforts cli)
    (hresv : Reserved s v.unreadable (stripped requestId) (.session cli (stripped model) (stripped effort)) known)
    (hheld : (stripped requestId, other) ∈ holders s) :
    Meets (fun _ _ ↦ True) (createSession env cli model effort requestId)
      (fun result t w ↦ ((∃ reply, result = .ok reply) ∨ w.acceptance.answer.isSome) ∧
        (stripped requestId, other) ∈ holders t) s v := by
  simp only [createSession, required, if_neg hid, hcli, not_true_eq_false, if_false, if_neg hmodel, effortList,
    requireExplicitEffort, meets_bind, meets_pure, meets_ask_clear hclear, if_pos heffort]
  refine meets_reserve_clear hclear hresv ?_
  rcases known with _ | ⟨row⟩ | ⟨item⟩
  · have hrow := hresv.row_eq_none
    have hclaim : s.claimSession cli (stripped model) (stripped effort) none (stripped requestId)
        (.session cli (stripped model) (stripped effort)) = .ok
          ((s.newSession cli (stripped model) (stripped effort) none, true),
            s.withSession (s.newSession cli (stripped model) (stripped effort) none) (stripped requestId)
              (.session cli (stripped model) (stripped effort))) := by
      rw [Store.claimSession, Store.knownRequest, hrow]
      rfl
    simp only [accepting, Po.accepted, meets_bind, meets_remember, meets_pure]
    rw [meets_call_clear (by exact hclear) hclaim]
    refine ⟨trivial, .inl ⟨_, rfl⟩, ?_⟩
    rw [holders_withSession _ hrow]
    exact Set.mem_insert_of_mem _ hheld
  · refine meets_bind.mpr (meets_remember.mpr ?_)
    refine Judged.accepted (K := fun t ↦ (stripped requestId, other) ∈ holders t) (by rfl) ?_ hheld
    exact Judged.ask_bind fun _ ↦ judged_pure fun _ _ _ _ ↦ trivial
  · cases hresv with
    | queued _ _ hsame => cases hsame

theorem meets_inputNote_clear {source : Source} {card : Option Json} {requestId : String}
    {R : Except PoError (Option String) → Store → Memory → Prop} (hclear : v.faults = [])
    (hnoted : Noted env s source card) (hpost : ∀ note, R (.ok note) s v) :
    Meets G (inputNote env source card requestId) R s v := by
  unfold inputNote
  split_ifs with hsource
  · obtain ⟨hfacts, hsprint⟩ := hnoted hsource
    simp only [productionRule, hfacts]
    rcases hoperation : env.operationOf card with _ | ⟨production, sprintRef⟩
    · exact meets_pure.mpr (hpost _)
    · dsimp only
      split_ifs with hnone
      · exact meets_pure.mpr (hpost _)
      · obtain ⟨sprint, hfound⟩ := Option.isSome_iff_exists.mp
          ((or_assoc.mpr (hsprint production sprintRef hoperation)).resolve_left hnone)
        simp only [readableSprint, sprintOf, meets_bind, meets_tryCatch, meets_ask_clear hclear, hfound, meets_pure]
        exact hpost _
  · exact meets_pure.mpr (hpost _)

theorem submit_passes {sessionId text requestId : String} {source : Source} {card : Option Json}
    {known : Option Owner} {other : Fingerprint} (hclear : v.faults = []) (hid : stripped requestId ≠ "")
    (hsession : stripped sessionId ≠ "") (htext : stripped text ≠ "") (hsource : source ≠ .poService)
    (hcard : ¬(card.isSome ∧ source ≠ .dispatcher)) (hobject : card.any (!·.isObject) = false)
    (hresv : Reserved s v.unreadable (stripped requestId) (.send (stripped sessionId) text card) known)
    (hnew : known = none → (∃ session, s.session (stripped sessionId) = .ok session ∧ session.state ≠ .closed) ∧
      Noted env s source card) (hnamed : Named s) (hheld : (stripped requestId, other) ∈ holders s) :
    Meets (fun _ _ ↦ True) (submit env sessionId (some text) requestId source card)
      (fun result t w ↦ ((∃ reply, result = .ok reply) ∨ w.acceptance.answer.isSome) ∧
        (stripped requestId, other) ∈ holders t) s v := by
  rw [submit, required, required, if_neg hid, if_neg hsession]
  refine meets_bind.mpr (meets_pure.mpr (meets_bind.mpr (meets_pure.mpr ?_)))
  simp only [Option.any_some, htext, decide_false, Bool.false_eq_true, if_false, if_neg hsource, if_neg hcard, hobject]
  refine meets_bind.mpr (meets_reserve_clear hclear hresv ?_)
  cases known with
  | some owner =>
    refine meets_bind.mpr (meets_remember.mpr ?_)
    refine Judged.accepted (K := fun t ↦ (stripped requestId, other) ∈ holders t) (by rfl) ?_ hheld
    exact judged_sent _ _ _
  | none =>
    obtain ⟨⟨session, hread, hopen⟩, hnoted⟩ := hnew rfl
    refine meets_bind.mpr ((meets_ask_clear hclear).mpr ?_)
    simp only [hread, if_neg hopen]
    refine meets_bind.mpr (meets_inputNote_clear env hclear hnoted fun note ↦ ?_)
    refine meets_bind.mpr (meets_remember.mpr (meets_bind.mpr ?_))
    refine (meets_call_clear (by exact hclear) rfl).mpr ⟨trivial, ?_⟩
    refine meets_bind.mpr (meets_remember.mpr ?_)
    have hkept : Hidden v.unreadable (stripped requestId, other) (s.queued
        ⟨s.nextName, stripped sessionId, text, stripped requestId, source, card, note⟩) := by
      obtain ⟨-, hfiles⟩ := hresv.hidden hnamed hheld
      refine ⟨hnamed.queued rfl, hfiles.imp ?_ id⟩
      rintro ⟨item, hqueue, hblind⟩
      exact ⟨item, List.mem_append_left _ hqueue, hblind⟩
    refine (Judged.accepted (K := Hidden v.unreadable (stripped requestId, other)) (by rfl) ?_ hkept).mono ?_
    · exact judged_pump_hidden.bind fun _ ↦ judged_sent _ _ _
    · exact fun _ _ _ hend ↦ ⟨hend.1, hend.2.mem_holders⟩

/-- A request that the checks let pass is answered ok, and its id stays with what was on file under it. -/
theorem handle_passes (sessionTitle : String → Except PoError (Option String)) {request : Request}
    {claim : String × Fingerprint} {other : Fingerprint} (haccepts : Accepts env s blind request)
    (hclaim : claim ∈ request.claims) (hnamed : Named s) (hheld : (claim.1, other) ∈ holders s) :
    Meets (fun _ _ ↦ True) (handle env sessionTitle request)
      (fun result t _ ↦ (∃ reply, result = .ok (.ok reply)) ∧ (claim.1, other) ∈ holders t) s
      (Memory.start { unreadable := blind }) := by
  cases haccepts with
  | createSession hid hcli hmodel heffort hknown =>
    obtain rfl := List.mem_singleton.mp hclaim
    exact answerIdOperation_ok (createSession_passes env (by rfl) hid hcli hmodel heffort hknown hheld)
  | submit hid hsession htext hsource hcard hobject hknown hnew =>
    obtain rfl := List.mem_singleton.mp hclaim
    exact answerIdOperation_ok
      (submit_passes env (by rfl) hid hsession htext hsource hcard hobject hknown hnew hnamed hheld)

/-- After any history of the service, with files that it cannot read: every request is answered, truthfully,
whichever of its calls fail, exactly if the checks do not let it pass with something else on file under its id.
An answer that is marked says rightly that nothing was written, an ok answer to a submit or a create says rightly
who owns the request id, and a request that wrote something is not refused. -/
theorem handle_truthful_iff (sessionTitle : String → Except PoError (Option String))
    (sprints : KeyedTable SprintRecord.ref) (history : List ((Event × Mishaps) × Option ℕ)) (request : Request)
    (unreadable : Unreadable) :
    let start := storeAfter env sessionTitle (Store.initial sprints) history
    (∀ faults, ∃ answer,
        (handle env sessionTitle request start (Memory.start ⟨faults, unreadable⟩)).result = .ok answer ∧
        Truthful request request.claims start answer
          ((handle env sessionTitle request).final start (Memory.start ⟨faults, unreadable⟩))) ↔
      Unambiguous env start unreadable request request.claims := by
  intro start
  have hnamed : Named start := storeAfter_named env sessionTitle (initial_named sprints) history
  constructor
  · intro htold haccepts claim hclaim other hheld
    obtain ⟨answer, hresult, htrue⟩ := htold []
    obtain ⟨-, ⟨reply, hok⟩, hstill⟩ := handle_passes env sessionTitle haccepts hclaim hnamed hheld
    have hsame : answer = .ok reply := Except.ok.inj (hresult.symm.trans hok)
    exact (htrue.owned reply hsame claim hclaim other).mp hstill
  · exact fun hclear faults ↦ (handle_told env sessionTitle request ⟨faults, unreadable⟩ request.claims hnamed
      (fun _ hclaim ↦ hclaim) hclear).2

end Passes

/-! ### A file that cannot be read -/

/-- An installation with one effort and one model. -/
def smallEnv : Env where
  efforts _ := ["high"]
  defaultChoice := some ("claude", "opus")
  factsProblem _ := none
  operationOf _ := none
  rightsNote _ _ _ _ := ""
  whyDocuments _ := []
  seedMessage ref _ _ _ := "Sprint " ++ ref ++ " goes on in this session."

/-- A session that runs the turn of one message, with a second one in the queue. -/
def busySession : Store :=
  storeAfter smallEnv (fun _ ↦ .ok none) (Store.initial (KeyedTable.empty SprintRecord.ref))
    [((.request (.createSession "claude" "opus" "high" "c1"), {}), none),
      ((.request (.submit "po-0" (some "first") "m1" .web none), {}), none),
      ((.request (.submit "po-0" (some "second") "m2" .web none), {}), none)]

/-- An ok answer is not truthful while another message is queued under its id. -/
theorem not_truthful_of_queued {request : Request} {claim : String × Fingerprint} {finish : Store} {reply : Reply}
    (hclaim : claim ∈ request.claims) (item : QueuedInput) (hitem : item ∈ finish.queue)
    (hid : item.requestId = claim.1) (hother : item.fingerprint ≠ claim.2) :
    ¬Truthful request request.claims start (.ok reply) finish := by
  intro htrue
  have hheld := mem_holders_of_queue hitem
  rw [hid] at hheld
  exact hother ((htrue.owned reply rfl claim hclaim _).mp hheld)

/-- While the file of the second message cannot be read, its request id is accepted for another message. -/
theorem handle_unreadableFile :
    let request : Request := .submit "po-0" (some "third") "m2" .web none
    let v := Memory.start { unreadable := { queued := (· = 1) } }
    let run := handle smallEnv (fun _ ↦ .ok none) request
    (run busySession v).result = .ok (.ok (.sent "po-0" true none none false)) ∧
      (run.final busySession v).queue.map (fun item ↦ (item.requestId, item.text)) =
        [("m2", "second"), ("m2", "third")] ∧
      ¬Truthful request request.claims busySession (.ok (.sent "po-0" true none none false))
        (run.final busySession v) := by
  have hclaim : ("m2", Fingerprint.send "po-0" "third" none) ∈
      (Request.submit "po-0" (some "third") "m2" .web none).claims := by decide +kernel
  refine ⟨by decide +kernel, by decide +kernel, ?_⟩
  exact not_truthful_of_queued hclaim ⟨1, "po-0", "second", "m2", .web, none, none⟩ (by decide +kernel) rfl
    (by decide +kernel)

end Ummanu.Po
