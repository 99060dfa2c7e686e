import Ummanu.Library.Loops
import Ummanu.Po.Judgment

/-!
# What a pump writes

A pump hands the oldest readable input of every idle session over to the runner. Every durable write that it
makes is one of four, `PumpWrite`: the claim of a turn for an input that is the oldest of its session, the
settlement of a turn that could not be launched, an input written to `refused/`, and the removal of an input that
a request row or `refused/` stands for by then. None of them takes a request id from the only thing it is bound to.
-/

set_option autoImplicit false

namespace Ummanu.Po

open Library

variable {item : QueuedInput}
variable {items : List QueuedInput}

/-! ### Heads -/

/-- The input is the oldest of its session that can be read. -/
def Store.head (store : Store) (blind : Unreadable) (item : QueuedInput) : Prop :=
  (store.visible blind).find? (·.sessionId = item.sessionId) = some item

theorem Store.head.mem {store : Store} {blind : Unreadable} (hhead : store.head blind item) :
    item ∈ store.queue :=
  List.mem_of_mem_filter (List.mem_of_find?_eq_some hhead)

theorem mem_headsOf_iff {seen : List String} :
    item ∈ headsOf seen items ↔
      item.sessionId ∉ seen ∧ items.find? (·.sessionId = item.sessionId) = some item := by
  induction items generalizing seen with
  | nil => simp [headsOf]
  | cons first _ ih =>
    rw [headsOf]
    by_cases hsame : first.sessionId = item.sessionId
    · rw [List.find?_cons_of_pos (by simpa using hsame)]
      split_ifs with hseen
      · simp [ih, hsame ▸ hseen]
      · simp only [List.mem_cons, ih, hsame, true_or, not_true_eq_false, false_and, or_false, Option.some.injEq]
        exact ⟨fun heq ↦ ⟨hsame ▸ hseen, heq.symm⟩, fun heq ↦ heq.2.symm⟩
    · rw [List.find?_cons_of_neg (by simpa using hsame)]
      have hne : item ≠ first := fun heq ↦ hsame (heq ▸ rfl)
      have hoth : ¬item.sessionId = first.sessionId := fun heq ↦ hsame heq.symm
      split_ifs with hseen
      · exact ih
      · simp [hne, ih, hoth]

/-- The heads are of different sessions. -/
theorem headsOf_pairwise (seen : List String) (items : List QueuedInput) :
    (headsOf seen items).Pairwise fun first second ↦ first.sessionId ≠ second.sessionId := by
  induction items generalizing seen with
  | nil => simp [headsOf]
  | cons _ _ ih =>
    rw [headsOf]
    split_ifs with hseen
    · exact ih seen
    · refine List.pairwise_cons.mpr ⟨fun _ hitem heq ↦ ?_, ih _⟩
      exact (mem_headsOf_iff.mp hitem).1 (heq ▸ List.mem_cons_self)

/-! ### The writes -/

/-- A request row or `refused/` stands for the input. -/
def Store.taken (store : Store) (item : QueuedInput) : Prop :=
  (store.requests.find item.requestId).isSome ∨ item ∈ store.refused

/-- A write of a pump. -/
inductive PumpWrite (blind : Unreadable) (store : Store) : Store → Prop
  | claim {item : QueuedInput} {seq : ℕ} {created : Bool} {next : Store} (hhead : store.head blind item)
      (hclaim : store.claimTurn item (promptOf item) = .ok ((seq, created), next)) : PumpWrite blind store next
  | settle (sessionId : String) (seq : ℕ) (state : TurnState) :
      PumpWrite blind store (store.settleTurn sessionId seq state)
  | refuse {item : QueuedInput} (hhead : store.head blind item) : PumpWrite blind store (store.setAside item)
  | remove {item : QueuedInput} (hhead : store.head blind item) (htaken : store.taken item) :
      PumpWrite blind store (store.without item)

theorem claimTurn_cases {store next : Store} {prompt : String} {seq : ℕ} {created : Bool}
    (hclaim : store.claimTurn item prompt = .ok ((seq, created), next)) :
    (∃ row, store.requests.find item.requestId = some row ∧ row.fingerprint = item.fingerprint ∧ created = false ∧
        next = store) ∨
      store.requests.find item.requestId = none ∧ created = true ∧
        (∃ session, store.sessions.find item.sessionId = some session ∧ session.state = .opened) ∧
        store.busy item.sessionId = false ∧ seq = store.nextSeq item.sessionId ∧
        next = { store with
          turns := store.turns ++ [⟨item.sessionId, seq, prompt, .running⟩]
          requests := store.requests.put ⟨item.requestId, item.fingerprint, item.sessionId, some seq⟩ } := by
  obtain ⟨_, hknown, hclaim⟩ := bind_eq_ok hclaim
  unfold Store.knownRequest at hknown
  split at hknown
  next hfree =>
    cases hknown
    obtain ⟨session, hsess, hclaim⟩ := bind_eq_ok hclaim
    unfold Store.session at hsess
    split at hsess
    next hfind =>
      cases hsess
      split_ifs at hclaim with hshut hbusy
      cases hclaim
      refine .inr ⟨hfree, rfl, ⟨session, hfind, ?_⟩, by simpa using hbusy, rfl, rfl⟩
      cases hstate : session.state with
      | opened => rfl
      | closed => exact absurd hstate hshut
    next => cases hsess
  next row hrow =>
    split_ifs at hknown with hsame
    cases hknown
    cases hclaim
    exact .inl ⟨row, hrow, by simpa using hsame, rfl, rfl⟩

/-! ### What the writes keep -/

/-- The queue files and those of `refused/`. -/
def Store.files (store : Store) : List QueuedInput := store.queue ++ store.refused

/-- Names are given to one input each. -/
structure Named (store : Store) : Prop where
  fresh : ∀ item ∈ store.files, item.name < store.nextName
  named : ∀ first ∈ store.files, ∀ second ∈ store.files, first.name = second.name → first = second

variable {store next : Store} {blind : Unreadable}

/-- A row under a free id takes the id. -/
theorem holders_putRow (store : Store) (row : PoRequest) (hfree : store.requests.find row.requestId = none)
    (hreqs : next.requests = store.requests.put row) (hqueue : next.queue = store.queue)
    (hdeny : next.refused = store.refused) :
    holders next = insert (row.requestId, row.fingerprint) (holders store) := by
  ext ⟨requestId, fingerprint⟩
  simp only [holders, hreqs, hqueue, hdeny, Set.mem_ofPred_eq, Set.mem_insert_iff, Prod.mk.injEq]
  by_cases hid : requestId = row.requestId
  · subst hid
    simp [hfree, eq_comm]
  · simp [KeyedTable.find_put_of_ne _ _ hid, hid]

theorem holders_claimTurn {prompt : String} {seq : ℕ} {created : Bool} (hitem : item ∈ store.queue)
    (hclaim : store.claimTurn item prompt = .ok ((seq, created), next)) : holders next = holders store := by
  rcases claimTurn_cases hclaim with ⟨-, -, -, -, rfl⟩ | ⟨hfree, -, -, -, -, rfl⟩
  · rfl
  · refine (holders_putRow store ⟨item.requestId, item.fingerprint, item.sessionId, some seq⟩ hfree ?_ ?_ ?_).trans
      (Set.insert_eq_of_mem (mem_holders_of_queue hitem))
    all_goals rfl

theorem Named.holders_setAside (hnamed : Named store) (hitem : item ∈ store.queue) :
    holders (store.setAside item) = holders store := by
  ext held
  simp only [holders, Store.setAside, Set.mem_ofPred_eq, List.mem_append, List.mem_filter, List.mem_singleton,
    decide_eq_true_eq, or_and_right, exists_or]
  constructor
  · rintro (hrow | hqueue | ⟨o, ⟨hoth, -⟩, hheld⟩ | ⟨o, rfl, hheld⟩)
    · exact .inl hrow
    · exact .inr (.inl hqueue)
    · exact .inr (.inr ⟨o, hoth, hheld⟩)
    · exact .inr (.inl ⟨o, hitem, hheld⟩)
  · rintro (hrow | hqueue | ⟨o, hoth, hheld⟩)
    · exact .inl hrow
    · exact .inr (.inl hqueue)
    · by_cases hname : o.name = item.name
      · have hsame : o = item :=
          hnamed.named o (List.mem_append_right _ hoth) item (List.mem_append_left _ hitem) hname
        exact .inr (.inr (.inr ⟨o, hsame, hheld⟩))
      · exact .inr (.inr (.inl ⟨o, ⟨hoth, hname⟩, hheld⟩))

/-- An input that is taken leaves the queue: its id stays bound, if it was bound to one thing. -/
theorem Owned.without {claim : String × Fingerprint} (howned : Owned store claim) (hnamed : Named store)
    (hitem : item ∈ store.queue) (htaken : store.taken item) : Owned (store.without item) claim := by
  obtain ⟨requestId, owner⟩ := claim
  intro fingerprint
  rw [← howned fingerprint]
  simp only [holders, Store.without, Set.mem_ofPred_eq, List.mem_filter, decide_eq_true_eq]
  constructor
  · rintro (hrow | ⟨o, ⟨hoth, -⟩, hheld⟩ | hdeny)
    · exact .inl hrow
    · exact .inr (.inl ⟨o, hoth, hheld⟩)
    · exact .inr (.inr hdeny)
  · rintro (hrow | ⟨o, hoth, hheld⟩ | hdeny)
    · exact .inl hrow
    · by_cases hname : o.name = item.name
      · obtain rfl : o = item :=
          hnamed.named o (List.mem_append_left _ hoth) item (List.mem_append_left _ hitem) hname
        cases hheld
        rcases htaken with hsome | hdeny
        · obtain ⟨row, hrow⟩ := Option.isSome_iff_exists.mp hsome
          refine .inl ⟨row, hrow, ?_⟩
          exact ((howned _).mp (mem_holders_of_row hrow)).trans ((howned _).mp (mem_holders_of_queue hitem)).symm
        · exact .inr (.inr ⟨o, hdeny, rfl⟩)
      · exact .inr (.inl ⟨o, ⟨hoth, hname⟩, hheld⟩)
    · exact .inr (.inr hdeny)

/-- A store with no new files. -/
theorem Named.of_files (hnamed : Named store) (hfiles : ∀ item ∈ next.files, item ∈ store.files)
    (hname : next.nextName = store.nextName) : Named next where
  fresh item hitem := hname ▸ hnamed.fresh item (hfiles item hitem)
  named first hfst second hsnd := hnamed.named first (hfiles first hfst) second (hfiles second hsnd)

/-- A write of a pump adds no file. -/
theorem PumpWrite.named (hwrite : PumpWrite blind store next) (hnamed : Named store) : Named next := by
  cases hwrite with
  | claim hhead hclaim =>
    rcases claimTurn_cases hclaim with ⟨-, -, -, -, rfl⟩ | ⟨-, -, -, -, -, rfl⟩
    · exact hnamed
    · exact hnamed.of_files (fun _ hitem ↦ hitem) rfl
  | settle _ _ _ => exact hnamed.of_files (fun _ hitem ↦ hitem) rfl
  | @refuse item hhead =>
    refine hnamed.of_files (fun o hoth ↦ ?_) rfl
    simp only [Store.files, Store.setAside, List.mem_append, List.mem_filter, List.mem_singleton] at hoth ⊢
    rcases hoth with hqueue | ⟨hdeny, -⟩ | rfl
    · exact .inl hqueue
    · exact .inr hdeny
    · exact .inl hhead.mem
  | @remove item hhead htaken =>
    refine hnamed.of_files (fun o hoth ↦ ?_) rfl
    simp only [Store.files, Store.without, List.mem_append, List.mem_filter] at hoth ⊢
    exact hoth.imp And.left id

/-- A write of a pump leaves an owned id to its owner. -/
theorem PumpWrite.owned {claim : String × Fingerprint} (hwrite : PumpWrite blind store next)
    (hnamed : Named store) (howned : Owned store claim) : Owned next claim := by
  have hsame (hholds : holders next = holders store) : Owned next claim := by
    rw [Owned, hholds]
    exact howned
  cases hwrite with
  | claim hhead hclaim => exact hsame (holders_claimTurn hhead.mem hclaim)
  | settle _ _ _ => exact howned
  | refuse hhead => exact hsame (hnamed.holders_setAside hhead.mem)
  | remove hhead htaken => exact howned.without hnamed hhead.mem htaken

/-! ### The program -/

/-- A search that only looks at what a filter keeps. -/
theorem find?_filter_eq {α : Type} {items : List α} {p q : α → Bool} (hkept : ∀ a ∈ items, p a = true → q a = true) :
    (items.filter q).find? p = items.find? p := by
  induction items with
  | nil => rfl
  | cons first _ ih =>
    have hrest := ih fun a ha ↦ hkept a (List.mem_cons_of_mem _ ha)
    by_cases hp : p first = true
    · rw [List.filter_cons_of_pos (hkept first List.mem_cons_self hp), List.find?_cons_of_pos hp,
        List.find?_cons_of_pos hp]
    · rw [List.find?_cons_of_neg hp, ← hrest, List.filter_cons]
      split
      · exact List.find?_cons_of_neg hp
      · rfl

section Pump

variable {G : Store → Store → Prop} {I P : Store → Acceptance → Prop}

/-- Every input is the oldest of its session. -/
def Store.heads (store : Store) (blind : Unreadable) (items : List QueuedInput) : Prop :=
  ∀ item ∈ items, store.head blind item

theorem Store.heads.congr (hheads : store.heads blind items) (hqueue : next.queue = store.queue) :
    next.heads blind items := by
  simpa only [Store.heads, Store.head, Store.visible, hqueue] using hheads

/-- An input of another session stays the oldest of its own when one is removed. -/
theorem Store.heads.without (hheads : store.heads blind items) (hsound : Named store)
    (hitem : item ∈ store.queue) (hoth : ∀ other ∈ items, item.sessionId ≠ other.sessionId) :
    (store.without item).heads blind items := by
  intro other hmem
  have hskip : ∀ file ∈ store.visible blind, decide (file.sessionId = other.sessionId) = true →
      decide (file.name ≠ item.name) = true := by
    intro file hfile hsess
    refine decide_eq_true fun hname ↦ hoth other hmem ?_
    obtain rfl : file = item := hsound.named file (List.mem_append_left _ (List.mem_of_mem_filter hfile)) item
      (List.mem_append_left _ hitem) hname
    exact of_decide_eq_true hsess
  have hvis : (store.without item).visible blind =
      (store.visible blind).filter fun file ↦ decide (file.name ≠ item.name) := List.filter_comm ..
  rw [Store.head, hvis, find?_filter_eq hskip]
  exact hheads other hmem

variable {weather : Weather} (hkeep : ∀ s t w, I s w → PumpWrite weather.blind s t → G s t ∧ I t w)
  (hsound : ∀ s w, I s w → Named s) {rest : List QueuedInput}

include hkeep

theorem judged_launch (sessionId : String) (seq : ℕ) (requestId : String) :
    Judged G weather (fun s w ↦ I s w ∧ s.heads weather.blind rest) (fun s _ ↦ (s.requests.find requestId).isSome)
      (launch sessionId seq) (fun _ s _ ↦ (s.requests.find requestId).isSome) := by
  refine judged_nextFault.bind fun fault ↦ ?_
  rcases fault with _ | ⟨error⟩ | ⟨error⟩
  · exact judged_pure fun _ _ _ hrow ↦ hrow
  · exact judged_throw
  · refine .bind (Q := fun _ _ _ ↦ True) (judged_commit ?_) fun _ ↦ judged_throw
    rintro _ _ ⟨hinv, hheads⟩ -
    obtain ⟨hstep, hafter⟩ := hkeep _ _ _ hinv (.settle sessionId seq .failed)
    exact ⟨hstep, ⟨hafter, hheads.congr rfl⟩, trivial⟩

/-- A hand-over that reaches its end has left a request row. -/
theorem judged_sendRequest :
    Judged G weather (fun s w ↦ I s w ∧ s.heads weather.blind (item :: rest)) (fun _ _ ↦ True) (sendRequest item)
      (fun _ s _ ↦ (s.requests.find item.requestId).isSome) := by
  refine .ite (fun _ ↦ judged_throw) fun _ ↦ ?_
  refine .bind (Q := fun _ s _ ↦ (s.requests.find item.requestId).isSome) (judged_call ?_) ?_
  · rintro s _ ⟨seq, created⟩ _ ⟨hinv, hheads⟩ - hclaim
    obtain ⟨hstep, hafter⟩ := hkeep _ _ _ hinv (.claim (hheads item List.mem_cons_self) hclaim)
    rcases claimTurn_cases hclaim with ⟨_, hrow, -, -, rfl⟩ | ⟨-, -, -, -, -, rfl⟩
    · exact ⟨hstep, ⟨hafter, hheads⟩, by simp [hrow]⟩
    · exact ⟨hstep, ⟨hafter, hheads.congr rfl⟩, by simp⟩
  · rintro ⟨seq, created⟩
    refine .ite (fun _ ↦ ?_) fun _ ↦ judged_pure fun _ _ _ hrow ↦ hrow
    refine (judged_launch hkeep item.sessionId seq item.requestId).bind fun _ ↦ ?_
    exact (judged_ask _).bind fun _ ↦ judged_pure fun _ _ _ hrow ↦ hrow.1

theorem judged_sendOutcome :
    Judged G weather (fun s w ↦ I s w ∧ s.heads weather.blind (item :: rest)) (fun _ _ ↦ True) (sendOutcome item)
      (fun outcome s _ ↦ outcome = none → (s.requests.find item.requestId).isSome) := by
  refine .tryCatch ?_ fun _ ↦ judged_pure fun _ _ _ _ hnone ↦ nomatch hnone
  exact (judged_sendRequest hkeep).bind fun _ ↦ judged_pure fun _ _ _ hrow _ ↦ hrow

include hsound

/-- The removal of an input that is taken. -/
theorem judged_removeInput (hoth : ∀ other ∈ rest, item.sessionId ≠ other.sessionId) :
    Judged G weather (fun s w ↦ I s w ∧ s.heads weather.blind rest) (fun s _ ↦ s.head weather.blind item ∧ s.taken item)
      (removeInput item) (fun _ _ _ ↦ True) := by
  refine .tryCatch ?_ fun error ↦ ?_
  · refine judged_call ?_
    rintro _ _ _ _ ⟨hinv, hheads⟩ ⟨hhead, htaken⟩ hrem
    cases hrem
    obtain ⟨hstep, hafter⟩ := hkeep _ _ _ hinv (.remove hhead htaken)
    exact ⟨hstep, ⟨hafter, hheads.without (hsound _ _ hinv) hhead.mem hoth⟩, trivial⟩
  · cases error
    all_goals first | exact judged_throw | exact judged_pure fun _ _ _ _ ↦ trivial

theorem judged_refuseInput (hoth : ∀ other ∈ rest, item.sessionId ≠ other.sessionId) :
    Judged G weather (fun s w ↦ I s w ∧ s.heads weather.blind rest) (fun s _ ↦ s.head weather.blind item)
      (refuseInput item) (fun _ _ _ ↦ True) := by
  refine .tryCatch ?_ fun error ↦ ?_
  · refine .bind (Q := fun _ s _ ↦ s.head weather.blind item ∧ item ∈ s.refused) (judged_call ?_) fun _ ↦
      judged_call ?_
    · rintro s w a next ⟨hinv, hheads⟩ hhead href
      cases href
      obtain ⟨hstep, hafter⟩ := hkeep _ _ _ hinv (.refuse hhead)
      exact ⟨hstep, ⟨hafter, hheads.congr rfl⟩, hhead, by simp [Store.setAside]⟩
    · rintro s w a next ⟨hinv, hheads⟩ ⟨hhead, hdeny⟩ hrem
      cases hrem
      obtain ⟨hstep, hafter⟩ := hkeep _ _ _ hinv (.remove hhead (.inr hdeny))
      exact ⟨hstep, ⟨hafter, hheads.without (hsound _ _ hinv) hhead.mem hoth⟩, trivial⟩
  · cases error
    all_goals first | exact judged_throw | exact judged_pure fun _ _ _ _ ↦ trivial

omit hkeep hsound in
theorem judged_knownAfterFailure :
    Judged G weather I (fun _ _ ↦ True) (knownAfterFailure item)
      (fun known s _ ↦ ∀ row, known = some (some row) → (s.requests.find item.requestId).isSome) := by
  refine .tryCatch ?_ fun _ ↦ .ite (fun _ ↦ judged_pure fun _ _ _ _ _ hnone ↦ nomatch hnone) fun _ ↦ judged_throw
  refine (judged_ask _).bind fun _ ↦ judged_pure ?_
  rintro _ _ - ⟨-, hread⟩ _ hknown
  rw [Except.ok.inj hread, Option.some.inj hknown]
  rfl

/-- What is done with an input whose hand-over raised. -/
theorem judged_handOverFailed (hoth : ∀ other ∈ rest, item.sessionId ≠ other.sessionId) (error : PoError) :
    Judged G weather (fun s w ↦ I s w ∧ s.heads weather.blind rest) (fun s _ ↦ s.head weather.blind item)
      (handOverFailed item error) (fun _ _ _ ↦ True) := by
  have href := judged_refuseInput hkeep hsound hoth
  have hquiet : Judged G weather (fun s w ↦ I s w ∧ s.heads weather.blind rest) (fun s _ ↦ s.head weather.blind item)
      (pure () : Program Unit) (fun _ _ _ ↦ True) := judged_pure fun _ _ _ _ ↦ trivial
  have hread : Judged G weather (fun s w ↦ (I s w ∧ s.heads weather.blind rest) ∧ s.head weather.blind item) (fun _ _ ↦ True)
      (knownAfterFailure item) _ := judged_knownAfterFailure
  cases error with
  | turnInProgress => exact hquiet
  | sessionNotFound | sessionClosed | requestConflict => exact href
  | runner | refused | store | titleRefused | queue | other =>
    refine (hread.keeping.pre fun _ _ _ hhead ↦ ⟨trivial, hhead⟩).bind fun k ↦ ?_
    rcases k with _ | _ | row
    · exact judged_pure fun _ _ _ _ ↦ trivial
    · first
      | exact href.pre fun _ _ _ hpost ↦ hpost.2
      | exact hquiet.pre fun _ _ _ hpost ↦ hpost.2
    · exact (judged_removeInput hkeep hsound hoth).pre fun _ _ _ hpost ↦ ⟨hpost.2, .inl (hpost.1 row rfl)⟩

/-- A hand-over keeps the other inputs where they are. -/
theorem judged_handOver (hoth : ∀ other ∈ rest, item.sessionId ≠ other.sessionId) :
    Judged G weather I (fun s _ ↦ s.heads weather.blind (item :: rest)) (handOver item)
      (fun _ s _ ↦ s.heads weather.blind rest) := by
  have hsend := Judged.keeping (J := fun s _ ↦ s.heads weather.blind (item :: rest)) (judged_sendOutcome hkeep)
  refine (hsend.pre fun _ _ _ hheads ↦ ⟨trivial, hheads⟩).bind fun outcome ↦ ?_
  have hsplit (s : Store) (hheads : s.heads weather.blind (item :: rest)) :
      s.head weather.blind item ∧ s.heads weather.blind rest :=
    ⟨hheads item List.mem_cons_self, fun other hmem ↦ hheads other (List.mem_cons_of_mem _ hmem)⟩
  cases outcome with
  | none =>
    have hrem := Judged.keeping (J := fun s _ ↦ s.heads weather.blind rest) (judged_removeInput hkeep hsound hoth)
    refine hrem.weaken ?_ fun _ _ _ _ hpost ↦ hpost.2
    rintro s w - ⟨hrow, hheads⟩
    exact ⟨⟨(hsplit s hheads).1, .inl (hrow rfl)⟩, (hsplit s hheads).2⟩
  | some error =>
    have hfail := Judged.keeping (J := fun s _ ↦ s.heads weather.blind rest)
      (judged_handOverFailed hkeep hsound hoth error)
    refine hfail.weaken ?_ fun _ _ _ _ hpost ↦ hpost.2
    rintro s w - ⟨-, hheads⟩
    exact hsplit s hheads

theorem judged_handOverAll (hitems : items.Pairwise fun first second ↦ first.sessionId ≠ second.sessionId) :
    Judged G weather I (fun s _ ↦ s.heads weather.blind items) (handOverAll items) (fun _ _ _ ↦ True) := by
  induction items with
  | nil => exact judged_pure fun _ _ _ _ ↦ trivial
  | cons _ _ ih =>
    obtain ⟨hoth, hrest⟩ := List.pairwise_cons.mp hitems
    exact (judged_handOver hkeep hsound hoth).bind fun _ ↦ ih hrest

omit hkeep hsound in
/-- The inputs that a pump hands over are the oldest of different sessions. -/
theorem judged_idleHeads :
    Judged G weather I (fun _ _ ↦ True) idleHeads (fun items s _ ↦ s.heads weather.blind items ∧
      items.Pairwise fun first second ↦ first.sessionId ≠ second.sessionId) := by
  have hnone : Judged G weather I (fun _ _ ↦ True) (pure [] : Program (List QueuedInput))
      (fun items s _ ↦ s.heads weather.blind items ∧
        items.Pairwise fun first second ↦ first.sessionId ≠ second.sessionId) :=
    judged_pure fun _ _ _ _ ↦ ⟨fun _ hitem ↦ absurd hitem List.not_mem_nil, List.Pairwise.nil⟩
  refine .tryCatch ?_ fun error ↦ ?_
  · refine (judged_queuePending.bind fun _ ↦ judged_pure (Q := fun heads s _ ↦
      heads = headsOf [] (s.visible weather.blind)) ?_).bind fun heads ↦ ?_
    · rintro s w - ⟨-, rfl⟩
      rfl
    · refine .ite (fun _ ↦ hnone.pre fun _ _ _ _ ↦ trivial) fun _ ↦ ?_
      refine (judged_ask _).bind fun _ ↦ judged_pure ?_
      rintro s w - ⟨rfl, -⟩
      refine ⟨fun _ hitem ↦ ?_, (headsOf_pairwise [] _).filter _⟩
      exact (mem_headsOf_iff.mp (List.mem_of_mem_filter hitem)).2
  · cases error
    all_goals first | exact hnone | exact .ite (fun _ ↦ hnone) fun _ ↦ judged_throw

/-- Every write of a pump is a `PumpWrite`. -/
theorem judged_pump : Judged G weather I P pump (fun _ _ _ ↦ True) := by
  refine (judged_ask _).bind fun _ ↦ .ite (fun _ ↦ judged_pure fun _ _ _ _ ↦ trivial) fun _ ↦ ?_
  refine (judged_idleHeads.pre fun _ _ _ _ ↦ trivial).bind fun items ↦ ?_
  by_cases hitems : items.Pairwise fun a b ↦ a.sessionId ≠ b.sessionId
  · exact (judged_handOverAll hkeep hsound hitems).pre fun _ _ _ hheads ↦ hheads.1
  · intro _ _ _ hheads
    exact absurd hheads.2 hitems

end Pump

end Ummanu.Po
