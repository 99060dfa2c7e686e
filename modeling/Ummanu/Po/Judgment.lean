import Ummanu.Library.DurableTriple
import Ummanu.Po.Service

/-!
# Judging programs of the service

A program of the service is judged whatever its calls do: a precondition, an invariant and a postcondition
speak of the store and of the acceptance, never of the faults that are still to come. `Judged` is the judgment,
`judged_ask` and `judged_call` are its rules for the calls, and the rules for the rest of a program are those
of the library.

The request ids and what they are bound to are the `holders` of a store: the request rows, the queued inputs
and the inputs that were set aside. An input that moves from one place to another leaves the holders as they
were.
-/

set_option autoImplicit false

namespace Ummanu.Po

open Library

/-- The queued inputs that can be read. -/
def Store.visible (store : Store) (blind : Unreadable) : List QueuedInput :=
  store.queue.filter fun item ↦ !blind.queued item.name

/-! ### The judgment -/

/-- What may happen to a program: the files that cannot be read, and what a call that fails may raise. -/
structure Weather where
  blind : Unreadable
  allowed : PoError → Prop

def Fault.error : Fault → PoError
  | .before error | .after error => error

/-- The memory is one of the weather. -/
structure Weather.Admits (weather : Weather) (v : Memory) : Prop where
  unreadable : v.unreadable = weather.blind
  faults : ∀ fault, some fault ∈ v.faults → weather.allowed fault.error

section Rules

variable {α β : Type} {G : Store → Store → Prop} {weather : Weather} {I P P' : Store → Acceptance → Prop}
  {program : Program α} {Q Q' : α → Store → Acceptance → Prop}

/-- `Triple`, about the store and the acceptance. -/
def Judged (G : Store → Store → Prop) (weather : Weather) (I P : Store → Acceptance → Prop)
    (program : Program α) (Q : α → Store → Acceptance → Prop) : Prop :=
  Triple G (fun s v ↦ weather.Admits v ∧ I s v.acceptance) (fun s v ↦ P s v.acceptance) program
    (fun a s v ↦ Q a s v.acceptance)

theorem Judged.weaken (hjudge : Judged G weather I P program Q) (hpre : ∀ s w, I s w → P' s w → P s w)
    (hpost : ∀ a s w, I s w → Q a s w → Q' a s w) : Judged G weather I P' program Q' :=
  Triple.weaken hjudge (fun s v hinv ↦ hpre s v.acceptance hinv.2) fun a s v hinv ↦ hpost a s v.acceptance hinv.2

theorem Judged.pre (hjudge : Judged G weather I P program Q) (hpre : ∀ s w, I s w → P' s w → P s w) :
    Judged G weather I P' program Q :=
  hjudge.weaken hpre fun _ _ _ _ hpost ↦ hpost

theorem Judged.post (hjudge : Judged G weather I P program Q) (hpost : ∀ a s w, I s w → Q a s w → Q' a s w) :
    Judged G weather I P program Q' :=
  hjudge.weaken (fun _ _ _ hpre ↦ hpre) hpost

theorem judged_pure {a : α} (hpost : ∀ s w, I s w → P s w → Q a s w) :
    Judged G weather I P (pure a) Q :=
  triple_pure fun s v hinv ↦ hpost s v.acceptance hinv.2

theorem judged_throw {error : PoError} : Judged G weather I P (throw error : Program α) Q := triple_throw

theorem Judged.bind {next : α → Program β} {R : β → Store → Acceptance → Prop}
    (hfst : Judged G weather I P program Q) (hnext : ∀ a, Judged G weather I (Q a) (next a) R) :
    Judged G weather I P (program >>= next) R :=
  Triple.bind hfst hnext

theorem Judged.tryCatch {handler : PoError → Program α} (hprog : Judged G weather I P program Q)
    (hhand : ∀ error, Judged G weather I (fun _ _ ↦ True) (handler error) Q) :
    Judged G weather I P (tryCatch program handler) Q :=
  Triple.tryCatch hprog hhand

theorem Judged.ite {c : Prop} [Decidable c] {other : Program α} (hthen : c → Judged G weather I P program Q)
    (helse : ¬c → Judged G weather I P other Q) : Judged G weather I P (if c then program else other) Q :=
  Triple.ite hthen helse

/-- What follows from the precondition whatever the store may be assumed. -/
theorem Judged.given {c : Prop} (hgiven : ∀ s w, I s w → P s w → c) (hjudge : c → Judged G weather I P program Q) :
    Judged G weather I P program Q :=
  fun s v hinv hpre ↦ hjudge (hgiven s v.acceptance hinv.2 hpre) s v hinv hpre

theorem judged_stored : Judged G weather I P Durable.stored (fun seen s w ↦ seen = s ∧ P s w) := triple_stored

theorem judged_commit {f : Store → Store} {Q : Unit → Store → Acceptance → Prop}
    (hwrite : ∀ s w, I s w → P s w → G s (f s) ∧ I (f s) w ∧ Q () (f s) w) :
    Judged G weather I P (Durable.commit f) Q := by
  refine triple_commit fun s v hinv hpre ↦ ?_
  obtain ⟨hstep, hafter, hpost⟩ := hwrite s v.acceptance hinv.2 hpre
  exact ⟨hstep, ⟨hinv.1, hafter⟩, hpost⟩

theorem judged_nextFault : Judged G weather I P nextFault (fun _ ↦ P) := by
  intro _ _ hinv hpre
  simp only [nextFault, meets_bind, meets_remembered, meets_remember, meets_pure]
  refine ⟨⟨⟨hinv.1.unreadable, fun fault hfault ↦ ?_⟩, hinv.2⟩, fun _ _ ↦ hpre⟩
  exact hinv.1.faults fault (List.mem_of_mem_tail hfault)

/-- A call that only reads. -/
theorem judged_ask (read : Store → Except PoError α) :
    Judged G weather I P (ask read) (fun a s w ↦ P s w ∧ read s = .ok a) := by
  refine judged_nextFault.bind fun fault ↦ ?_
  rcases fault with _ | ⟨error⟩ | ⟨error⟩
  · refine judged_stored.bind fun _ ↦ ?_
    split
    next a hread => exact judged_pure fun s w _ hseen ↦ ⟨hseen.2, hseen.1 ▸ hread⟩
    next => exact judged_throw
  · exact judged_throw
  · exact judged_throw

/-- What a call that only reads may come to: what it reads, or a failure. -/
theorem meets_ask {read : Store → Except PoError α} {R : Except PoError α → Store → Memory → Prop} {s : Store}
    {v : Memory} (hadmits : weather.Admits v)
    (hread : ∀ v', weather.Admits v' → v'.acceptance = v.acceptance → R (read s) s v')
    (hfault : ∀ error v', weather.Admits v' → v'.acceptance = v.acceptance → weather.allowed error →
      R (.error error) s v') : Meets G (ask read) R s v := by
  have hafter : weather.Admits { v with faults := v.faults.tail } :=
    ⟨hadmits.unreadable, fun fault hfault ↦ hadmits.faults fault (List.mem_of_mem_tail hfault)⟩
  simp only [ask, nextFault, meets_bind, meets_remembered, meets_remember, meets_pure]
  have herr (error : PoError) (fault : Fault) (hnext : v.faults.head?.join = some fault)
      (herror : fault.error = error) : R (.error error) s { v with faults := v.faults.tail } := by
    refine hfault error _ hafter rfl (herror ▸ hadmits.faults fault ?_)
    exact List.mem_of_mem_head? (Option.join_eq_some_iff.mp hnext)
  rcases hnext : v.faults.head?.join with _ | ⟨error⟩ | ⟨error⟩
  · simp only [meets_bind, meets_stored]
    cases hok : read s with
    | ok a => exact meets_pure.mpr (hok ▸ hread _ hafter rfl)
    | error error => exact meets_throw.mpr (hok ▸ hread _ hafter rfl)
  · exact meets_throw.mpr (herr error _ hnext rfl)
  · exact meets_throw.mpr (herr error _ hnext rfl)

/-- A call with a durable effect. -/
theorem judged_call {run : Store → Except PoError (α × Store)}
    (hrun : ∀ s w a next, I s w → P s w → run s = .ok (a, next) → G s next ∧ I next w ∧ Q a next w) :
    Judged G weather I P (call run) Q := by
  refine judged_nextFault.bind fun fault ↦ ?_
  rcases fault with _ | ⟨error⟩ | ⟨error⟩
  case some.before => exact judged_throw
  -- with and without an error after it, the effect is the same
  all_goals
    refine judged_stored.bind fun _ ↦ ?_
    split
    next => exact judged_throw
    next a next hok =>
      refine .bind (Q := fun _ s w ↦ Q a s w) (judged_commit ?_) fun _ ↦ ?_
      · rintro s w hinv ⟨rfl, hpre⟩
        exact hrun _ _ a next hinv hpre hok
      · first
        | exact judged_pure fun _ _ _ hpost ↦ hpost
        | exact judged_throw

theorem judged_accepting {Q : Unit → Store → Acceptance → Prop}
    (hacc : ∀ s w, I s w → P s w → I s { w with accepting := true } ∧ Q () s { w with accepting := true }) :
    Judged G weather I P accepting Q :=
  triple_remember fun s v hinv hpre ↦
    ⟨⟨⟨hinv.1.unreadable, hinv.1.faults⟩, (hacc s v.acceptance hinv.2 hpre).1⟩, (hacc s v.acceptance hinv.2 hpre).2⟩

theorem judged_accepted {reply : Reply} {Q : Unit → Store → Acceptance → Prop}
    (hacc : ∀ s w, I s w → P s w → I s ⟨true, some reply⟩ ∧ Q () s ⟨true, some reply⟩) :
    Judged G weather I P (accepted reply) Q :=
  triple_remember fun s v hinv hpre ↦
    ⟨⟨⟨hinv.1.unreadable, hinv.1.faults⟩, (hacc s v.acceptance hinv.2 hpre).1⟩, (hacc s v.acceptance hinv.2 hpre).2⟩

/-- What a program keeps besides the invariant may be proved as part of the invariant. -/
theorem Judged.keeping {J : Store → Acceptance → Prop}
    (hjudge : Judged G weather (fun s w ↦ I s w ∧ J s w) P program Q) :
    Judged G weather I (fun s w ↦ P s w ∧ J s w) program (fun a s w ↦ Q a s w ∧ J s w) := by
  intro s v hinv hpre
  refine (hjudge s v ⟨hinv.1, hinv.2, hpre.2⟩ hpre.1).mono ?_
  rintro _ _ _ ⟨⟨hblind, hkept, hj⟩, hpost⟩
  exact ⟨⟨hblind, hkept⟩, fun a ha ↦ ⟨hpost a ha, hj⟩⟩

/-- A program that keeps every invariant keeps its precondition. -/
theorem Judged.frame (hkeeps : ∀ J : Store → Acceptance → Prop,
      Judged G weather (fun s w ↦ I s w ∧ J s w) (fun _ _ ↦ True) program (fun _ _ _ ↦ True)) :
    Judged G weather I P program (fun _ ↦ P) :=
  (hkeeps P).keeping.weaken (fun _ _ _ hpre ↦ ⟨trivial, hpre⟩) fun _ _ _ _ hpost ↦ hpost.2

theorem judged_queuePending :
    Judged G weather I P queuePending
      (fun pending s w ↦ P s w ∧ pending = s.visible weather.blind) := by
  refine (judged_ask _).bind fun _ ↦ ?_
  intro _ _ hinv hpre
  simp only [meets_bind, meets_remembered, meets_pure, hinv.1.unreadable]
  obtain ⟨hpre, hqueue⟩ := hpre
  cases hqueue
  exact ⟨hinv, fun _ hpend ↦ ⟨hpre, (Except.ok.inj hpend).symm⟩⟩

theorem judged_queueFind (requestId : String) :
    Judged G weather I P (queueFind requestId) (fun found s w ↦ P s w ∧
      found = (s.visible weather.blind).find? (·.requestId = requestId)) := by
  refine judged_queuePending.bind fun _ ↦ judged_pure ?_
  rintro _ _ - ⟨hpre, rfl⟩
  exact ⟨hpre, rfl⟩

theorem judged_queueFindRefused (requestId : String) :
    Judged G weather I P (queueFindRefused requestId) (fun found s w ↦ P s w ∧
      found = (s.refused.filter fun item ↦ !weather.blind.refused item.name).find? (·.requestId = requestId)) := by
  refine (judged_ask _).bind fun _ ↦ ?_
  intro _ _ hinv hpre
  simp only [meets_bind, meets_remembered, meets_pure, hinv.1.unreadable]
  obtain ⟨hpre, hdeny⟩ := hpre
  cases hdeny
  exact ⟨hinv, fun _ hfnd ↦ ⟨hpre, (Except.ok.inj hfnd).symm⟩⟩

end Rules

/-! ### Holders -/

/-- The request ids that are taken, with what they are bound to. -/
def holders (store : Store) : Set (String × Fingerprint) :=
  {held | (∃ row, store.requests.find held.1 = some row ∧ row.fingerprint = held.2) ∨
    (∃ item ∈ store.queue, (item.requestId, item.fingerprint) = held) ∨
    ∃ item ∈ store.refused, (item.requestId, item.fingerprint) = held}

variable {store : Store} {requestId : String} {fingerprint : Fingerprint}

theorem mem_holders_of_row {row : PoRequest} (hrow : store.requests.find requestId = some row) :
    (requestId, row.fingerprint) ∈ holders store := .inl ⟨row, hrow, rfl⟩

theorem mem_holders_of_queue {item : QueuedInput} (hitem : item ∈ store.queue) :
    (item.requestId, item.fingerprint) ∈ holders store := .inr (.inl ⟨item, hitem, rfl⟩)

/-- The request id is bound to nothing else. -/
def NoOther (store : Store) (claim : String × Fingerprint) : Prop :=
  ∀ fingerprint, (claim.1, fingerprint) ∈ holders store → fingerprint = claim.2

/-- The request id is bound, and to nothing else. -/
def Owned (store : Store) (claim : String × Fingerprint) : Prop :=
  ∀ fingerprint, (claim.1, fingerprint) ∈ holders store ↔ fingerprint = claim.2

variable {claim : String × Fingerprint}

theorem NoOther.owned (hother : NoOther store claim) (hheld : claim ∈ holders store) : Owned store claim :=
  fun _ ↦ ⟨hother _, fun hsame ↦ hsame ▸ hheld⟩

/-- An id that is bound to nothing else may be taken. -/
theorem NoOther.insert {next : Store} (hother : NoOther store claim)
    (hholds : holders next = insert claim (holders store)) : Owned next claim := by
  intro fingerprint
  rw [hholds, Set.mem_insert_iff]
  refine ⟨fun hheld ↦ ?_, fun hsame ↦ .inl (hsame ▸ rfl)⟩
  rcases hheld with hsame | hheld
  · exact congrArg Prod.snd hsame
  · exact hother fingerprint hheld

end Ummanu.Po
