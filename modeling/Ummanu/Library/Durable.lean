import Mathlib

/-!
# Programs with durable writes

A program works on a durable state, which survives a crash, and on a memory, which does not. It
replaces the durable state as a whole, one write at a time, and ends with a value or an exception.
What a program did is its `Outcome`: the durable states it wrote in order, the memory it left and
its result. A crash between two writes leaves the durable state after some of the writes, so that a
property of every state in `Outcome.writes` is a property of every crash.

`Meets G program Q s v` is the judgment on programs. Started on the durable state `s` with the
memory `v`, every write of the program is a `G` step from the durable state before it, and the
postcondition `Q` holds of the result, the durable state and the memory at the end. It is computed
through the program by the equivalences `meets_pure`, `meets_bind`, `meets_commit` and their like,
and weakened by `Meets.mono`.

`visited` lists the durable states of a whole history of programs, each of which may be cut short
after any number of its writes. `visited_isChain` carries what every program guarantees to every
pair of consecutive durable states of a history.
-/

set_option autoImplicit false

namespace Ummanu.Library

/-- What a program did: its writes in order, the memory it left, and its result. -/
structure Outcome (σ μ ε α : Type) where
  writes : List σ
  memory : μ
  result : Except ε α

/-- A program over a durable state and a memory. -/
def Durable (σ μ ε α : Type) : Type := σ → μ → Outcome σ μ ε α

namespace Durable

variable {σ μ ε α β : Type}

section

variable (program : Durable σ μ ε α) (next : Except ε α → Durable σ μ ε β)

/-- The durable state a program leaves. -/
def final (s : σ) (v : μ) : σ :=
  (program s v).writes.getLastD s

protected def pure (a : α) : Durable σ μ ε α := fun _ v ↦ ⟨[], v, .ok a⟩

/-- Run a program, and go on from where it ended with its result. -/
def follow :
    Durable σ μ ε β := fun s v ↦
  let first := program s v
  let second := next first.result (program.final s v) first.memory
  ⟨first.writes ++ second.writes, second.memory, second.result⟩

/-- The exception a program ends with. -/
def fail (e : ε) : Durable σ μ ε α := fun _ v ↦ ⟨[], v, .error e⟩

protected def bind (next : α → Durable σ μ ε β) : Durable σ μ ε β :=
  program.follow fun
    | .ok a => next a
    | .error e => fail e

/-- Run a program, and the handler from where it ended if it raised. -/
protected def tryCatch (handler : ε → Durable σ μ ε α) :
    Durable σ μ ε α :=
  program.follow fun
    | .ok a => Durable.pure a
    | .error e => handler e

end

instance : Monad (Durable σ μ ε) where
  pure := Durable.pure
  bind := Durable.bind

instance : MonadExceptOf ε (Durable σ μ ε) where
  throw := fail
  tryCatch := Durable.tryCatch

/-- Read the durable state. -/
def stored : Durable σ μ ε σ := fun s v ↦ ⟨[], v, .ok s⟩

/-- Read the memory. -/
def remembered : Durable σ μ ε μ := fun _ v ↦ ⟨[], v, .ok v⟩

/-- Change the memory. -/
def remember (f : μ → μ) : Durable σ μ ε Unit := fun _ v ↦ ⟨[], f v, .ok ()⟩

/-- One durable write. -/
def commit (f : σ → σ) : Durable σ μ ε Unit := fun s v ↦ ⟨[f s], v, .ok ()⟩

/-- A durable write that may be refused, in which case nothing is written. -/
def attempt (refusal : Option ε) (f : σ → σ) : Durable σ μ ε Unit :=
  match refusal with
  | none => commit f
  | some e => fail e

end Durable

/-! ### The judgment -/

section Judgment

variable {σ μ ε α β : Type} {G : σ → σ → Prop}

/-- Every write of the program is a `G` step, and the postcondition holds at its end. -/
def Meets (G : σ → σ → Prop) (program : Durable σ μ ε α) (Q : Except ε α → σ → μ → Prop)
    (s : σ) (v : μ) : Prop :=
  (s :: (program s v).writes).IsChain G ∧ Q (program s v).result (program.final s v) (program s v).memory

theorem getLastD_append (first second : List σ) (s : σ) :
    (first ++ second).getLastD s = second.getLastD (first.getLastD s) := by
  cases second using List.reverseRecOn with
  | nil => simp
  | append_singleton _ t => simp [← List.append_assoc]

theorem isChain_cons_append (first second : List σ) (s : σ) :
    (s :: (first ++ second)).IsChain G ↔
      (s :: first).IsChain G ∧ (first.getLastD s :: second).IsChain G := by
  induction first generalizing s with
  | nil => simp
  | cons t _ ih =>
    rw [List.cons_append, List.isChain_cons_cons, List.isChain_cons_cons, ih, and_assoc, List.getLastD_cons]

/-- What a step preserves holds of every state of a chain, and of the last one. -/
theorem isChain_invariant (inv : σ → Prop) {s : σ} {states : List σ} (hstart : inv s)
    (hchain : (s :: states).IsChain G) (hstep : ∀ s t, inv s → G s t → inv t) :
    (∀ t ∈ states, inv t) ∧ inv (states.getLastD s) := by
  induction states generalizing s with
  | nil => simpa using hstart
  | cons t _ ih =>
    rw [List.isChain_cons_cons] at hchain
    obtain ⟨hall, hlast⟩ := ih (hstep s t hstart hchain.1) hchain.2
    rw [List.getLastD_cons]
    exact ⟨by simpa [hstep s t hstart hchain.1] using hall, hlast⟩

variable {program : Durable σ μ ε α} {Q Q' : Except ε α → σ → μ → Prop} {s : σ} {v : μ}

theorem Meets.mono (hmeets : Meets G program Q s v) (hpost : ∀ r t w, Q r t w → Q' r t w) :
    Meets G program Q' s v :=
  ⟨hmeets.1, hpost _ _ _ hmeets.2⟩

open Durable

theorem meets_follow {next : Except ε α → Durable σ μ ε β} {Q : Except ε β → σ → μ → Prop} :
    Meets G (program.follow next) Q s v ↔
      Meets G program (fun r t w ↦ Meets G (next r) Q t w) s v := by
  simp only [Meets, final, Durable.follow, isChain_cons_append, getLastD_append, and_assoc]

@[simp] theorem meets_pure {a : α} : Meets G (pure a : Durable σ μ ε α) Q s v ↔ Q (.ok a) s v := by
  simp [Meets, final, pure, Durable.pure]

@[simp] theorem meets_throw {e : ε} :
    Meets G (throw e : Durable σ μ ε α) Q s v ↔ Q (.error e) s v := by
  simp [Meets, final, throw, throwThe, MonadExceptOf.throw, fail]

@[simp] theorem meets_fail {e : ε} :
    Meets G (fail e : Durable σ μ ε α) Q s v ↔ Q (.error e) s v := by
  simp [Meets, final, fail]

@[simp] theorem meets_bind {next : α → Durable σ μ ε β} {Q : Except ε β → σ → μ → Prop} :
    Meets G (program >>= next) Q s v ↔
      Meets G program (fun r t w ↦ match r with
        | .ok a => Meets G (next a) Q t w
        | .error e => Q (.error e) t w) s v := by
  have hbind : program >>= next = program.follow fun
      | .ok a => next a
      | .error e => fail e := rfl
  rw [hbind, meets_follow]
  constructor <;> intro hmeets <;> refine hmeets.mono fun r t w hr ↦ ?_ <;>
    cases r <;> simpa using hr

@[simp] theorem meets_tryCatch {handler : ε → Durable σ μ ε α} :
    Meets G (tryCatch program handler) Q s v ↔
      Meets G program (fun r t w ↦ match r with
        | .ok a => Q (.ok a) t w
        | .error e => Meets G (handler e) Q t w) s v := by
  have hcatch : tryCatch program handler = program.follow fun
      | .ok a => (pure a : Durable σ μ ε α)
      | .error e => handler e := rfl
  rw [hcatch, meets_follow]
  constructor <;> intro hmeets <;> refine hmeets.mono fun r t w hr ↦ ?_ <;>
    cases r <;> simpa using hr

@[simp] theorem meets_stored {Q : Except ε σ → σ → μ → Prop} :
    Meets G Durable.stored Q s v ↔ Q (.ok s) s v := by
  simp [Meets, final, Durable.stored]

@[simp] theorem meets_remembered {Q : Except ε μ → σ → μ → Prop} :
    Meets G Durable.remembered Q s v ↔ Q (.ok v) s v := by
  simp [Meets, final, Durable.remembered]

@[simp] theorem meets_remember {f : μ → μ} {Q : Except ε Unit → σ → μ → Prop} :
    Meets G (Durable.remember f) Q s v ↔ Q (.ok ()) s (f v) := by
  simp [Meets, final, Durable.remember]

@[simp] theorem meets_commit {f : σ → σ} {Q : Except ε Unit → σ → μ → Prop} :
    Meets G (Durable.commit f) Q s v ↔ G s (f s) ∧ Q (.ok ()) (f s) v := by
  simp [Meets, final, Durable.commit]

@[simp] theorem meets_attempt {refusal : Option ε} {f : σ → σ} {Q : Except ε Unit → σ → μ → Prop} :
    Meets G (Durable.attempt refusal f) Q s v ↔
      (refusal = none → G s (f s) ∧ Q (.ok ()) (f s) v) ∧
        ∀ e, refusal = some e → Q (.error e) s v := by
  cases refusal <;> simp [Durable.attempt]

end Judgment

/-! ### Histories with crashes -/

section Histories

variable {σ μ ε α ι : Type} (tick : ι → Durable σ μ ε α) (load : σ → μ)

/-- The writes of one tick that a crash let through; no cut is no crash. -/
def survivingWrites (s : σ) (input : ι) (cut : Option ℕ) : List σ :=
  match cut with
  | none => (tick input s (load s)).writes
  | some n => (tick input s (load s)).writes.take n

/-- The durable state after one tick that may have been cut short. -/
def crashStep (s : σ) (attempt : ι × Option ℕ) : σ :=
  (survivingWrites tick load s attempt.1 attempt.2).getLastD s

/-- The durable states of a history, oldest first, after the one it started on. -/
def visited : σ → List (ι × Option ℕ) → List σ
  | _, [] => []
  | s, attempt :: rest =>
    survivingWrites tick load s attempt.1 attempt.2 ++ visited (crashStep tick load s attempt) rest

variable {tick load} {G : σ → σ → Prop}

theorem survivingWrites_isChain {s : σ} {input : ι} (cut : Option ℕ)
    (htick : (s :: (tick input s (load s)).writes).IsChain G) :
    (s :: survivingWrites tick load s input cut).IsChain G := by
  cases cut with
  | none => exact htick
  | some n =>
    have htake := htick.take (n + 1)
    rwa [List.take_succ_cons] at htake

/-- An invariant that a tick keeps through each of its writes holds where a crash leaves it. -/
theorem crashStep_invariant (inv : σ → Prop) {s : σ} (attempt : ι × Option ℕ) (hstart : inv s)
    (htick : (s :: (tick attempt.1 s (load s)).writes).IsChain G) (hstep : ∀ s t, inv s → G s t → inv t) :
    inv (crashStep tick load s attempt) :=
  (isChain_invariant inv hstart (survivingWrites_isChain attempt.2 htick) hstep).2

variable (tick load) in
/-- Every tick of a history is allowed on the durable state it starts from. -/
def Admitted (allowed : σ → ι → Prop) : σ → List (ι × Option ℕ) → Prop
  | _, [] => True
  | s, attempt :: rest =>
    allowed s attempt.1 ∧ Admitted allowed (crashStep tick load s attempt) rest

variable {attempts : List (ι × Option ℕ)} {s : σ}

theorem admitted_of_forall {allowed : ι → Prop} (s : σ) (hallow : ∀ attempt ∈ attempts, allowed attempt.1) :
    Admitted tick load (fun _ ↦ allowed) s attempts := by
  induction attempts generalizing s with
  | nil => trivial
  | cons attempt _ ih =>
    exact ⟨hallow attempt List.mem_cons_self, ih _ fun o hoth ↦ hallow o (List.mem_cons_of_mem _ hoth)⟩

theorem admitted_true (s : σ) (attempts : List (ι × Option ℕ)) :
    Admitted tick load (fun _ _ ↦ True) s attempts :=
  admitted_of_forall s fun _ _ ↦ trivial

theorem Admitted.mono {allowed allowed' : σ → ι → Prop} (hallow : ∀ s input, allowed s input → allowed' s input)
    (hadm : Admitted tick load allowed s attempts) : Admitted tick load allowed' s attempts := by
  induction attempts generalizing s with
  | nil => trivial
  | cons attempt _ ih => exact ⟨hallow s attempt.1 hadm.1, ih hadm.2⟩

/-- What every allowed tick guarantees from the states an invariant holds of, every admitted history
does. -/
theorem visited_isChain_of_admitted (inv : σ → Prop) {allowed : σ → ι → Prop}
    (hadm : Admitted tick load allowed s attempts) (hstart : inv s)
    (htick : ∀ s input, inv s → allowed s input → (s :: (tick input s (load s)).writes).IsChain G)
    (hstep : ∀ s t, inv s → G s t → inv t) : (s :: visited tick load s attempts).IsChain G := by
  induction attempts generalizing s with
  | nil => simp [visited]
  | cons attempt _ ih =>
    have hwrites := survivingWrites_isChain attempt.2 (htick s attempt.1 hstart hadm.1)
    rw [visited, isChain_cons_append]
    exact ⟨hwrites, ih hadm.2 (isChain_invariant inv hstart hwrites hstep).2⟩

variable (inv : σ → Prop) (attempts : List (ι × Option ℕ)) (hstart : inv s)
  (htick : ∀ s input, inv s → (s :: (tick input s (load s)).writes).IsChain G)
  (hstep : ∀ s t, inv s → G s t → inv t)
include hstart htick hstep

/-- What every tick guarantees from the states an invariant holds of, every history does. -/
theorem visited_isChain : (s :: visited tick load s attempts).IsChain G :=
  visited_isChain_of_admitted inv (admitted_true s attempts) hstart (fun s input hs _ ↦ htick s input hs) hstep

/-- An invariant that every tick keeps through each of its writes holds throughout every history. -/
theorem visited_invariant : ∀ t ∈ visited tick load s attempts, inv t :=
  (isChain_invariant inv hstart (visited_isChain inv attempts hstart htick hstep) hstep).1

end Histories

end Ummanu.Library
