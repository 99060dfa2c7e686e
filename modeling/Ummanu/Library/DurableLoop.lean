import Ummanu.Library.Durable

/-!
# Loops of programs with durable writes

A loop runs one program for every item of a list and stops at the first that raises. `Ends done raised` is the
postcondition with one part for each way to end. `meets_each` carries an invariant of the items that are done
through the loop; a loop that never raises has `False` for its second part.
-/

set_option autoImplicit false

namespace Ummanu.Library

variable {σ μ ε α β ι : Type} {G : σ → σ → Prop}

/-- A program for every item, one after the other. -/
def Durable.each (step : ι → Durable σ μ ε Unit) : List ι → Durable σ μ ε Unit
  | [] => return ()
  | item :: rest => do
    step item
    Durable.each step rest

/-- The postcondition of a program that ends in one of two ways. -/
def Ends (done raised : σ → μ → Prop) : Except ε Unit → σ → μ → Prop
  | .ok _ => done
  | .error _ => raised

section Rules

variable {first second : Durable σ μ ε Unit} {P E : σ → μ → Prop} {s : σ} {v : μ}

/-- One program after the other. -/
theorem Meets.seq {Q : Except ε Unit → σ → μ → Prop} (hfst : Meets G first (Ends P E) s v)
    (hsnd : ∀ t w, P t w → Meets G second Q t w) (herr : ∀ e t w, E t w → Q (.error e) t w) :
    Meets G (first >>= fun _ ↦ second) Q s v := by
  rw [meets_bind]
  refine hfst.mono fun r t w hr ↦ ?_
  cases r with
  | ok _ => exact hsnd t w hr
  | error e => exact herr e t w hr

/-- More is said of how a program returns. -/
theorem Meets.done {Q : σ → μ → Prop} (hmeets : Meets G first (Ends P E) s v) (hdone : ∀ t w, P t w → Q t w) :
    Meets G first (Ends Q E) s v := by
  refine hmeets.mono fun r t w hr ↦ ?_
  cases r with
  | ok _ => exact hdone t w hr
  | error _ => exact hr

/-- What every step of a loop carries from the items that are done to those and its own, the loop carries to all. -/
theorem meets_each {step : ι → Durable σ μ ε Unit} {J : List ι → σ → μ → Prop} {items : List ι}
    (hstep : ∀ done item rest, items = done ++ item :: rest → ∀ t w, J done t w →
      Meets G (step item) (Ends (J (done ++ [item])) E) t w)
    (hstart : J [] s v) : Meets G (Durable.each step items) (Ends (J items) E) s v := by
  suffices hloop : ∀ done rest, items = done ++ rest → ∀ t w, J done t w →
      Meets G (Durable.each step rest) (Ends (J items) E) t w from hloop [] items rfl s v hstart
  intro done rest
  induction rest generalizing done with
  | nil =>
    intro hitems t w hdone
    rw [List.append_nil] at hitems
    rw [Durable.each, meets_pure, hitems]
    exact hdone
  | cons item rest ih =>
    intro hitems t w hdone
    exact (hstep done item rest hitems t w hdone).seq
      (fun t w hnext ↦ ih (done ++ [item]) (by simpa using hitems) t w hnext) fun _ _ _ herr ↦ herr

end Rules

/-! ### A program and its last step -/

theorem Durable.bind_assoc {γ : Type} (program : Durable σ μ ε α) (next : α → Durable σ μ ε β)
    (last : β → Durable σ μ ε γ) : program >>= next >>= last = program >>= fun a ↦ next a >>= last := by
  funext s v
  cases hres : (program s v).result <;>
    simp [bind, Durable.bind, Durable.follow, Durable.final, Durable.fail, hres]

/-- A program that returns goes on with what follows it. -/
theorem Durable.bind_of_ok {program : Durable σ μ ε α} (next : α → Durable σ μ ε β) {s : σ} {v : μ} {a : α}
    (hok : (program s v).result = .ok a) :
    (program >>= next) s v =
      { next a (program.final s v) (program s v).memory with
        writes := (program s v).writes ++ (next a (program.final s v) (program s v).memory).writes } := by
  simp [bind, Durable.bind, Durable.follow, hok]

/-- A program that raises ends there. -/
theorem Durable.bind_of_error {program : Durable σ μ ε α} (next : α → Durable σ μ ε β) {s : σ} {v : μ} {e : ε}
    (herror : (program s v).result = .error e) :
    (program >>= next) s v = { program s v with result := .error e } := by
  simp [bind, Durable.bind, Durable.follow, Durable.fail, herror]

end Ummanu.Library
