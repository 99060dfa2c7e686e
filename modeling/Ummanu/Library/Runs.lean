import Mathlib

/-!
# Runs of a deterministic machine

A machine takes one input at a time: `step : σ → ι → σ`. Its run over a list of inputs is the left
fold of `step`, so a run over a concatenation is the run over the second part from where the first
part ended (`List.foldl_append`).

`EachStep step good s inputs` says that every step of the run meets `good`, a condition on the
state before the step and the input of the step. It is the form in which a condition on inputs
and prior state is put to a whole run. The two rules every development here uses are
`EachStep.invariant`, which turns what one good step preserves into what a good run preserves, and
`eachStep_append`, which splits a run.

`emissions out s inputs` lists what a run emits, in order.
-/

set_option autoImplicit false

namespace Ummanu.Library

variable {σ ι ο : Type*} (step : σ → ι → σ)

/-- Every step of the run from a state meets a condition on the state before it and its input. -/
def EachStep (good : σ → ι → Prop) : σ → List ι → Prop
  | _, [] => True
  | s, input :: rest => good s input ∧ EachStep good (step s input) rest

@[simp] theorem eachStep_nil (good : σ → ι → Prop) (s : σ) : EachStep step good s [] := trivial

@[simp] theorem eachStep_cons (good : σ → ι → Prop) (s : σ) (input : ι) (rest : List ι) :
    EachStep step good s (input :: rest) ↔ good s input ∧ EachStep step good (step s input) rest :=
  Iff.rfl

instance EachStep.decidable (good : σ → ι → Prop) [∀ s input, Decidable (good s input)] :
    ∀ (s : σ) (inputs : List ι), Decidable (EachStep step good s inputs)
  | _, [] => .isTrue trivial
  | s, input :: rest =>
    have := EachStep.decidable good (step s input) rest
    inferInstanceAs (Decidable (good s input ∧ EachStep step good (step s input) rest))

theorem eachStep_append (good : σ → ι → Prop) (s : σ) (first second : List ι) :
    EachStep step good s (first ++ second) ↔
      EachStep step good s first ∧ EachStep step good (first.foldl step s) second := by
  induction first generalizing s with
  | nil => simp
  | cons _ _ ih => simp [ih, and_assoc]

variable {step}

variable {inputs : List ι} {good : σ → ι → Prop}

/-- A condition on the inputs alone holds at every step when it holds of every input. -/
theorem EachStep.of_forall {s : σ} (hgood : ∀ input ∈ inputs, ∀ s, good s input) :
    EachStep step good s inputs := by
  induction inputs generalizing s with
  | nil => trivial
  | cons input _ ih =>
    exact ⟨hgood input (by simp) s, ih fun l hlater ↦ hgood l (by simp [hlater])⟩

/-- What every good step preserves holds at the end of every good run. -/
theorem EachStep.invariant (inv : σ → Prop) {s : σ} (hrun : EachStep step good s inputs) (hstart : inv s)
    (hstep : ∀ s input, inv s → good s input → inv (step s input)) : inv (inputs.foldl step s) := by
  induction inputs generalizing s with
  | nil => exact hstart
  | cons input _ ih => exact ih hrun.2 (hstep s input hstart hrun.1)

/-- What an invariant and a good step give of the step holds at every step of a good run. -/
theorem EachStep.of_invariant {good result : σ → ι → Prop} (inv : σ → Prop) {s : σ}
    (hrun : EachStep step good s inputs) (hstart : inv s)
    (hstep : ∀ s input, inv s → good s input → inv (step s input) ∧ result s input) :
    EachStep step result s inputs := by
  induction inputs generalizing s with
  | nil => trivial
  | cons input _ ih =>
    obtain ⟨hnext, hres⟩ := hstep s input hstart hrun.1
    exact ⟨hres, ih hrun.2 hnext⟩

/-- The same for an invariant that also speaks about the inputs taken so far. -/
theorem EachStep.history_invariant (inv : σ → List ι → Prop) {s : σ} (hrun : EachStep step good s inputs)
    (hstart : inv s [])
    (hstep : ∀ s taken input, inv s taken → good s input → inv (step s input) (taken ++ [input])) :
    inv (inputs.foldl step s) inputs := by
  have hfold : ∀ (rest taken : List ι) (s : σ), EachStep step good s rest → inv s taken →
      inv (rest.foldl step s) (taken ++ rest) := by
    intro rest
    induction rest with
    | nil =>
      intro taken s _ hinv
      rwa [List.append_nil]
    | cons input rest ih =>
      intro taken s hgood hinv
      have hnext := ih (taken ++ [input]) (step s input) hgood.2 (hstep s taken input hinv hgood.1)
      rwa [List.append_assoc, List.singleton_append] at hnext
  exact hfold inputs [] s hrun hstart

/-- What a machine emits along a run, in order. -/
def emissions (step : σ → ι → σ) (out : σ → ι → ο) : σ → List ι → List ο
  | _, [] => []
  | s, input :: rest => out s input :: emissions step out (step s input) rest

@[simp] theorem emissions_cons (out : σ → ι → ο) (s : σ) (input : ι) (rest : List ι) :
    emissions step out s (input :: rest) = out s input :: emissions step out (step s input) rest :=
  rfl

theorem emissions_comp {ο' : Type*} (step : σ → ι → σ) (out : σ → ι → ο) (f : ο → ο') (s : σ) (inputs : List ι) :
    emissions step (fun s input ↦ f (out s input)) s inputs =
      (emissions step out s inputs).map f := by
  induction inputs generalizing s with
  | nil => rfl
  | cons _ _ ih => simp [ih]

end Ummanu.Library
