import Mathlib

/-!
# Loops that may fail

A loop over a list that answers a state or fails at some entry. The entries have different keys, and a step of
one entry leaves the others ready for theirs. What every step that succeeds keeps, the loop keeps; and a loop
whose steps each change the place of their key changes each place by its own entry.
-/

set_option autoImplicit false

namespace Ummanu.Library

variable {ε σ ι κ β : Type}

/-- A program that answers has answered at its first step. -/
theorem bind_eq_ok {first : Except ε σ} {next : σ → Except ε β} {b : β} (hok : first >>= next = .ok b) :
    ∃ s, first = .ok s ∧ next s = .ok b := by
  cases first with
  | error _ => exact nomatch hok
  | ok s => exact ⟨s, rfl, hok⟩

/-! ### Places that entries change -/

section Places

variable [DecidableEq κ] (key : ι → κ) (change : ι → β → β)

/-- What is at the place of a key after the entries' changes. -/
def changedAt (xs : List ι) (k : κ) (old : Option β) : Option β :=
  match xs.find? (key · = k) with
  | some x => old.map (change x)
  | none => old

variable {key} {xs : List ι} {old : Option β}

theorem changedAt_of_notMem {k : κ} (hnone : k ∉ xs.map key) : changedAt key change xs k old = old := by
  have hfind : xs.find? (key · = k) = none := by
    rw [List.find?_eq_none]
    intro x hx
    simpa using fun hsame : key x = k ↦ hnone (hsame ▸ List.mem_map_of_mem hx)
  rw [changedAt, hfind]

theorem changedAt_cons (x : ι) (k : κ) :
    changedAt key change (x :: xs) k old =
      if key x = k then old.map (change x) else changedAt key change xs k old := by
  by_cases hk : key x = k <;> simp [hk, changedAt]

theorem changedAt_of_mem (hkeys : (xs.map key).Nodup) {x : ι} (hx : x ∈ xs) :
    changedAt key change xs (key x) old = old.map (change x) := by
  induction xs with
  | nil => exact nomatch hx
  | cons y _ ih =>
    rw [List.map_cons, List.nodup_cons] at hkeys
    rw [changedAt_cons]
    rcases List.mem_cons.mp hx with rfl | hx
    · rw [if_pos rfl]
    · have hoth : key y ≠ key x := fun hsame ↦ hkeys.1 (hsame ▸ List.mem_map_of_mem hx)
      rw [if_neg hoth, ih hkeys.2 hx]

end Places

/-! ### Loops -/

section Loop

variable {step : σ → ι → Except ε σ}

theorem foldlM_cons_ok {x : ι} {rest : List ι} {s after : σ} (hok : (x :: rest).foldlM step s = .ok after) :
    ∃ next, step s x = .ok next ∧ rest.foldlM step next = .ok after := by
  exact bind_eq_ok hok

variable [DecidableEq κ] {key : ι → κ} {Ready : σ → ι → Prop} {P : σ → Prop} (get : σ → κ → Option β)
  {change : ι → β → β} {Good : ι → Option β → Prop}

/-- A loop over entries with different keys finds the place of each key as it was at the begin, changes it by
the key's own entry, and changes no other place. What its steps keep, it keeps. -/
theorem foldlM_changes {xs : List ι} {s after : σ} (hkeys : (xs.map key).Nodup)
    (hplace : ∀ x ∈ xs, ∀ s next, Ready s x → P s → step s x = .ok next → (Good x (get s (key x)) ∧
      ∀ k, get next k = if k = key x then (get s k).map (change x) else get s k) ∧ P next)
    (hready : ∀ x ∈ xs, ∀ y ∈ xs, key y ≠ key x → ∀ s next, Ready s x → step s x = .ok next → Ready s y →
      Ready next y)
    (hs : ∀ x ∈ xs, Ready s x) (hP : P s) (hok : xs.foldlM step s = .ok after) :
    ((∀ x ∈ xs, Good x (get s (key x))) ∧ ∀ k, get after k = changedAt key change xs k (get s k)) ∧
      P after := by
  induction xs generalizing s with
  | nil =>
    cases hok
    exact ⟨⟨nofun, fun _ ↦ rfl⟩, hP⟩
  | cons x rest ih =>
    obtain ⟨next, hnext, hrest⟩ := foldlM_cons_ok hok
    rw [List.map_cons, List.nodup_cons] at hkeys
    have hothers (y : ι) (hy : y ∈ rest) : key y ≠ key x := fun hsame ↦ hkeys.1 (hsame ▸ List.mem_map_of_mem hy)
    have hx : Ready s x := hs x List.mem_cons_self
    have hstart : ∀ y ∈ rest, Ready next y := fun y hy ↦
      hready x List.mem_cons_self y (List.mem_cons_of_mem x hy) (hothers y hy) s next hx hnext
        (hs y (List.mem_cons_of_mem x hy))
    obtain ⟨⟨hhere, hchg⟩, hkept⟩ := hplace x List.mem_cons_self s next hx hP hnext
    obtain ⟨⟨hgood, hlater⟩, hafter⟩ := ih hkeys.2 (fun y hy ↦ hplace y (List.mem_cons_of_mem x hy))
      (fun y hy z hz ↦ hready y (List.mem_cons_of_mem x hy) z (List.mem_cons_of_mem x hz)) hstart hkept hrest
    refine ⟨⟨fun y hy ↦ ?_, fun k ↦ ?_⟩, hafter⟩
    · rcases List.mem_cons.mp hy with rfl | hy
      · exact hhere
      · have hsame := hchg (key y)
        rw [if_neg (hothers y hy)] at hsame
        exact hsame ▸ hgood y hy
    · rw [hlater, hchg, changedAt_cons]
      by_cases hk : k = key x
      · -- no later entry has the key
        subst hk
        rw [changedAt_of_notMem change hkeys.1, if_pos rfl, if_pos rfl]
      · rw [if_neg hk, if_neg (Ne.symm hk)]

end Loop

end Ummanu.Library
