import Ummanu.Library.Durable

/-!
# Pre- and postconditions of programs with durable writes

A development that proves one invariant through a whole program states it once. `Triple G I P program Q`
says that, started where the invariant `I` and the precondition `P` hold of the durable state and the memory,
the program makes only `G` writes, ends where `I` holds, also when it raises, and ends with `Q` of its value
when it does not. The rules follow the program's text; a rule's side condition is about one write or one
change of the memory.

Scope. Nothing here names a program. An exception carries no postcondition of its own.
-/

set_option autoImplicit false

namespace Ummanu.Library

variable {σ μ ε α β : Type} {G : σ → σ → Prop} {I : σ → μ → Prop}

/-- Every write is a `G` step, the invariant holds at the end, and the postcondition of a value. -/
def Triple (G : σ → σ → Prop) (I : σ → μ → Prop) (P : σ → μ → Prop) (program : Durable σ μ ε α)
    (Q : α → σ → μ → Prop) : Prop :=
  ∀ s v, I s v → P s v → Meets G program (fun r t w ↦ I t w ∧ ∀ a, r = .ok a → Q a t w) s v

section Rules

variable {P P' : σ → μ → Prop} {program : Durable σ μ ε α} {Q Q' : α → σ → μ → Prop}

theorem Triple.weaken (htri : Triple G I P program Q) (hpre : ∀ s v, I s v → P' s v → P s v)
    (hpost : ∀ a s v, I s v → Q a s v → Q' a s v) : Triple G I P' program Q' := by
  intro s v hinv hp
  refine (htri s v hinv (hpre s v hinv hp)).mono ?_
  intro r t w hend
  exact ⟨hend.1, fun a ha ↦ hpost a t w hend.1 (hend.2 a ha)⟩

/-- A stronger precondition. -/
theorem Triple.pre (htri : Triple G I P program Q) (hpre : ∀ s v, I s v → P' s v → P s v) :
    Triple G I P' program Q :=
  htri.weaken hpre fun _ _ _ _ hq ↦ hq

/-- A weaker postcondition. -/
theorem Triple.post (htri : Triple G I P program Q) (hpost : ∀ a s v, I s v → Q a s v → Q' a s v) :
    Triple G I P program Q' :=
  htri.weaken (fun _ _ _ hp ↦ hp) hpost

theorem triple_pure {a : α} (hpost : ∀ s v, I s v → P s v → Q a s v) :
    Triple G I P (pure a : Durable σ μ ε α) Q := by
  intro s v hinv hp
  rw [meets_pure]
  exact ⟨hinv, fun b hb ↦ by cases hb; exact hpost s v hinv hp⟩

theorem triple_throw {e : ε} : Triple G I P (throw e : Durable σ μ ε α) Q := by
  intro s v hinv _
  rw [meets_throw]
  exact ⟨hinv, nofun⟩

theorem Triple.bind {next : α → Durable σ μ ε β} {R : β → σ → μ → Prop}
    (hfst : Triple G I P program Q) (hnext : ∀ a, Triple G I (Q a) (next a) R) :
    Triple G I P (program >>= next) R := by
  intro s v hinv hp
  rw [meets_bind]
  refine (hfst s v hinv hp).mono ?_
  intro r t w hend
  cases r with
  | error e => exact ⟨hend.1, nofun⟩
  | ok a => exact hnext a t w hend.1 (hend.2 a rfl)

/-- A handler starts where the invariant holds. -/
theorem Triple.tryCatch {handler : ε → Durable σ μ ε α} (hprog : Triple G I P program Q)
    (hhand : ∀ e, Triple G I (fun _ _ ↦ True) (handler e) Q) :
    Triple G I P (tryCatch program handler) Q := by
  intro s v hinv hp
  rw [meets_tryCatch]
  refine (hprog s v hinv hp).mono ?_
  intro r t w hend
  cases r with
  | error e => exact hhand e t w hend.1 trivial
  | ok a => exact hend

theorem Triple.ite {c : Prop} [Decidable c] {other : Durable σ μ ε α} (hthen : c → Triple G I P program Q)
    (helse : ¬ c → Triple G I P other Q) : Triple G I P (if c then program else other) Q := by
  split
  · rename_i hc
    exact hthen hc
  · rename_i hc
    exact helse hc

/-- A step whose reply ends the program, which goes on without one. -/
theorem Triple.orEnd {step : Durable σ μ ε (Option β)} {next : Option β → Durable σ μ ε α}
    {R : Option β → σ → μ → Prop} (hstep : Triple G I P step R)
    (hnone : Triple G I (R none) (next none) fun _ _ _ ↦ True)
    (hend : ∀ {reply}, ∃ a, next (some reply) = pure a) : Triple G I P (step >>= next) fun _ _ _ ↦ True := by
  refine hstep.bind fun reply ↦ ?_
  cases reply with
  | none => exact hnone
  | some _ =>
    obtain ⟨_, hpure⟩ := hend
    exact hpure ▸ triple_pure fun _ _ _ _ ↦ trivial

end Rules

section Steps

variable {P : σ → μ → Prop}

theorem triple_remembered :
    Triple G I P (Durable.remembered : Durable σ μ ε μ) (fun seen s v ↦ seen = v ∧ P s v) := by
  intro s v hinv hp
  rw [meets_remembered]
  exact ⟨hinv, fun a ha ↦ by cases ha; exact ⟨rfl, hp⟩⟩

theorem triple_stored :
    Triple G I P (Durable.stored : Durable σ μ ε σ) (fun seen s v ↦ seen = s ∧ P s v) := by
  intro s v hinv hp
  rw [meets_stored]
  exact ⟨hinv, fun a ha ↦ by cases ha; exact ⟨rfl, hp⟩⟩

variable {Q : Unit → σ → μ → Prop}

theorem triple_remember {f : μ → μ} (hchg : ∀ s v, I s v → P s v → I s (f v) ∧ Q () s (f v)) :
    Triple G I P (Durable.remember f : Durable σ μ ε Unit) Q := by
  intro s v hinv hp
  rw [meets_remember]
  exact ⟨(hchg s v hinv hp).1, fun _ _ ↦ (hchg s v hinv hp).2⟩

theorem triple_commit {f : σ → σ} (hwrite : ∀ s v, I s v → P s v → G s (f s) ∧ I (f s) v ∧ Q () (f s) v) :
    Triple G I P (Durable.commit f : Durable σ μ ε Unit) Q := by
  intro s v hinv hp
  rw [meets_commit]
  obtain ⟨hstep, hafter, hq⟩ := hwrite s v hinv hp
  exact ⟨hstep, hafter, fun _ _ ↦ hq⟩

/-- A refused write changes nothing. -/
theorem triple_attempt {refusal : Option ε} {f : σ → σ}
    (hwrite : ∀ s v, I s v → P s v → G s (f s) ∧ I (f s) v ∧ Q () (f s) v) :
    Triple G I P (Durable.attempt refusal f) Q := by
  cases refusal with
  | none => exact triple_commit hwrite
  | some e =>
    intro s v hinv _
    rw [Durable.attempt, meets_fail]
    exact ⟨hinv, by simp⟩

end Steps

end Ummanu.Library
