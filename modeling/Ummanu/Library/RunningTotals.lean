import Mathlib

/-!
# Running totals with gaps

A series of running totals is read step by step, and some of its readings are unknown. `increments` is
what each step is taken to have added: the first step the whole of its total, and every later one its
total minus the one before, where both are known. A gap is not zero, and nothing is added across it.

What was added is never more than the last known total, as long as the known totals never fall
(`knownSum_increments_le`), and is exactly it when none is missing (`knownSum_increments_eq`).
-/

set_option autoImplicit false

namespace Ummanu.Library

section Definitions

variable {α : Type*}

/-- What a step added, from the reading before it, if there is one. -/
def added [Sub α] (previous : Option (Option α)) (total : Option α) : Option α :=
  match previous with
  | none => total
  | some previous => Option.map₂ (· - ·) total previous

/-- What the steps of a series added, after a given reading. -/
def incrementsFrom [Sub α] : Option (Option α) → List (Option α) → List (Option α)
  | _, [] => []
  | previous, total :: rest => added previous total :: incrementsFrom (some total) rest

/-- What the steps of a series added. -/
def increments [Sub α] (totals : List (Option α)) : List (Option α) := incrementsFrom none totals

/-- The sum of the known values. -/
def knownSum [AddMonoid α] (values : List (Option α)) : α := values.reduceOption.sum

/-- The last known value. -/
def lastKnown [Zero α] (values : List (Option α)) : α := values.reduceOption.getLastD 0

/-- The known values never fall. -/
def NeverFalls [LE α] (values : List (Option α)) : Prop := values.reduceOption.Pairwise (· ≤ ·)

instance [LE α] [DecidableLE α] (values : List (Option α)) : Decidable (NeverFalls values) :=
  inferInstanceAs (Decidable (values.reduceOption.Pairwise (· ≤ ·)))

end Definitions

section Snoc

variable {α : Type*}

@[simp] theorem added_none [Sub α] (previous : Option (Option α)) : added previous none = none := by
  cases previous <;> simp [added]

theorem incrementsFrom_concat [Sub α] (previous : Option (Option α)) (totals : List (Option α)) (total : Option α) :
    incrementsFrom previous (totals ++ [total]) =
      incrementsFrom previous totals ++ [added (totals.getLast?.or previous) total] := by
  induction totals generalizing previous with
  | nil => simp [incrementsFrom]
  | cons a rest ih =>
    have hlast : rest.getLast?.or (some a) = (a :: rest).getLast?.or previous := by
      cases rest <;> simp [List.getLast?_cons]
    rw [List.cons_append, incrementsFrom, incrementsFrom, ih, hlast, List.cons_append]

theorem increments_concat [Sub α] (totals : List (Option α)) (total : Option α) :
    increments (totals ++ [total]) = increments totals ++ [added totals.getLast? total] := by
  rw [increments, incrementsFrom_concat, Option.or_none, increments]

theorem knownSum_concat [AddMonoid α] (values : List (Option α)) (value : Option α) :
    knownSum (values ++ [value]) = knownSum values + value.getD 0 := by
  cases value <;> simp [knownSum, List.reduceOption_append]

theorem lastKnown_concat_some [Zero α] (values : List (Option α)) (value : α) :
    lastKnown (values ++ [some value]) = value := by
  simp [lastKnown, List.reduceOption_append]

theorem lastKnown_concat_none [Zero α] (values : List (Option α)) :
    lastKnown (values ++ [none]) = lastKnown values := by
  simp [lastKnown, List.reduceOption_append]

theorem NeverFalls.of_concat [LE α] {values : List (Option α)} {value : Option α}
    (hvals : NeverFalls (values ++ [value])) : NeverFalls values := by
  rw [NeverFalls, List.reduceOption_append] at hvals
  exact (List.pairwise_append.mp hvals).1

end Snoc

section Sums

variable {α : Type*} [AddCommMonoid α] [PartialOrder α] [CanonicallyOrderedAdd α]

/-- The next known value is not below the last one. -/
theorem NeverFalls.lastKnown_le {values : List (Option α)} {value : α}
    (hvals : NeverFalls (values ++ [some value])) : lastKnown values ≤ value := by
  rw [NeverFalls, List.reduceOption_append, List.pairwise_append] at hvals
  rw [lastKnown]
  cases hlast : values.reduceOption using List.reverseRecOn with
  | nil => simp
  | append_singleton _ last => simpa using hvals.2.2 last (by simp [hlast]) value (by simp)

variable [Sub α] [OrderedSub α]

/-- What was added is never more than the last known total. -/
theorem knownSum_increments_le {totals : List (Option α)} (htot : NeverFalls totals) :
    knownSum (increments totals) ≤ lastKnown totals := by
  induction totals using List.reverseRecOn with
  | nil => simp [increments, incrementsFrom, knownSum]
  | append_singleton totals total ih =>
    have hbefore := ih htot.of_concat
    rw [increments_concat, knownSum_concat]
    cases total with
    | none =>
      rw [lastKnown_concat_none]
      simpa using hbefore
    | some total =>
      rw [lastKnown_concat_some]
      have hlast := htot.lastKnown_le
      cases totals using List.reverseRecOn with
      | nil => simp [added, increments, incrementsFrom, knownSum]
      | append_singleton pre prev =>
        cases prev with
        | none => simpa [added] using hbefore.trans hlast
        | some prev =>
          rw [lastKnown_concat_some] at hbefore hlast
          calc
            knownSum (increments (pre ++ [some prev])) + (added (pre ++ [some prev]).getLast? (some total)).getD 0 =
                knownSum (increments (pre ++ [some prev])) + (total - prev) := by
              simp [added]
            _ ≤ prev + (total - prev) := by gcongr
            _ = total := add_tsub_cancel_of_le hlast

/-- If no total is missing, what was added is the last one. -/
theorem knownSum_increments_eq {totals : List (Option α)} (htot : NeverFalls totals)
    (hknown : ∀ total ∈ totals, total.isSome = true) :
    knownSum (increments totals) = lastKnown totals := by
  induction totals using List.reverseRecOn with
  | nil => simp [increments, incrementsFrom, knownSum, lastKnown]
  | append_singleton totals total ih =>
    have hbefore := ih htot.of_concat fun k hmem ↦ hknown k (by simp [hmem])
    obtain ⟨total, rfl⟩ := Option.isSome_iff_exists.mp (hknown total (by simp))
    have hlast := htot.lastKnown_le
    rw [increments_concat, knownSum_concat, lastKnown_concat_some, hbefore]
    cases totals using List.reverseRecOn with
    | nil => simp [added, lastKnown]
    | append_singleton pre previous =>
      obtain ⟨previous, rfl⟩ := Option.isSome_iff_exists.mp (hknown previous (by simp))
      rw [lastKnown_concat_some] at hlast ⊢
      have hstep : (added (pre ++ [some previous]).getLast? (some total)).getD 0 = total - previous := by
        simp [added]
      rw [hstep, add_tsub_cancel_of_le hlast]

end Sums

end Ummanu.Library
