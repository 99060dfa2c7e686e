import Mathlib

/-!
# Tables with a primary key

A table is a list of rows of which no two have the same key. `put` replaces the row of a key in its place or
appends one, `erase` removes the row of a key, and `find` reads it. That the keys stay distinct is a field of
the type, so that the rows of a table and what `find` answers say the same (`mem_rows_iff`).
-/

set_option autoImplicit false

namespace Ummanu.Library

/-- A row with a new key. -/
theorem nodup_map_concat {α κ : Type} {key : α → κ} {rows : List α} {row : α} (hrows : (rows.map key).Nodup)
    (hrow : ∀ other ∈ rows, key other ≠ key row) : ((rows ++ [row]).map key).Nodup := by
  simpa [List.nodup_append, hrows] using hrow

/-- Rows with distinct keys. -/
structure KeyedTable {α κ : Type} (key : α → κ) where
  rows : List α
  unique : (rows.map key).Nodup

namespace KeyedTable

variable {α κ : Type} [DecidableEq κ] {key : α → κ}

/-- The table without rows. -/
def empty (key : α → κ) : KeyedTable key where
  rows := []
  unique := List.nodup_nil

/-- The row of a key. -/
def find (table : KeyedTable key) (k : κ) : Option α := table.rows.find? (key · = k)

theorem map_replace (rows : List α) (row : α) :
    (rows.map fun other ↦ if key other = key row then row else other).map key = rows.map key := by
  rw [List.map_map]
  refine List.map_congr_left fun _ _ ↦ ?_
  simp only [Function.comp_apply]
  split_ifs with hsame
  · exact hsame.symm
  · rfl

/-- Replace the row of the key, or append one. -/
def put (table : KeyedTable key) (row : α) : KeyedTable key where
  rows :=
    if key row ∈ table.rows.map key then
      table.rows.map fun other ↦ if key other = key row then row else other
    else table.rows ++ [row]
  unique := by
    split_ifs with hkey
    · rw [map_replace]
      exact table.unique
    · rw [List.map_append]
      refine List.Nodup.append table.unique (List.nodup_singleton _) ?_
      simpa using hkey

/-- Remove the row of a key. -/
def erase (table : KeyedTable key) (k : κ) : KeyedTable key where
  rows := table.rows.filter (key · ≠ k)
  unique := (List.filter_sublist.map key).nodup table.unique

variable (table : KeyedTable key) (row : α) {k : κ}

/-- The rows are what is found under their keys. -/
theorem mem_rows_iff : row ∈ table.rows ↔ table.find (key row) = some row := by
  constructor
  · intro hrow
    obtain ⟨rows, hunique⟩ := table
    simp only [find] at hrow ⊢
    induction rows with
    | nil => exact nomatch hrow
    | cons a _ ih =>
      simp only [List.map_cons, List.nodup_cons, List.mem_map, not_exists, not_and] at hunique
      rcases List.mem_cons.mp hrow with rfl | hrest
      · simp
      · have hne : key a ≠ key row := fun hsame ↦ hunique.1 row hrest hsame.symm
        rw [List.find?_cons_of_neg (by simpa using hne)]
        exact ih hunique.2 hrest
  · exact List.mem_of_find?_eq_some

theorem key_of_find {table : KeyedTable key} {row : α} (hfind : table.find k = some row) : key row = k := by
  simpa using List.find?_some hfind

theorem find_eq_none_iff : table.find k = none ↔ k ∉ table.rows.map key := by
  simp [find]

@[simp] theorem find_put_self : (table.put row).find (key row) = some row := by
  rw [← mem_rows_iff]
  simp only [put]
  split_ifs with hkey
  · obtain ⟨o, hoth, hsame⟩ := List.mem_map.mp hkey
    exact List.mem_map.mpr ⟨o, hoth, if_pos hsame⟩
  · simp

theorem find_replace_of_ne (rows : List α) (hne : k ≠ key row) :
    (rows.map fun other ↦ if key other = key row then row else other).find? (key · = k) =
      rows.find? (key · = k) := by
  induction rows with
  | nil => rfl
  | cons a _ ih =>
    rw [List.map_cons, List.find?_cons, List.find?_cons, ih]
    by_cases hsame : key a = key row
    · rw [if_pos hsame, hsame]
      simp [hne.symm]
    · rw [if_neg hsame]

theorem find_put_of_ne (hne : k ≠ key row) : (table.put row).find k = table.find k := by
  simp only [find, put]
  split_ifs
  · exact find_replace_of_ne row table.rows hne
  · rw [List.find?_append]
    simp [hne.symm]

/-- A row that is put back changed. -/
theorem find_put_change {table : KeyedTable key} {row : α} {change : α → α} (hfind : table.find k = some row)
    (hkey : key (change row) = k) (other : κ) :
    (table.put (change row)).find other = if other = k then (table.find other).map change else table.find other := by
  subst hkey
  split_ifs with hsame
  · rw [hsame, find_put_self, hfind, Option.map_some]
  · exact find_put_of_ne _ _ hsame

@[simp] theorem find_erase_self (k : κ) : (table.erase k).find k = none := by
  rw [find_eq_none_iff]
  simp [erase]

theorem find_erase_of_ne {other : κ} (hne : other ≠ k) : (table.erase k).find other = table.find other := by
  simp only [find, erase, List.find?_filter]
  congr 1
  funext row
  by_cases hoth : key row = other <;> simp [hoth, hne]

end KeyedTable

end Ummanu.Library
