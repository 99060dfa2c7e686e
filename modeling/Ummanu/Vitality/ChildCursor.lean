import Ummanu.Vitality.Snapshot

/-!
# The cursor of a child-activity reading

A reading of a head's children is stored as one text: its uptime and the totals of the tree, then as many of the
descendants as fit, the busiest first. The text is stored under the limit of every cursor. `childCursor_read`: the
limit cuts nothing off, and the next reading gets back the totals and the counters of those descendants.
-/

set_option autoImplicit false

namespace Ummanu.Vitality

open Library

def hex (n : ℕ) : List Char := Nat.toDigits 16 n

structure Descendant where
  pid : ℕ
  start : ℕ
  cpuMs : ℕ
  io : ℕ

/-- The key and the counters of an entry. -/
abbrev Counted := (ℤ × ℤ) × ℤ × ℤ

def Descendant.counted (item : Descendant) : Counted := ((item.pid, item.start), item.cpuMs, item.io)

structure ChildReading where
  uptime : ℕ
  totalCpu : ℕ
  totalIo : ℕ
  descendants : List Descendant
  small : uptime < 2 ^ 64 ∧ totalCpu < 2 ^ 64 ∧ totalIo < 2 ^ 64
  once : (descendants.map (·.counted.1)).Nodup

def joined (sep : Char) (ns : List ℕ) : List Char := [sep].intercalate (ns.map hex)

def Descendant.entry (item : Descendant) : List Char := joined '.' [item.pid, item.start, item.cpuMs, item.io]

/-- The loop of `_child_cursor`, with `used` characters in front of the entries. -/
def fitting (used : ℕ) (entries : List (List Char)) : List (List Char) → List (List Char)
  | [] => entries
  | entry :: rest =>
    if cursorLimit < used + ([','].intercalate (entries ++ [entry])).length then entries
    else fitting used (entries ++ [entry]) rest

section

variable (reading : ChildReading)

def cursorTotals : List Char := joined ':' [reading.uptime, reading.totalCpu, reading.totalIo]

def cursorHead : List Char := "c2:".toList ++ cursorTotals reading ++ [';']

/-- The descendants in decreasing order of `cpu_ms` and `start`. -/
def busiestFirst : List Descendant :=
  reading.descendants.insertionSort fun a b ↦ toLex (b.cpuMs, b.start) ≤ toLex (a.cpuMs, a.start)

def childCursor : List Char :=
  cursorHead reading ++
    [','].intercalate (fitting (cursorHead reading).length [] ((busiestFirst reading).map (·.entry)))

end

/-- Setting a key of the dict of counters. -/
def setCounters (found : List Counted) (entry : Counted) : List Counted :=
  found.filter (·.1 ≠ entry.1) ++ [entry]

def parseEntry (entry : List Char) : Option Counted := do
  match ← (entry.splitOn '.').mapM intHex with
  | [pid, start, cpu, io] => some ((pid, start), cpu, io)
  | _ => none

def parseChildCursor (text : List Char) : Option (ℤ × ℤ × ℤ × List Counted) := do
  let text ← text.dropPrefix? "c2:".toList
  let body := (text.dropWhile (· ≠ ';')).tail
  match ← ((text.takeWhile (· ≠ ';')).splitOn ':').mapM intHex with
  | [uptime, totalCpu, totalIo] =>
    let entries ← ((body.splitOn ',').filter (· ≠ [])).mapM parseEntry
    some (uptime, totalCpu, totalIo, entries.foldl setCounters [])
  | _ => none

/-! ### Numbers and separators -/

theorem notMem_parts {c : Char} (hc : ∀ d < 16, Nat.digitChar d ≠ c) (ns : List ℕ) :
    ∀ part ∈ ns.map hex, c ∉ part := by
  intro _ hpart hmem
  obtain ⟨_, -, rfl⟩ := List.mem_map.mp hpart
  exact of_mem_toDigits (· ≠ c) hc hmem rfl

theorem mapM_splitOn_joined {sep : Char} (hsep : ∀ d < 16, Nat.digitChar d ≠ sep) {ns : List ℕ} (hns : ns ≠ []) :
    ((joined sep ns).splitOn sep).mapM intHex = some (ns.map Nat.cast) := by
  rw [joined, List.splitOn_intercalate sep (notMem_parts hsep ns) (by simpa using hns), List.mapM_map]
  exact (congrArg (ns.mapM ·) (funext intHex_toDigits)).trans List.mapM_pure

/-- The entries are read back one by one. -/
theorem mapM_parseEntry (items : List Descendant) :
    ((([','].intercalate (items.map (·.entry))).splitOn ',').filter (· ≠ [])).mapM parseEntry =
      some (items.map (·.counted)) := by
  have hparse (item : Descendant) : parseEntry item.entry = some item.counted := by
    rw [parseEntry, Descendant.entry, mapM_splitOn_joined (by decide) (by simp)]
    rfl
  cases items with
  | nil => rfl
  | cons item items =>
    rw [List.splitOn_intercalate, List.filter_eq_self.mpr, List.mapM_map]
    · exact (congrArg (List.mapM · _) (funext hparse)).trans List.mapM_pure
    · simp [Descendant.entry, joined, List.intercalate]
    · intro entry hent
      obtain ⟨item, -, rfl⟩ := List.mem_map.mp hent
      exact notMem_intercalate (by decide) (notMem_parts (by decide) _)
    · simp

/-! ### The entries that fit -/

/-- The loop takes a first part of the entries, and the text stays within the limit. -/
theorem fitting_spec {used : ℕ} (entries rest : List (List Char))
    (hfits : used + ([','].intercalate entries).length ≤ cursorLimit) :
    used + ([','].intercalate (fitting used entries rest)).length ≤ cursorLimit ∧
      ∃ count, fitting used entries rest = entries ++ rest.take count := by
  induction rest generalizing entries with
  | nil => exact ⟨hfits, 0, by simp [fitting]⟩
  | cons e rest ih =>
    rw [fitting]
    split
    · exact ⟨hfits, 0, by simp⟩
    · next hroom =>
      obtain ⟨hlen, count, hcount⟩ := ih (entries ++ [e]) (Nat.not_lt.mp hroom)
      exact ⟨hlen, count + 1, by simp [hcount]⟩

theorem cursorHead_length (reading : ChildReading) : (cursorHead reading).length ≤ cursorLimit := by
  have hhex {n : ℕ} (hn : n < 2 ^ 64) : (hex n).length ≤ 16 :=
    (Nat.length_toDigits_le_iff (by decide) (by decide)).mpr hn
  have hup := hhex reading.small.1
  have hcpu := hhex reading.small.2.1
  have hio := hhex reading.small.2.2
  simp [cursorHead, cursorTotals, joined, cursorLimit, List.intercalate]
  omega

/-- Entries with keys of their own are all kept. -/
theorem foldl_setCounters (found entries : List Counted) (honce : ((found ++ entries).map Prod.fst).Nodup) :
    entries.foldl setCounters found = found ++ entries := by
  induction entries generalizing found with
  | nil => simp
  | cons e _ ih =>
    have hset : setCounters found e = found ++ [e] := by
      rw [setCounters, List.filter_eq_self.mpr]
      intro _ hoth
      rw [List.map_append, List.nodup_append] at honce
      exact decide_eq_true (honce.2.2 _ (List.mem_map_of_mem hoth) _ List.mem_cons_self)
    rw [List.foldl_cons, hset, ih _ (by simpa using honce), List.append_assoc, List.singleton_append]

/-- The stored cursor is the whole one, and it is read back as the totals of the reading and the counters of the
descendants that fit. -/
theorem childCursor_read (reading : ChildReading) :
    (BoundedText.clip cursorLimit (String.ofList (childCursor reading))).text.toList = childCursor reading ∧
      ∃ count, parseChildCursor (childCursor reading) =
        some ((reading.uptime : ℤ), (reading.totalCpu : ℤ), (reading.totalIo : ℤ),
          ((busiestFirst reading).take count).map (·.counted)) := by
  obtain ⟨_, count, hcount⟩ := fitting_spec [] ((busiestFirst reading).map (·.entry))
    (by simpa using cursorHead_length reading : (cursorHead reading).length + _ ≤ _)
  refine ⟨?_, count, ?_⟩
  · rw [BoundedText.toList_clip, String.toList_ofList, List.take_of_length_le]
    rwa [childCursor, List.length_append]
  · have hdrop : (childCursor reading).dropPrefix? "c2:".toList = some (cursorTotals reading ++
        ';' :: [','].intercalate (((busiestFirst reading).take count).map (·.entry))) := by
      rw [List.dropPrefix?_eq_some_iff, childCursor, hcount, cursorHead]
      simp
    have hhead : ∀ c ∈ cursorTotals reading, decide (c ≠ ';') = true := fun c hc ↦
      decide_eq_true fun heq ↦ notMem_intercalate (by decide) (notMem_parts (by decide) _) (heq ▸ hc)
    have honce : ((((busiestFirst reading).take count).map (·.counted)).map Prod.fst).Nodup := by
      rw [List.map_map]
      refine List.Nodup.sublist ((List.take_sublist _ _).map _) ?_
      exact ((List.perm_insertionSort _ _).map _).nodup_iff.mpr reading.once
    rw [parseChildCursor, hdrop, Option.bind_eq_bind, Option.bind_some]
    dsimp only
    rw [List.takeWhile_append_of_pos hhead, List.dropWhile_append_of_pos hhead, List.takeWhile_cons_of_neg (by decide),
      List.dropWhile_cons_of_neg (by decide), List.append_nil, List.tail_cons, cursorTotals,
      mapM_splitOn_joined (by decide) (by simp), mapM_parseEntry]
    exact congrArg (fun f ↦ some (_, _, _, f)) (foldl_setCounters [] _ honce)

/-- Two descendants, the busier one second. -/
theorem childCursor_read_witness :
    ∃ count, parseChildCursor (childCursor ⟨255, 40, 7, [⟨17, 3, 12, 4⟩, ⟨18, 5, 28, 3⟩], by decide, by decide⟩) =
      some (255, 40, 7, ([((18, 5), 28, 3), ((17, 3), 12, 4)] : List Counted).take count) := by
  obtain ⟨-, count, hcount⟩ := childCursor_read ⟨255, 40, 7, [⟨17, 3, 12, 4⟩, ⟨18, 5, 28, 3⟩], by decide, by decide⟩
  exact ⟨count, hcount.trans (by rw [List.map_take]; rfl)⟩

end Ummanu.Vitality
