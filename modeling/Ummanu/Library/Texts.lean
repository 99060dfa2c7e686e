import Mathlib

/-!
# Texts as lists of characters

What identifiers built by concatenation and their readers need: replacing every run of unwanted characters by
one dash, trimming a character at both ends, splitting at the last occurrence of a separator, white space and
line breaks, matching a word in any case, the digits of a number, and reading a number in base 16.
-/

set_option autoImplicit false

namespace Ummanu.Library

/-! ### Tokens -/

section Tokens

variable (keep : Char → Bool)

/-- Every run of characters that are not kept becomes one dash. -/
def dashed : List Char → List Char
  | [] => []
  | c :: rest =>
    if keep c then c :: dashed rest
    -- the last character of a run stands for it
    else if rest.head?.all keep then '-' :: dashed rest
    else dashed rest

/-- The text without a character at its ends. -/
def trimmed (c : Char) (text : List Char) : List Char :=
  ((text.dropWhile (· = c)).reverse.dropWhile (· = c)).reverse

variable {keep}

theorem dashed_append {front : List Char} (hfront : ∀ c ∈ front, keep c = true) (rest : List Char) :
    dashed keep (front ++ rest) = front ++ dashed keep rest := by
  induction front with
  | nil => rfl
  | cons c front ih =>
    rw [List.cons_append, dashed, if_pos (hfront c List.mem_cons_self),
      ih fun o hoth ↦ hfront o (List.mem_cons_of_mem c hoth)]
    rfl

variable {text : List Char}

/-- A text of kept characters is kept. -/
theorem dashed_eq_self (htext : ∀ c ∈ text, keep c = true) : dashed keep text = text := by
  have happ := dashed_append htext []
  rwa [List.append_nil, dashed, List.append_nil] at happ

theorem dropWhile_eq_self {c : Char} (hhead : text.head? ≠ some c) :
    text.dropWhile (· = c) = text := by
  cases text with
  | nil => rfl
  | cons _ _ =>
    simpa using hhead

/-- A text without the character at its ends is kept. -/
theorem trimmed_eq_self {c : Char} (hhead : text.head? ≠ some c) (hlast : text.getLast? ≠ some c) :
    trimmed c text = text := by
  rw [trimmed, dropWhile_eq_self hhead, dropWhile_eq_self (by rwa [List.head?_reverse]), List.reverse_reverse]

end Tokens

/-! ### Separators -/

/-- A text is split at the last separator in one way. -/
theorem append_cons_inj_of_last {α : Type} [DecidableEq α] {sep : α} {xs ys ds es : List α} (hds : sep ∉ ds)
    (hes : sep ∉ es) (hsame : xs ++ sep :: ds = ys ++ sep :: es) : xs = ys ∧ ds = es := by
  have hlast (front back : List α) (hback : sep ∉ back) :
      (front ++ sep :: back).reverse.takeWhile (· ≠ sep) = back.reverse := by
    rw [List.reverse_append, List.reverse_cons, List.append_assoc, List.takeWhile_append_of_pos]
    · simp
    · intro a ha
      simpa using fun heq : a = sep ↦ hback (heq ▸ List.mem_reverse.mp ha)
  have hback : ds = es := by
    have := (hlast xs ds hds).symm.trans ((congrArg (·.reverse.takeWhile (· ≠ sep)) hsame).trans (hlast ys es hes))
    exact List.reverse_injective this
  subst hback
  exact ⟨(List.append_left_inj _).mp hsame, rfl⟩

/-- A text is split at the first separator in one way. -/
theorem append_cons_inj_of_first {α : Type} [DecidableEq α] {sep : α} {xs ys ds es : List α} (hxs : sep ∉ xs)
    (hys : sep ∉ ys) (hsame : xs ++ sep :: ds = ys ++ sep :: es) : xs = ys ∧ ds = es := by
  have hreversed : ds.reverse ++ sep :: xs.reverse = es.reverse ++ sep :: ys.reverse := by
    simpa using congrArg List.reverse hsame
  obtain ⟨hback, hfront⟩ := append_cons_inj_of_last (by simpa using hxs) (by simpa using hys) hreversed
  exact ⟨List.reverse_injective hfront, List.reverse_injective hback⟩

/-- Joining adds no character but the separator's. -/
theorem notMem_intercalate {α : Type} {a : α} {sep : List α} {parts : List (List α)} (hsep : a ∉ sep)
    (hparts : ∀ part ∈ parts, a ∉ part) : a ∉ sep.intercalate parts := by
  induction parts with
  | nil => simp
  | cons part rest ih =>
    have hpart := hparts part List.mem_cons_self
    cases rest with
    | nil => simpa using hpart
    | cons _ rest =>
      rw [List.intercalate_cons_cons, List.mem_append, List.mem_append]
      rintro ((hmem | hmem) | hmem)
      · exact hpart hmem
      · exact hsep hmem
      · exact ih (fun o hoth ↦ hparts o (List.mem_cons_of_mem part hoth)) hmem

/-! ### White space and lines -/

/-- White space. -/
def isSpace (c : Char) : Bool :=
  let n := c.toNat
  (9 ≤ n && n ≤ 13) || (28 ≤ n && n ≤ 32) || n == 0x85 || n == 0xa0 || n == 0x1680 ||
    (0x2000 ≤ n && n ≤ 0x200a) || n == 0x2028 || n == 0x2029 || n == 0x202f || n == 0x205f || n == 0x3000

/-- A text of white space. -/
def isBlankText (text : String) : Bool := text.toList.all isSpace

/-- The characters that end a line. -/
def isLineBreak (c : Char) : Bool :=
  let n := c.toNat
  (10 ≤ n && n ≤ 13) || (28 ≤ n && n ≤ 30) || n == 0x85 || n == 0x2028 || n == 0x2029

/-- The lines of a text; `line` holds, backwards, the one that is being read. -/
def splitLines (line : List Char) : List Char → List (List Char)
  | [] => if line = [] then [] else [line.reverse]
  | '\r' :: '\n' :: rest => line.reverse :: splitLines [] rest
  | c :: rest => if isLineBreak c then line.reverse :: splitLines [] rest else splitLines (c :: line) rest

/-- The text without white space at its ends. -/
def strip (text : List Char) : List Char := ((text.dropWhile isSpace).reverse.dropWhile isSpace).reverse

theorem strip_eq (text : List Char) : strip text = (text.dropWhile isSpace).rdropWhile isSpace := rfl

/-- A text that was stripped has nothing to strip. -/
theorem strip_strip (text : List Char) : strip (strip text) = strip text := by
  have hfront : (strip text).dropWhile isSpace = strip text := by
    rw [List.dropWhile_eq_self_iff]
    intro hsome
    have hprefix : strip text <+: text.dropWhile isSpace := List.rdropWhile_prefix _ _
    have hne : text.dropWhile isSpace ≠ [] := List.ne_nil_of_length_pos (hsome.trans_le hprefix.length_le)
    have hhead := List.head_dropWhile_not isSpace hne
    have hsame : (strip text)[0] = (text.dropWhile isSpace).head hne := by
      rw [List.head_eq_getElem]
      exact List.IsPrefix.getElem hprefix hsome
    simp [hsame, hhead]
  rw [strip_eq (strip text), hfront, strip_eq, List.rdropWhile_idempotent]

/-! ### Words in any case -/

/-- The letter that a character stands for when case is ignored. -/
def foldCase (c : Char) : Char :=
  if c = 'İ' ∨ c = 'ı' then 'i'
  else if c = 'ſ' then 's'
  else if c = 'K' then 'k'
  else c.toLower

/-- What follows a word that the text starts with, in any case. -/
def afterWord : List Char → List Char → Option (List Char)
  | [], text => some text
  | _ :: _, [] => none
  | w :: word, c :: text => if foldCase c = w then afterWord word text else none

/-! ### Numbers -/

/-- The number that digits write. -/
def digitsValue (digits : List Char) : ℕ := digits.foldl (fun n c ↦ 10 * n + (c.toNat - '0'.toNat)) 0

/-- The text is digits, one at least. -/
def isDigits (text : List Char) : Bool := !text.isEmpty && text.all Char.isDigit

theorem toList_toString (n : ℕ) : (toString n).toList = Nat.toDigits 10 n := by
  simp [toString, Nat.repr]

/-- The text of a number is read back. -/
theorem digitsValue_toString (n : ℕ) : digitsValue (toString n).toList = n := by
  rw [toList_toString, digitsValue, ← Nat.ofDigitChars_eq_foldl, Nat.ofDigitChars_toDigits (by decide) (by decide)]

theorem toString_injective : Function.Injective (toString : ℕ → String) := by
  intro n m hsame
  rw [← digitsValue_toString n, hsame, digitsValue_toString]

/-- The text of a number is digits. -/
theorem isDigits_toString (n : ℕ) : isDigits (toString n).toList = true := by
  rw [toList_toString, isDigits, Bool.and_eq_true, List.all_eq_true]
  refine ⟨by simp [Nat.toDigits_ne_nil], fun c hc ↦ Nat.isDigit_of_mem_toDigits (by decide) (by decide) hc⟩

/-! ### Numbers in base 16 -/

/-- The zeros of the decimal digits of every script (Unicode 15), nine digits after each. -/
def decimalZeros : List ℕ :=
  [0x30, 0x660, 0x6f0, 0x7c0, 0x966, 0x9e6, 0xa66, 0xae6, 0xb66, 0xbe6, 0xc66, 0xce6, 0xd66, 0xde6, 0xe50, 0xed0,
    0xf20, 0x1040, 0x1090, 0x17e0, 0x1810, 0x1946, 0x19d0, 0x1a80, 0x1a90, 0x1b50, 0x1bb0, 0x1c40, 0x1c50, 0xa620,
    0xa8d0, 0xa900, 0xa9d0, 0xa9f0, 0xaa50, 0xabf0, 0xff10, 0x104a0, 0x10d30, 0x11066, 0x110f0, 0x11136, 0x111d0,
    0x112f0, 0x11450, 0x114d0, 0x11650, 0x116c0, 0x11730, 0x118e0, 0x11950, 0x11c50, 0x11d50, 0x11da0, 0x11f50,
    0x16a60, 0x16ac0, 0x16b50, 0x1d7ce, 0x1d7d8, 0x1d7e2, 0x1d7ec, 0x1d7f6, 0x1e140, 0x1e2f0, 0x1e4f0, 0x1e950,
    0x1fbf0]

/-- The ASCII character that a character is read as in a number. -/
def asciiOf (c : Char) : Char :=
  if c.toNat < 128 then c
  else if isSpace c then ' '
  else ((decimalZeros.find? fun z ↦ z ≤ c.toNat ∧ c.toNat < z + 10).map fun z ↦ Nat.digitChar (c.toNat - z)).getD '?'

/-- The white space that may stand around a number. -/
def isAsciiSpace (c : Char) : Bool := c ∈ [' ', '\t', '\n', '\r', '\x0b', '\x0c']

def hexDigit (c : Char) : Option ℕ := (List.range 16).find? (Nat.digitChar · = c.toLower)

/-- Hexadecimal digits, with single underscores between them. -/
def hexNumber (text : List Char) : Option ℕ :=
  if [] ∈ text.splitOn '_' then none
  else ((text.filter (· ≠ '_')).mapM hexDigit).map fun digits ↦ digits.foldl (fun n d ↦ 16 * n + d) 0

/-- The digits behind `0x`, if it is there, and one underscore after it. -/
def afterBase : List Char → List Char
  | '0' :: 'x' :: '_' :: rest | '0' :: 'X' :: '_' :: rest | '0' :: 'x' :: rest | '0' :: 'X' :: rest => rest
  | text => text

/-- `int(text, 16)`. -/
def intHex (text : List Char) : Option ℤ :=
  match ((text.map asciiOf).dropWhile isAsciiSpace).rdropWhile isAsciiSpace with
  | '+' :: rest => (hexNumber (afterBase rest)).map Nat.cast
  | '-' :: rest => (hexNumber (afterBase rest)).map fun n ↦ -(n : ℤ)
  | rest => (hexNumber (afterBase rest)).map Nat.cast

variable {n : ℕ}

theorem hexDigit_digitChar {d : ℕ} (hd : d < 16) : hexDigit (Nat.digitChar d) = some d := by
  have hall : ∀ d < 16, hexDigit (Nat.digitChar d) = some d := by decide
  exact hall d hd

/-- What holds of sixteen digits holds of the text of a number. -/
theorem of_mem_toDigits (p : Char → Prop) (hdigit : ∀ d < 16, p (Nat.digitChar d)) {c : Char}
    (hc : c ∈ Nat.toDigits 16 n) : p c := by
  induction n using Nat.strongRecOn with
  | ind n ih =>
    rw [Nat.toDigits_eq_if (by decide)] at hc
    split at hc
    · next hlt => exact List.mem_singleton.mp hc ▸ hdigit n hlt
    · next _ =>
      rcases List.mem_append.mp hc with hc | hc
      · exact ih (n / 16) (Nat.div_lt_self (by omega) (by decide)) hc
      · exact List.mem_singleton.mp hc ▸ hdigit _ (Nat.mod_lt n (by decide))

/-- The digits of a number are read back. -/
theorem mapM_hexDigit_toDigits (n : ℕ) :
    ∃ digits, (Nat.toDigits 16 n).mapM hexDigit = some digits ∧
      digits.foldl (fun n d ↦ 16 * n + d) 0 = n := by
  induction n using Nat.strongRecOn with
  | ind n ih =>
    rw [Nat.toDigits_eq_if (by decide)]
    split
    · next hlt => exact ⟨[n], by simp [hexDigit_digitChar hlt], by simp⟩
    · obtain ⟨digits, hdigits, hvalue⟩ := ih (n / 16) (Nat.div_lt_self (by omega) (by decide))
      refine ⟨digits ++ [n % 16], ?_, ?_⟩
      · simp [List.mapM_append, hdigits, hexDigit_digitChar (Nat.mod_lt n (by decide))]
      · rw [List.foldl_concat, hvalue]
        omega

theorem afterBase_eq_self {text : List Char} (hx : 'x' ∉ text) (hX : 'X' ∉ text) : afterBase text = text := by
  unfold afterBase
  split <;> simp_all

/-- The hexadecimal text of a number is read back. -/
theorem intHex_toDigits (n : ℕ) : intHex (Nat.toDigits 16 n) = some (n : ℤ) := by
  have hmem {c : Char} := of_mem_toDigits (fun c ↦ c.toNat < 128 ∧ isAsciiSpace c = false ∧ c ∉ ['_', '+', '-', 'x', 'X'])
    (by decide) (n := n) (c := c)
  have hnot {c : Char} (hc : c ∈ ['_', '+', '-', 'x', 'X']) : c ∉ Nat.toDigits 16 n := fun hdigit ↦ (hmem hdigit).2.2 hc
  have hnumber : hexNumber (Nat.toDigits 16 n) = some n := by
    obtain ⟨digits, hdigits, hvalue⟩ := mapM_hexDigit_toDigits n
    have hsplit : (Nat.toDigits 16 n).splitOn '_' = [Nat.toDigits 16 n] := by
      have hone : (['_'].intercalate [Nat.toDigits 16 n]).splitOn '_' = _ :=
        List.splitOn_intercalate '_' (by simpa using hnot (by decide)) (by simp)
      simpa using hone
    have hfilter : (Nat.toDigits 16 n).filter (· ≠ '_') = Nat.toDigits 16 n :=
      List.filter_eq_self.mpr fun c hc ↦ decide_eq_true fun heq ↦ hnot (by decide) (heq ▸ hc)
    rw [hexNumber, hsplit, if_neg (by simp [Nat.toDigits_ne_nil.symm]), hfilter, hdigits, Option.map_some, hvalue]
  have hascii : (Nat.toDigits 16 n).map asciiOf = Nat.toDigits 16 n :=
    (List.map_congr_left fun c hc ↦ if_pos (hmem hc).1).trans (List.map_id' _)
  have hfront : (Nat.toDigits 16 n).dropWhile isAsciiSpace = Nat.toDigits 16 n :=
    List.dropWhile_eq_self_iff.mpr fun hlen ↦ by simp [(hmem (List.getElem_mem hlen)).2.1]
  have hback : (Nat.toDigits 16 n).rdropWhile isAsciiSpace = Nat.toDigits 16 n :=
    List.rdropWhile_eq_self_iff.mpr fun hne ↦ by simp [(hmem (List.getLast_mem hne)).2.1]
  rw [intHex, hascii, hfront, hback]
  split
  · next heq => exact absurd (heq ▸ List.mem_cons_self) (hnot (c := '+') (by decide))
  · next heq => exact absurd (heq ▸ List.mem_cons_self) (hnot (c := '-') (by decide))
  · rw [afterBase_eq_self (hnot (by decide)) (hnot (by decide)), hnumber, Option.map_some]

end Ummanu.Library
