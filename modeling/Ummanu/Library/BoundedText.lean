import Mathlib

/-!
# Bounded text and the tokens it can carry

A durable record clips every text it stores, and a later reader looks for machine tokens inside
the clipped text. `BoundedText limit` is a text together with the proof that it fits, and `clip`
is the only way the records build one from free text.

The second half decides when a text cannot contain a token. A token written in snake case has a
separator between two letters, so a text whose separators all stand between other pairs of
letters cannot contain it: `not_infix_of_separatorsWithin`. The condition `SeparatorsWithin` is
kept by taking an infix (`SeparatorsWithin.of_isInfix`), and `Composable` texts keep it when they
are put together (`Composable.append`), so it can be read off the pieces a message is assembled
from.

Scope. Nothing here names a record or a message of any program.
-/

set_option autoImplicit false

namespace Ummanu.Library

/-! ### Texts that fit a limit -/

/-- A text of at most `limit` characters. -/
structure BoundedText (limit : ℕ) where
  text : String
  length_le : text.toList.length ≤ limit
deriving DecidableEq, Repr

namespace BoundedText

variable {limit : ℕ}

/-- The first `limit` characters of a text. -/
def clip (limit : ℕ) (text : String) : BoundedText limit :=
  ⟨String.ofList (text.toList.take limit), by
    rw [String.toList_ofList]
    exact List.length_take_le limit text.toList⟩

/-- The empty text fits every limit. -/
def blank : BoundedText limit := ⟨"", by simp⟩

/-- A text counts as present when it has a character. -/
def isPresent (bounded : BoundedText limit) : Bool := !bounded.text.toList.isEmpty

@[simp] theorem isPresent_blank : (blank : BoundedText limit).isPresent = false := rfl

@[simp] theorem toList_clip (text : String) :
    (clip limit text).text.toList = text.toList.take limit := by
  simp [clip]

@[simp] theorem clip_text (bounded : BoundedText limit) : clip limit bounded.text = bounded := by
  cases bounded with
  | mk _ hlen => simp [clip, List.take_of_length_le hlen]

theorem toList_clip_isInfix (text : String) : (clip limit text).text.toList <:+: text.toList := by
  rw [toList_clip]
  exact (List.take_prefix limit text.toList).isInfix

end BoundedText

/-! ### Tokens inside texts -/

/-- The characters of `token` stand next to each other somewhere in `text`. -/
def Mentions (token text : String) : Prop := token.toList <:+: text.toList

instance (token text : String) : Decidable (Mentions token text) :=
  inferInstanceAs (Decidable (token.toList <:+: text.toList))

section Separators

variable {α : Type*} (mark : α) (allowed : α → α → Prop)

/-- Every occurrence of `mark` between two neighbours stands between a pair that `allowed`
admits. -/
def SeparatorsWithin (text : List α) : Prop :=
  ∀ left right, [left, mark, right] <:+: text → allowed left right

variable {mark allowed}

theorem SeparatorsWithin.of_isInfix {part text : List α} (hpart : part <:+: text)
    (htext : SeparatorsWithin mark allowed text) : SeparatorsWithin mark allowed part :=
  fun left right hpair ↦ htext left right (hpair.trans hpart)

theorem SeparatorsWithin.of_not_mem {text : List α} (hmark : mark ∉ text) :
    SeparatorsWithin mark allowed text := by
  intro _ _ hpair
  exact absurd (hpair.subset (by simp)) hmark

/-- A window of three characters in a concatenation lies on one side, or the separator is the
last character of the first part, or the first of the second. -/
theorem window_append {left right : α} {first second : List α} (hwin : [left, mark, right] <:+: first ++ second) :
    [left, mark, right] <:+: first ∨ [left, mark, right] <:+: second ∨
      first.getLast? = some mark ∨ second.head? = some mark := by
  obtain ⟨pre, post, hsplit⟩ := hwin
  rw [List.append_assoc, List.append_eq_append_iff] at hsplit
  rcases hsplit with ⟨inner, hfst, hrest⟩ | ⟨inner, _, hsnd⟩
  · match inner, hfst, hrest with
    | [], _, hrest => exact .inr (.inl ⟨[], post, by simpa using hrest⟩)
    | [_], _, hrest =>
      refine .inr (.inr (.inr ?_))
      simp only [List.cons_append, List.nil_append, List.cons.injEq] at hrest
      rw [← hrest.2]
      rfl
    | [a, b], hfst, hrest =>
      refine .inr (.inr (.inl ?_))
      simp only [List.cons_append, List.nil_append, List.cons.injEq] at hrest
      simp [hfst, hrest.2.1]
    | a :: b :: c :: tail, hfst, hrest =>
      simp only [List.cons_append, List.nil_append, List.cons.injEq] at hrest
      refine .inl ⟨pre, tail, ?_⟩
      simp [hfst, hrest.1, hrest.2.1, hrest.2.2.1]
  · exact .inr (.inl ⟨inner, post, by simp [hsnd]⟩)

variable (mark allowed) in
/-- A text that may stand next to another one: its separators are admitted, and it neither begins
nor ends with one. -/
structure Composable (text : List α) : Prop where
  within : SeparatorsWithin mark allowed text
  head : text.head? ≠ some mark
  last : text.getLast? ≠ some mark

theorem Composable.of_not_mem {text : List α} (hmark : mark ∉ text) :
    Composable mark allowed text where
  within := .of_not_mem hmark
  head := fun hhead ↦ hmark (List.mem_of_head? hhead)
  last := fun hlast ↦ hmark (List.mem_of_getLast? hlast)

theorem Composable.append {first second : List α} (hfst : Composable mark allowed first)
    (hsnd : Composable mark allowed second) : Composable mark allowed (first ++ second) where
  within := by
    intro left right hwin
    rcases window_append hwin with hleft | hright | hend | hstart
    · exact hfst.within left right hleft
    · exact hsnd.within left right hright
    · exact absurd hend hfst.last
    · exact absurd hstart hsnd.head
  head := by
    rw [List.head?_append]
    cases hhead : first.head? with
    | none => exact hsnd.head
    | some letter =>
      have hletter := hfst.head
      rwa [hhead] at hletter
  last := by
    rw [List.getLast?_append]
    cases hlast : second.getLast? with
    | none => exact hfst.last
    | some letter =>
      have hletter := hsnd.last
      rwa [hlast] at hletter

/-- A token with a separator between a pair that is not admitted does not occur. -/
theorem not_infix_of_separatorsWithin (left right : α) {token text : List α}
    (htext : SeparatorsWithin mark allowed text) (htoken : [left, mark, right] <:+: token)
    (hpair : ¬ allowed left right) : ¬ token <:+: text :=
  fun hmention ↦ hpair (htext left right (htoken.trans hmention))

end Separators

/-- Decimal digits contain no separator. -/
theorem underscore_not_mem_digits (n : ℕ) : '_' ∉ (toString n).toList := by
  simp [toString, Nat.repr]

end Ummanu.Library
