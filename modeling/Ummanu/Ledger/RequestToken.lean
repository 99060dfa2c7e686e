import Ummanu.Library.Texts

/-!
# Tokens of request ids

Request ids are put together from tokens: a value with every run of other characters replaced by a dash, and
without dashes at its ends. The tokens of an id are joined by dashes.
-/

set_option autoImplicit false

namespace Ummanu.Ledger

open Library

/-- The characters a request token keeps. -/
def keepsInToken (c : Char) : Bool :=
  c.isAlphanum || c = '_' || c = '.' || c = '-'

def requestToken (value : String) : String :=
  let token := trimmed '-' (dashed keepsInToken value.toList)
  if token = [] then "empty" else String.ofList token

/-- The tokens of some values, joined by dashes. -/
def joinedTokens (parts : List String) : String := "-".intercalate (parts.map requestToken)

def attemptRequestId (attemptId action reference suffix : String) : String :=
  joinedTokens (["dispatcher", requestToken (if attemptId = "" then "attempt-missing" else attemptId), action,
    reference] ++ if suffix = "" then [] else [suffix])

/-- A value that is a token. -/
def isToken (value : List Char) : Bool :=
  value ≠ [] ∧ value.all keepsInToken = true ∧ value.head? ≠ some '-' ∧ value.getLast? ≠ some '-'

/-- A token stands for itself. -/
theorem requestToken_of_isToken {value : String} (htoken : isToken value.toList = true) :
    requestToken value = value := by
  simp only [isToken, decide_eq_true_eq, List.all_eq_true] at htoken
  obtain ⟨hsome, hkept, hhead, hlast⟩ := htoken
  simp only [requestToken, dashed_eq_self hkept, trimmed_eq_self hhead hlast]
  rw [if_neg hsome, String.ofList_toList]

end Ummanu.Ledger
