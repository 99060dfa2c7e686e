import Mathlib

/-!
# JSON values

Values as a document store keeps them. A number is its decimal text; an object lists its members in the
order in which the store keeps keys, so that equality of values is equality of documents. `get` is the member
of an object, `null` if there is none. `truthy` is the truth value a scripting language gives a value, `same` its
equality, for which `true` and `1.0` are `1`, and `textOr` the text of a value that is true, with an empty text for
the others.
-/

set_option autoImplicit false

namespace Ummanu.Library

inductive Json
  | null
  | bool (value : Bool)
  | num (literal : String)
  | str (text : String)
  | arr (items : List Json)
  | obj (members : List (String × Json))

namespace Json

/-! ### Equality -/

mutual

def decEq : (first second : Json) → Decidable (first = second)
  | .null, .null => isTrue rfl
  | .bool a, .bool b => decidable_of_iff (a = b) (by simp)
  | .num a, .num b => decidable_of_iff (a = b) (by simp)
  | .str a, .str b => decidable_of_iff (a = b) (by simp)
  | .arr a, .arr b => @decidable_of_iff _ (a = b) (by simp) (decEqItems a b)
  | .obj a, .obj b => @decidable_of_iff _ (a = b) (by simp) (decEqMembers a b)
  | .null, .bool _ | .null, .num _ | .null, .str _ | .null, .arr _ | .null, .obj _ => isFalse nofun
  | .bool _, .null | .bool _, .num _ | .bool _, .str _ | .bool _, .arr _ | .bool _, .obj _ => isFalse nofun
  | .num _, .null | .num _, .bool _ | .num _, .str _ | .num _, .arr _ | .num _, .obj _ => isFalse nofun
  | .str _, .null | .str _, .bool _ | .str _, .num _ | .str _, .arr _ | .str _, .obj _ => isFalse nofun
  | .arr _, .null | .arr _, .bool _ | .arr _, .num _ | .arr _, .str _ | .arr _, .obj _ => isFalse nofun
  | .obj _, .null | .obj _, .bool _ | .obj _, .num _ | .obj _, .str _ | .obj _, .arr _ => isFalse nofun

def decEqItems : (first second : List Json) → Decidable (first = second)
  | [], [] => isTrue rfl
  | a :: as, b :: bs =>
    @decidable_of_iff _ (a = b ∧ as = bs) (by simp) (@instDecidableAnd _ _ (decEq a b) (decEqItems as bs))
  | [], _ :: _ | _ :: _, [] => isFalse nofun

def decEqMembers : (first second : List (String × Json)) → Decidable (first = second)
  | [], [] => isTrue rfl
  | (k, a) :: as, (l, b) :: bs =>
    @decidable_of_iff _ (k = l ∧ a = b ∧ as = bs) (by simp [and_assoc])
      (@instDecidableAnd _ _ _ (@instDecidableAnd _ _ (decEq a b) (decEqMembers as bs)))
  | [], _ :: _ | _ :: _, [] => isFalse nofun

end

instance : DecidableEq Json := decEq

/-! ### Equality in a scripting language -/

def natural (digits : List Char) : ℕ := digits.foldl (fun n c ↦ 10 * n + (c.toNat - '0'.toNat)) 0

/-- The decimal number that a literal writes. -/
def decimal (literal : List Char) : ℚ :=
  let unsigned := if literal.head? = some '-' then literal.tail else literal
  let mantissa := unsigned.takeWhile fun c ↦ c ≠ 'e' ∧ c ≠ 'E'
  let exponent := (unsigned.dropWhile fun c ↦ c ≠ 'e' ∧ c ≠ 'E').tail
  let whole := mantissa.takeWhile (· ≠ '.')
  let fraction := (mantissa.dropWhile (· ≠ '.')).tail
  let power : ℤ := (if '-' ∈ exponent then -1 else 1) * natural (exponent.filter Char.isDigit)
  (if literal.head? = some '-' then -1 else 1) * natural (whole ++ fraction) * 10 ^ (power - fraction.length)

/-- The double that a decimal number is read as, below the range in which there is none. -/
def nearestDouble (q : ℚ) : ℚ :=
  let exponent := max (Int.log 2 |q| - 52) (-1074)
  let scaled := q / 2 ^ exponent
  let above := scaled - ⌊scaled⌋
  (if above < 1 / 2 ∨ above = 1 / 2 ∧ Even ⌊scaled⌋ then ⌊scaled⌋ else ⌊scaled⌋ + 1) * 2 ^ exponent

/-- The number that a value counts as; a literal with a point or an exponent is a double. -/
def number : Json → Option ℚ
  | .bool value => some (if value then 1 else 0)
  | .num literal =>
    let chars := literal.toList
    some (if '.' ∈ chars ∨ 'e' ∈ chars ∨ 'E' ∈ chars then nearestDouble (decimal chars) else decimal chars)
  | _ => none

mutual

def same : Json → Json → Bool
  | .null, .null => true
  | .str a, .str b => a = b
  | .arr a, .arr b => sameItems a b
  | .obj a, .obj b => sameMembers a b
  | a, b => a.number.isSome ∧ a.number = b.number

def sameItems : List Json → List Json → Bool
  | [], [] => true
  | a :: as, b :: bs => same a b && sameItems as bs
  | _, _ => false

def sameMembers : List (String × Json) → List (String × Json) → Bool
  | [], [] => true
  | (k, a) :: as, (l, b) :: bs => k = l && same a b && sameMembers as bs
  | _, _ => false

end

mutual

theorem same_self : ∀ value : Json, value.same value = true
  | .null => by rw [same]
  | .bool _ => by simp [same, number]
  | .num _ => by simp [same, number]
  | .str _ => by simp [same]
  | .arr items => by rw [same, sameItems_self items]
  | .obj members => by rw [same, sameMembers_self members]

theorem sameItems_self : ∀ items : List Json, sameItems items items = true
  | [] => by rw [sameItems]
  | item :: rest => by rw [sameItems, same_self item, sameItems_self rest, Bool.and_self]

theorem sameMembers_self : ∀ members : List (String × Json), sameMembers members members = true
  | [] => by rw [sameMembers]
  | (_, value) :: rest => by simp [sameMembers, same_self value, sameMembers_self rest]

end

/-! ### Members -/

def isObject : Json → Bool
  | .obj _ => true
  | _ => false

/-- The member of an object, if it has one. -/
def find (value : Json) (key : String) : Option Json :=
  match value with
  | .obj members => (members.find? (·.1 = key)).map (·.2)
  | _ => none

/-- The member of an object, or `null`. -/
def get (value : Json) (key : String) : Json := (value.find key).getD .null

/-- The object with a member set. -/
def set (value : Json) (key : String) (member : Json) : Json :=
  match value with
  | .obj members =>
    if members.any (·.1 = key) then
      .obj (members.map fun pair ↦ if pair.1 = key then (key, member) else pair)
    else .obj (members ++ [(key, member)])
  | other => other

/-- The members that are there. -/
def present (members : List (String × Option Json)) : List (String × Json) :=
  members.filterMap fun member ↦ member.2.map (member.1, ·)

theorem mem_present_iff {members : List (String × Option Json)} {key : String} {value : Json} :
    (key, value) ∈ present members ↔ (key, some value) ∈ members := by
  simp only [present, List.mem_filterMap, Option.map_eq_some_iff, Prod.mk.injEq, Prod.exists]
  constructor
  · rintro ⟨_, _, hmem, _, rfl, rfl, rfl⟩
    exact hmem
  · intro hmem
    exact ⟨key, some value, hmem, value, rfl, rfl, rfl⟩

/-- A member of an object whose keys are distinct. -/
theorem get_present {members : List (String × Option Json)} (hkeys : (members.map (·.1)).Nodup) {key : String}
    {value : Option Json} (hmem : (key, value) ∈ members) :
    (Json.obj (present members)).get key = value.getD .null := by
  suffices hfind : ((present members).find? (·.1 = key)).map (·.2) = value by rw [get, find, hfind]
  induction members with
  | nil => cases hmem
  | cons member rest ih =>
    obtain ⟨hfst, hrest⟩ := List.nodup_cons.mp hkeys
    -- the keys of what is there are among the keys
    have hnone : ((present rest).find? (·.1 = member.1)) = none := by
      refine List.find?_eq_none.mpr fun _ hpair hkey ↦ hfst ?_
      exact List.mem_map.mpr ⟨_, mem_present_iff.mp hpair, of_decide_eq_true hkey⟩
    rcases List.mem_cons.mp hmem with rfl | hmem
    · cases value with
      | none => simpa [present] using hnone
      | some value => simp [present]
    · have hne : member.1 ≠ key := fun hkey ↦ hfst (List.mem_map.mpr ⟨_, hmem, hkey.symm⟩)
      have hskip : (present (member :: rest)).find? (·.1 = key) = (present rest).find? (·.1 = key) := by
        obtain ⟨a, _ | value⟩ := member
        · rfl
        · exact List.find?_cons_of_neg (by simpa using hne)
      rw [hskip]
      exact ih hrest hmem

/-! ### Texts -/

/-- The truth value of a value. -/
def truthy : Json → Bool
  | .null => false
  | .bool value => value
  | .num literal => literal.toList.any fun c ↦ '1' ≤ c ∧ c ≤ '9'
  | .str text => text ≠ ""
  | .arr items => !items.isEmpty
  | .obj members => !members.isEmpty

mutual

/-- The text of a value inside a document. -/
def render : Json → String
  | .null => "null"
  | .bool value => if value then "true" else "false"
  | .num literal => literal
  | .str text => "\"" ++ text ++ "\""
  | .arr items => "[" ++ ", ".intercalate (renderItems items) ++ "]"
  | .obj members => "\x7b" ++ ", ".intercalate (renderMembers members) ++ "\x7d"

def renderItems : List Json → List String
  | [] => []
  | item :: rest => render item :: renderItems rest

def renderMembers : List (String × Json) → List String
  | [] => []
  | (key, value) :: rest => ("\"" ++ key ++ "\": " ++ render value) :: renderMembers rest

end

/-- The text of a member: a string is itself, `null` has none. -/
def text : Json → Option String
  | .null => none
  | .str text => some text
  | other => some other.render

/-- The text of a value that is true, or the empty text. -/
def textOr (value : Json) : String :=
  if value.truthy then value.text.getD "" else ""

@[simp] theorem textOr_str (text : String) : (Json.str text).textOr = text := by
  by_cases hnil : text = "" <;> simp [textOr, truthy, Json.text, hnil]

end Json

end Ummanu.Library
