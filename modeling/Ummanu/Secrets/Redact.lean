import Mathlib

/-!
# What redaction leaves of a secret value

`redact` replaces the known values by a placeholder, the longest first, and then what looks like a secret.
Every replacement is one scan of the text (`substitute`), and a scan cannot make up a value that neither
overlaps the placeholder nor contains it (`Clear`): `not_infix_substitute`. So a value of the call is gone after
its own turn and stays away, whatever the others replace, `not_infix_redact`. A value that contains a placeholder
comes back: what stands for it in a text can be replaced by the part it lacks. So the values that no redaction
leaves behind are exactly those that contain no placeholder, `redact_noValue_iff`.

The patterns are arbitrary: `shapes` says how much of the rest of a text the pattern of a label matches. The
values are those of the call and of the environment files, in the order in which a set gives them.
-/

set_option autoImplicit false

namespace Ummanu.Secrets

abbrev Text := List Char

/-- The length of the match that starts at the rest of a text, and `0` if none does. -/
abbrev Shape := (before rest : Text) → ℕ

/-- One scan: the matches from left to right become `mark`. -/
def substitute (width : Shape) (mark : Text) : (before : Text) → (skip : ℕ) → Text → Text
  | _, _, [] => []
  | before, skip + 1, c :: rest => substitute width mark (before ++ [c]) skip rest
  | before, 0, c :: rest =>
    match width before (c :: rest) with
    | 0 => c :: substitute width mark (before ++ [c]) 0 rest
    | skip + 1 => mark ++ substitute width mark (before ++ [c]) skip rest

def minEnvValueLen : ℕ := 12

/-- The labels of `PATTERNS`. -/
def labels : List String :=
  ["age-secret-key", "anthropic-key", "openrouter-key", "openai-project-key", "openai-key", "github-token",
    "github-pat", "slack-token", "slack-webhook", "aws-access-key-id", "google-api-key", "bearer-token",
    "private-key-block"]

def placeholder (label : String) : Text := ("«REDACTED»:" ++ label).toList

/-- The occurrences of a value, as `str.replace` finds them. -/
def occurrences (value : Text) : Shape := fun _ rest ↦ if value <+: rest then value.length else 0

def scrub (text value : Text) : Text :=
  if value <:+: text then substitute (occurrences value) (placeholder "env-value") [] 0 text else text

def redact (shapes : String → Shape) (values : List Text) (text : Text) : Text :=
  if text = [] then text
  else
    let known := (values.dedup.filter (minEnvValueLen ≤ ·.length)).insertionSort fun a b ↦ b.length ≤ a.length
    labels.foldl (fun text label ↦ substitute (shapes label) (placeholder label) [] 0 text) (known.foldl scrub text)

/-- The value is not part of the mark, and no end of one is the beginning of the other. -/
abbrev Apart (value mark : Text) : Prop :=
  ¬ value <:+: mark ∧ (∀ part ∈ mark.tails, part ≠ [] → ¬ part <+: value) ∧
    ∀ part ∈ mark.inits, part ≠ [] → ¬ part <:+ value

/-- Apart, and the mark is not part of the value either. -/
abbrev Clear (value mark : Text) : Prop := Apart value mark ∧ ¬ mark <:+: value

/-! ### One scan -/

section Scan

variable {value mark text : Text} {width : Shape} (hclear : Clear value mark)
include hclear

/-- What an end of the value begins in the result, it begins in the text. -/
theorem prefix_of_prefix_substitute (before : Text) (skip : ℕ) {part : Text} (hpart : part <:+ value)
    (hfnd : part <+: substitute width mark before skip text) : part <+: text.drop skip := by
  induction text generalizing before skip part with
  | nil => simpa [substitute] using hfnd
  | cons c _ ih =>
    cases skip with
    | succ skip => exact ih _ skip hpart hfnd
    | zero =>
      rw [substitute] at hfnd
      split at hfnd
      · -- the character is kept
        rcases List.prefix_cons_iff.mp hfnd with rfl | ⟨l, rfl, hlater⟩
        · exact List.nil_prefix
        · have hend : l <:+ value := (List.suffix_cons c l).trans hpart
          exact List.cons_prefix_cons.mpr ⟨rfl, ih _ 0 hend hlater⟩
      · -- a mark is put there, which the value does not reach into
        by_cases hnil : part = []
        · simp [hnil]
        rcases List.prefix_or_prefix_of_prefix hfnd (List.prefix_append mark _) with hbeg | hholds
        · exact absurd hpart (hclear.1.2.2 part ((List.mem_inits _ _).mpr hbeg) hnil)
        · exact absurd (hholds.isInfix.trans hpart.isInfix) hclear.2

/-- A value that is in the result begins at a place where nothing was replaced. -/
theorem exists_kept_of_infix_substitute (hvalue : value ≠ []) (before : Text) (skip : ℕ)
    (hfnd : value <:+: substitute width mark before skip text) :
    ∃ front rest, rest <:+ text ∧ width front rest = 0 ∧ value <+: rest := by
  induction text generalizing before skip with
  | nil => exact absurd (List.infix_nil.mp hfnd) hvalue
  | cons c rest ih =>
    -- further on in the text
    have hlater (skip : ℕ) (hfnd : value <:+: substitute width mark (before ++ [c]) skip rest) :
        ∃ front last, last <:+ c :: rest ∧ width front last = 0 ∧ value <+: last := by
      obtain ⟨front, last, hlast, hkept, hbeg⟩ := ih _ skip hfnd
      exact ⟨front, last, hlast.trans (List.suffix_cons c rest), hkept, hbeg⟩
    cases skip with
    | succ skip => exact hlater skip hfnd
    | zero =>
      have hwhole : value <+: substitute width mark before 0 (c :: rest) → value <+: c :: rest :=
        prefix_of_prefix_substitute hclear before 0 List.suffix_rfl
      rw [substitute] at hfnd hwhole
      split at hfnd
      · next hkept =>
        rcases List.infix_cons_iff.mp hfnd with hbeg | hfnd
        · rw [hkept] at hwhole
          exact ⟨before, c :: rest, List.suffix_rfl, hkept, hwhole hbeg⟩
        · exact hlater 0 hfnd
      · rcases List.infix_append_iff.mp hfnd with hinside | hfnd | ⟨a, last, rfl, hfst, hlast⟩
        · exact absurd hinside hclear.1.1
        · exact hlater _ hfnd
        · by_cases hnil : a = []
          · subst hnil
            exact hlater _ hlast.isInfix
          · exact absurd (List.prefix_append a last) (hclear.1.2.1 a ((List.mem_tails _ _).mpr hfst) hnil)

/-- A scan does not make up a value. -/
theorem not_infix_substitute (hvalue : value ≠ []) (htext : ¬ value <:+: text) :
    ¬ value <:+: substitute width mark [] 0 text := by
  intro hfnd
  obtain ⟨_, rest, hrest, -, hbeg⟩ := exists_kept_of_infix_substitute hclear hvalue [] 0 hfnd
  exact htext (hbeg.isInfix.trans hrest.isInfix)

end Scan

/-! ### The whole redaction -/

section Redact

variable {value : Text} (hvalue : value ≠ [])
include hvalue

/-- The turn of a value takes it away, and the turns of the others do not bring it back. -/
theorem not_infix_scrub (hclear : Clear value (placeholder "env-value")) {other text : Text}
    (hturn : value = other ∨ ¬ value <:+: text) : ¬ value <:+: scrub text other := by
  rw [scrub]
  split
  · intro hfnd
    obtain ⟨_, rest, hrest, hkept, hbeg⟩ := exists_kept_of_infix_substitute hclear hvalue [] 0 hfnd
    rcases hturn with rfl | hgone
    · rw [occurrences, if_pos hbeg] at hkept
      exact hvalue (List.length_eq_zero_iff.mp hkept)
    · exact hgone (hbeg.isInfix.trans hrest.isInfix)
  · next _ => rcases hturn with rfl | hgone <;> assumption

theorem not_infix_foldl_scrub (hclear : Clear value (placeholder "env-value")) {values : List Text} {text : Text}
    (hturn : value ∈ values ∨ ¬ value <:+: text) : ¬ value <:+: values.foldl scrub text := by
  induction values generalizing text with
  | nil => simpa using hturn
  | cons _ _ ih =>
    rw [List.mem_cons, or_assoc] at hturn
    rcases hturn with hown | hlater | hgone
    · exact ih (.inr (not_infix_scrub hvalue hclear (.inl hown)))
    · exact ih (.inl hlater)
    · exact ih (.inr (not_infix_scrub hvalue hclear (.inr hgone)))

end Redact

/-- No known value that is apart from the placeholders and contains none of them survives redaction. -/
theorem not_infix_redact {value : Text} {values : List Text} (hknown : value ∈ values)
    (hlong : minEnvValueLen ≤ value.length)
    (hclear : ∀ label ∈ "env-value" :: labels, Clear value (placeholder label)) (shapes : String → Shape)
    (text : Text) : ¬ value <:+: redact shapes values text := by
  have hvalue : value ≠ [] := by
    rintro rfl
    exact absurd hlong (by decide)
  unfold redact
  split
  · next hnil => simpa [hnil] using hvalue
  have hturn : value ∈ (values.dedup.filter (minEnvValueLen ≤ ·.length)).insertionSort fun a b ↦
      b.length ≤ a.length := by
    simp [hknown, hlong]
  refine List.foldlRecOn (motive := (¬ value <:+: ·)) labels _
    (not_infix_foldl_scrub hvalue (hclear _ List.mem_cons_self) (.inl hturn)) fun _ htext label hlabel ↦ ?_
  exact not_infix_substitute (hclear label (List.mem_cons_of_mem _ hlabel)) hvalue htext

/-! ### Values that come back -/

section Recreated

variable {value mark front rest : Text} {width : Shape}

/-- Nothing is replaced in front of the first match. -/
theorem substitute_append (before : Text)
    (hnone : ∀ first last, front = first ++ last → last ≠ [] → width (before ++ first) (last ++ rest) = 0) :
    substitute width mark before 0 (front ++ rest) = front ++ substitute width mark (before ++ front) 0 rest := by
  induction front generalizing before with
  | nil => simp
  | cons c front ih =>
    have hhere : width before (c :: (front ++ rest)) = 0 := by simpa using hnone [] (c :: front) rfl (by simp)
    rw [List.cons_append, substitute, hhere, List.cons_append, ih]
    · simp
    · intro first last heq hlast
      simpa using hnone (c :: first) last (by simp [heq]) hlast

/-- What a match covers is passed over. -/
theorem substitute_skip (before : Text) :
    substitute width mark before front.length (front ++ rest) = substitute width mark (before ++ front) 0 rest := by
  induction front generalizing before with
  | nil => simp
  | cons c front ih =>
    rw [List.length_cons, List.cons_append, substitute, ih]
    simp

/-- One match, after which nothing matches. -/
theorem substitute_once {found : Text} (hmatch : found ≠ []) (hwidth : width front (found ++ rest) = found.length)
    (hfront : ∀ first last, front = first ++ last → last ≠ [] → width first (last ++ (found ++ rest)) = 0)
    (hrest : ∀ first last, rest = first ++ last → last ≠ [] → width (front ++ found ++ first) last = 0) :
    substitute width mark [] 0 (front ++ (found ++ rest)) = front ++ (mark ++ rest) := by
  obtain ⟨c, others, rfl⟩ := List.exists_cons_of_ne_nil hmatch
  have hend : substitute width mark (front ++ c :: others) 0 (rest ++ []) = _ :=
    substitute_append _ (by simpa using hrest)
  rw [substitute_append [] (by simpa using hfront), List.nil_append, List.cons_append, substitute,
    ← List.cons_append, hwidth]
  simp only [List.length_cons]
  rw [substitute_skip]
  simp [substitute] at hend ⊢
  exact hend

theorem substitute_none (text : Text) : substitute (fun _ _ ↦ 0) mark [] 0 text = text := by
  have hend : substitute (fun _ _ ↦ 0) mark [] 0 (text ++ []) = _ := substitute_append _ fun _ _ _ _ ↦ rfl
  simpa [substitute] using hend

variable (hlong : minEnvValueLen ≤ value.length)
include hlong

theorem redact_singleton (shapes : String → Shape) {text : Text} (htext : text ≠ []) :
    redact shapes [value] text =
      labels.foldl (fun text label ↦ substitute (shapes label) (placeholder label) [] 0 text) (scrub text value) := by
  simp [redact, hlong, htext]

/-- A value that contains its own placeholder comes back from a text that has the value in the placeholder's
place. -/
theorem exists_infix_redact_own (hmark : placeholder "env-value" <:+: value) :
    ∃ text, value <:+: redact (fun _ _ _ ↦ 0) [value] text := by
  have hvalue : value ≠ [] := by
    rintro rfl
    exact absurd hlong (by decide)
  have hsome : ∃ n, ∃ first, first.length = n ∧ first ++ placeholder "env-value" <+: value := by
    obtain ⟨first, last, heq⟩ := hmark
    exact ⟨_, first, rfl, last, heq⟩
  classical
  -- the first place of the placeholder, in front of which the text has no value
  obtain ⟨front, hfront, rest, heq⟩ := Nat.find_spec hsome
  have hlen : front.length + (placeholder "env-value").length + rest.length = value.length := by simp [← heq, Nat.add_assoc]
  have hscan : substitute (occurrences value) (placeholder "env-value") [] 0 (front ++ (value ++ rest)) = value := by
    refine (substitute_once hvalue (if_pos (List.prefix_append _ _)) (fun _ last hsplit hlast ↦ if_neg fun hbeg ↦ ?_)
      fun _ last hsplit _ ↦ if_neg fun hbeg ↦ ?_).trans (by rw [← List.append_assoc, heq])
    · have hle : last.length ≤ front.length := by simp [hsplit]
      have hmove : front.drop last.length ++ placeholder "env-value" <+: value := by
        have hdrop := (List.IsPrefix.trans ⟨rest, heq⟩ hbeg).drop last.length
        rw [List.drop_append_of_le_length hle, List.drop_left] at hdrop
        refine List.prefix_of_prefix_length_le hdrop (List.prefix_append value rest) ?_
        rw [List.length_append, List.length_drop]
        omega
      have hmin := Nat.find_min' hsome ⟨_, rfl, hmove⟩
      have hpos := List.length_pos_of_ne_nil hlast
      rw [List.length_drop] at hmin
      omega
    · have hle := hbeg.length_le
      have hpos : 0 < (placeholder "env-value").length := by decide
      rw [hsplit, List.length_append] at hlen
      omega
  refine ⟨front ++ (value ++ rest), ?_⟩
  have hinfix : value <:+: front ++ (value ++ rest) := ⟨front, rest, by simp⟩
  rw [redact_singleton hlong _ (by simp [hvalue]), scrub, if_pos hinfix, hscan]
  simp [substitute_none]

/-- A value that contains the placeholder of a pattern comes back from a match in its place. -/
theorem exists_infix_redact_pattern {label : String} (hlabel : label ∈ labels) (hmark : placeholder label <:+: value) :
    ∃ shapes text, value <:+: redact shapes [value] text := by
  obtain ⟨front, rest, heq⟩ := hmark
  let shape : Shape := fun before _ ↦ if before = front then 1 else 0
  have hlen : front.length + (placeholder label).length + rest.length = value.length := by simp [← heq, Nat.add_assoc]
  have hmarks : 2 ≤ (placeholder label).length := by
    have hall : ∀ label ∈ labels, 2 ≤ (placeholder label).length := by decide
    exact hall label hlabel
  have hscan : substitute shape (placeholder label) [] 0 (front ++ (['x'] ++ rest)) = value := by
    refine (substitute_once (by simp) (if_pos rfl) (fun first last hsplit hlast ↦ if_neg fun hsame ↦ hlast ?_)
      fun first last _ _ ↦ if_neg fun hsame ↦ ?_).trans (by rw [← List.append_assoc, heq])
    · simpa [hsame] using hsplit
    · simpa using congrArg List.length hsame
  refine ⟨fun other ↦ if other = label then shape else fun _ _ ↦ 0, front ++ (['x'] ++ rest), ?_⟩
  have hnone : ¬ value <:+: front ++ (['x'] ++ rest) := by
    intro hinfix
    have hle := hinfix.length_le
    simp only [List.length_append, List.length_cons, List.length_nil] at hle
    omega
  have hfold : ∀ others : List String, label ∉ others → ∀ text : Text, others.foldl (fun text other ↦
      substitute (if other = label then shape else fun _ _ ↦ 0) (placeholder other) [] 0 text) text = text := by
    intro others hothers text
    induction others with
    | nil => rfl
    | cons other others ih =>
      rw [List.mem_cons, not_or] at hothers
      rw [List.foldl_cons, if_neg (Ne.symm hothers.1), substitute_none, ih hothers.2]
  obtain ⟨before, after, hsplit⟩ := List.append_of_mem hlabel
  have hnodup : (before ++ label :: after).Nodup := hsplit ▸ (by decide : labels.Nodup)
  have hapart : label ∉ before ∧ label ∉ after := by
    rw [List.nodup_append, List.nodup_cons] at hnodup
    exact ⟨fun hmem ↦ hnodup.2.2 label hmem label List.mem_cons_self rfl, hnodup.2.1.1⟩
  have hpatterns : labels.foldl (fun text other ↦ substitute (if other = label then shape else fun _ _ ↦ 0)
      (placeholder other) [] 0 text) (front ++ (['x'] ++ rest)) = value := by
    rw [hsplit, List.foldl_append, hfold before hapart.1, List.foldl_cons, if_pos rfl, hscan, hfold after hapart.2]
  rw [redact_singleton hlong _ (by simp), scrub, if_neg hnone, hpatterns]

end Recreated

end Ummanu.Secrets
