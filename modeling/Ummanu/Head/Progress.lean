import Mathlib

/-!
# Which screens of a turn are progress

While a turn is open the supervisor looks at the head's screen from time to time and writes
`provider.progressed` if it shows something new. A redraw is not new: lines are compared after `_progress_lines`
took their spinners and digits out, against a bounded history of the lines of the turn and against the lines of
the screen before. The module embeds `_progress_lines` and the comparison of `_flush_progress`, and judges the
screens of one turn.

A line is kept in the history as its digest. The digest is any injective function, and digests are numbers, in the
order the source sorts them in. What the Python classes of characters hold is a parameter. The record that is
written and its counters are not modelled here.
-/

set_option autoImplicit false

namespace Ummanu.Head

def progressSeenLinesMax : ℕ := 4096

/-! ### Normalised lines -/

/-- The classes `\w` and `\d` of a regular expression, and the characters `str.split` splits at. -/
structure CharClasses where
  word : Char → Bool
  digit : Char → Bool
  space : Char → Bool

/-- The characters of `_SPINNER` that are removed wherever they stand. -/
def isSpinner (c : Char) : Bool :=
  (0x2700 ≤ c.toNat && c.toNat ≤ 0x27bf) || (0x2800 ≤ c.toNat && c.toNat ≤ 0x28ff) ||
    (0x25a0 ≤ c.toNat && c.toNat ≤ 0x25ff) || c.toNat = 0x2022 || c.toNat = 0xb7

section
variable (classes : CharClasses)

/-- `_SPINNER.sub("", raw)`, where `before` is the character in front. -/
def dropSpinners (before : Option Char) : List Char → List Char
  | [] => []
  | c :: rest =>
    let bare := c = '*' ∧ ¬ before.any classes.word ∧ ¬ rest.head?.any classes.word
    if isSpinner c ∨ bare then dropSpinners (some c) rest else c :: dropSpinners (some c) rest

/-- `_DIGITS.sub("#", text)`, where `inside` says that the character in front is a digit. -/
def foldDigits (inside : Bool) : List Char → List Char
  | [] => []
  | c :: rest =>
    if classes.digit c then (if inside then [] else ['#']) ++ foldDigits true rest else c :: foldDigits false rest

/-- `" ".join(text.split())`. -/
def joinWords (text : List Char) : List Char :=
  List.intercalate [' '] ((text.splitOnP classes.space).filter (· ≠ []))

def progressLine (raw : List Char) : List Char :=
  joinWords classes (foldDigits classes false (dropSpinners classes none raw))

/-- `ScreenModel.lines()`. -/
abbrev ScreenLines := List (List Char)

/-- `_progress_lines` of the lines of a screen. -/
def progressLines (screen : ScreenLines) : Finset (List Char) :=
  ((screen.map (progressLine classes)).filter (· ≠ [])).toFinset

end

/-! ### The history of a turn -/

/-- `_progress_seen`, oldest first, and `_progress_visible`. A turn starts with both empty. -/
structure ProgressHistory where
  seen : List ℕ := []
  visible : Finset ℕ := ∅

/-- A digest is added to those seen; a full history forgets its oldest one. -/
def remember (seen : List ℕ) (digest : ℕ) : List ℕ :=
  if digest ∈ seen then seen
  else (if progressSeenLinesMax ≤ seen.length then seen.tail else seen) ++ [digest]

/-- The screen shows a digest that is neither in the history nor on the screen before. -/
def ProgressHistory.isNew (history : ProgressHistory) (visible : Finset ℕ) : Prop :=
  ∃ digest ∈ visible, digest ∉ history.seen ∧ digest ∉ history.visible

instance (history : ProgressHistory) (visible : Finset ℕ) : Decidable (history.isNew visible) :=
  inferInstanceAs (Decidable (∃ digest ∈ visible, digest ∉ history.seen ∧ digest ∉ history.visible))

def ProgressHistory.show (history : ProgressHistory) (visible : Finset ℕ) : ProgressHistory :=
  ⟨(visible.sort (· ≤ ·)).foldl remember history.seen, visible⟩

section
variable (classes : CharClasses) (digest : List Char → ℕ)

/-- The digests of a screen's lines. -/
def shownDigests (screen : ScreenLines) : Finset ℕ := (progressLines classes screen).image digest

/-- The history after the screens of a turn were flushed. -/
def flushed (screens : List ScreenLines) : ProgressHistory :=
  screens.foldl (fun history screen ↦ history.show (shownDigests classes digest screen)) {}

variable (earlier : List ScreenLines) (screen : ScreenLines)

/-- `provider.progressed` is written when the screen is flushed after the earlier ones. -/
def progressed : Prop :=
  (flushed classes digest earlier).isNew (shownDigests classes digest screen)

instance : Decidable (progressed classes digest earlier screen) :=
  inferInstanceAs (Decidable (ProgressHistory.isNew _ _))

/-- The records written for the screens that follow the earlier ones. -/
def progressRecords (earlier : List ScreenLines) : List ScreenLines → ℕ
  | [] => 0
  | screen :: rest =>
    (if progressed classes digest earlier screen then 1 else 0) + progressRecords (earlier ++ [screen]) rest

/-- The normalised lines shown by any of the screens. -/
def shownLines (screens : List ScreenLines) : Finset (List Char) :=
  screens.toFinset.biUnion (progressLines classes)

end

/-! ### What a flush does to the history -/

theorem length_remember_le (seen : List ℕ) (digest : ℕ) (hseen : seen.length ≤ progressSeenLinesMax) :
    (remember seen digest).length ≤ progressSeenLinesMax := by
  have hmax : 0 < progressSeenLinesMax := by decide
  unfold remember
  split
  · exact hseen
  · split <;> simp <;> omega

/-- While the history has room it takes in every digest and forgets none. -/
theorem foldl_remember_of_room (digests seen : List ℕ) (hnodup : seen.Nodup)
    (hroom : (seen.toFinset ∪ digests.toFinset).card ≤ progressSeenLinesMax) :
    (digests.foldl remember seen).Nodup ∧
      (digests.foldl remember seen).toFinset = seen.toFinset ∪ digests.toFinset := by
  induction digests generalizing seen with
  | nil => simpa using hnodup
  | cons digest rest ih =>
    have hunion : seen.toFinset ∪ (digest :: rest).toFinset = insert digest seen.toFinset ∪ rest.toFinset := by
      ext
      simp
    rw [hunion] at hroom ⊢
    have hstep : (remember seen digest).Nodup ∧ (remember seen digest).toFinset = insert digest seen.toFinset := by
      unfold remember
      split
      case isTrue hmem => exact ⟨hnodup, (Finset.insert_eq_self.mpr (by simpa using hmem)).symm⟩
      case isFalse hmem =>
        have hcard : seen.length + 1 ≤ progressSeenLinesMax := by
          calc seen.length + 1 = (insert digest seen.toFinset).card := by
                rw [Finset.card_insert_of_notMem (by simpa using hmem), List.toFinset_card_of_nodup hnodup]
            _ ≤ _ := (Finset.card_le_card Finset.subset_union_left).trans hroom
        rw [if_neg (by omega)]
        refine ⟨List.nodup_append.mpr ⟨hnodup, List.nodup_singleton _, ?_⟩, by ext; simp⟩
        rintro a ha b hb rfl
        exact hmem (List.mem_singleton.mp hb ▸ ha)
    rw [List.foldl_cons, ← hstep.2]
    exact ih _ hstep.1 (hstep.2 ▸ hroom)

section
variable {classes : CharClasses} {digest : List Char → ℕ} (earlier : List ScreenLines) (screen : ScreenLines)

theorem flushed_concat :
    flushed classes digest (earlier ++ [screen]) =
      (flushed classes digest earlier).show (shownDigests classes digest screen) := by
  simp [flushed]

theorem shownLines_concat :
    shownLines classes (earlier ++ [screen]) = shownLines classes earlier ∪ progressLines classes screen := by
  ext
  simp [shownLines, or_comm]

/-- While the lines shown fit the history, it is what was shown. -/
theorem flushed_of_room (screens : List ScreenLines)
    (hroom : (shownLines classes screens).card ≤ progressSeenLinesMax) :
    (flushed classes digest screens).seen.Nodup ∧
      (flushed classes digest screens).seen.toFinset = (shownLines classes screens).image digest ∧
      (flushed classes digest screens).visible ⊆ (shownLines classes screens).image digest := by
  induction screens using List.reverseRecOn with
  | nil => simp [flushed, shownLines]
  | append_singleton earlier screen ih =>
    rw [flushed_concat]
    rw [shownLines_concat] at hroom ⊢
    obtain ⟨hnodup, hseen, -⟩ := ih ((Finset.card_le_card Finset.subset_union_left).trans hroom)
    have hunion : (flushed classes digest earlier).seen.toFinset ∪
        ((shownDigests classes digest screen).sort (· ≤ ·)).toFinset =
          (shownLines classes earlier ∪ progressLines classes screen).image digest := by
      rw [hseen, Finset.sort_toFinset, Finset.image_union]
      rfl
    obtain ⟨hnodup', hseen'⟩ := foldl_remember_of_room _ _ hnodup (hunion ▸ Finset.card_image_le.trans hroom)
    refine ⟨hnodup', hseen'.trans hunion, ?_⟩
    rw [Finset.image_union]
    exact Finset.subset_union_right

theorem visible_flushed :
    (flushed classes digest earlier).visible = (earlier.getLast?.map (shownDigests classes digest)).getD ∅ := by
  induction earlier using List.reverseRecOn with
  | nil => rfl
  | append_singleton earlier _ _ => simp [flushed_concat, ProgressHistory.show]

variable (hinj : Function.Injective digest)
include hinj

theorem mem_shownDigests {screen : ScreenLines} {line : List Char} :
    digest line ∈ shownDigests classes digest screen ↔ line ∈ progressLines classes screen :=
  hinj.mem_finset_image

/-- With room in the history, progress is a line the turn has not shown. -/
theorem progressed_iff_of_room (hroom : (shownLines classes (earlier ++ [screen])).card ≤ progressSeenLinesMax) :
    progressed classes digest earlier screen ↔
      ∃ line ∈ progressLines classes screen, line ∉ shownLines classes earlier := by
  rw [shownLines_concat] at hroom
  obtain ⟨-, hseen, hvis⟩ := @flushed_of_room classes digest earlier
    ((Finset.card_le_card Finset.subset_union_left).trans hroom)
  have hmem (line : List Char) :
      digest line ∈ (flushed classes digest earlier).seen ↔ line ∈ shownLines classes earlier := by
    rw [← List.mem_toFinset, hseen, hinj.mem_finset_image]
  constructor
  · rintro ⟨_, hshown, hnew, -⟩
    obtain ⟨line, hline, rfl⟩ := Finset.mem_image.mp hshown
    exact ⟨line, hline, fun hold ↦ hnew ((hmem line).mpr hold)⟩
  · rintro ⟨line, hline, hnew⟩
    refine ⟨digest line, (mem_shownDigests hinj).mpr hline, fun hold ↦ hnew ((hmem line).mp hold), fun hold ↦ hnew ?_⟩
    exact hinj.mem_finset_image.mp (hvis hold)

/-- A line that is new to the turn leaves fewer lines to be new. -/
theorem progressRecords_le (lines : Finset (List Char)) (hfew : lines.card ≤ progressSeenLinesMax)
    (screens : List ScreenLines) (hearl : shownLines classes earlier ⊆ lines)
    (hscr : ∀ screen ∈ screens, progressLines classes screen ⊆ lines) :
    progressRecords classes digest earlier screens ≤ (lines \ shownLines classes earlier).card := by
  induction screens generalizing earlier with
  | nil => exact Nat.zero_le _
  | cons screen _ ih =>
    obtain ⟨hscreen, hrest⟩ := List.forall_mem_cons.mp hscr
    have hshown : shownLines classes (earlier ++ [screen]) ⊆ lines := by
      rw [shownLines_concat]
      exact Finset.union_subset hearl hscreen
    have hsub : lines \ shownLines classes (earlier ++ [screen]) ⊆ lines \ shownLines classes earlier := by
      rw [shownLines_concat]
      exact Finset.sdiff_subset_sdiff subset_rfl Finset.subset_union_left
    have hlater := ih _ hshown hrest
    rw [progressRecords]
    split
    case isTrue hnew =>
      obtain ⟨line, hline, huns⟩ := (progressed_iff_of_room earlier screen hinj
        ((Finset.card_le_card hshown).trans hfew)).mp hnew
      have hfewer := Finset.card_lt_card (hsub.ssubset_of_mem_notMem
        (Finset.mem_sdiff.mpr ⟨hscreen hline, huns⟩) (by simp [shownLines_concat, hline]))
      omega
    case isFalse =>
      exact (Nat.zero_add _).trans_le (hlater.trans (Finset.card_le_card hsub))

/-- Redraws are not progress: a record needs a line the screen before did not show; while the history has room
it needs, and follows from, a line the turn did not show; the history is bounded; and screens made of few
lines, however many, are written down at most once for a line. -/
theorem flushProgress_redraws :
    (∀ earlier screen, progressed classes digest earlier screen →
      ∃ line ∈ progressLines classes screen, ∀ before ∈ earlier.getLast?, line ∉ progressLines classes before) ∧
    (∀ earlier screen, (shownLines classes (earlier ++ [screen])).card ≤ progressSeenLinesMax →
      (progressed classes digest earlier screen ↔
        ∃ line ∈ progressLines classes screen, line ∉ shownLines classes earlier)) ∧
    (∀ screens, (flushed classes digest screens).seen.length ≤ progressSeenLinesMax) ∧
    ∀ lines : Finset (List Char), lines.card ≤ progressSeenLinesMax →
      ∀ screens : List ScreenLines, (∀ screen ∈ screens, progressLines classes screen ⊆ lines) →
        progressRecords classes digest [] screens ≤ lines.card := by
  refine ⟨fun earlier screen hnew ↦ ?_, (progressed_iff_of_room · · hinj), fun screens ↦ ?_,
    fun lines hfew screens hscr ↦ ?_⟩
  · obtain ⟨_, hshown, -, hnew⟩ := hnew
    obtain ⟨line, hline, rfl⟩ := Finset.mem_image.mp hshown
    refine ⟨line, hline, fun _ hbefore hold ↦ hnew ?_⟩
    rw [visible_flushed, Option.mem_def.mp hbefore]
    exact (mem_shownDigests hinj).mpr hold
  · induction screens using List.reverseRecOn with
    | nil => exact Nat.zero_le _
    | append_singleton earlier screen ih =>
      rw [flushed_concat]
      exact List.foldlRecOn _ remember ih fun seen hseen digest _ ↦ length_remember_le seen digest hseen
  · have hrecs := progressRecords_le [] hinj lines hfew screens (by simp [shownLines]) hscr
    exact hrecs.trans (Finset.card_le_card Finset.sdiff_subset)

end

/-- Two lines, the second a redraw of the first, and a third. -/
theorem flushProgress_redraws_witness :
    let classes : CharClasses := ⟨Char.isAlphanum, Char.isDigit, Char.isWhitespace⟩
    let digest := fun line : List Char ↦ Encodable.encode (line.map Char.toNat)
    progressLines classes ["✻ Thinking 12s".toList] = progressLines classes ["· Thinking  7s".toList] ∧
      progressed classes digest [["✻ Thinking 12s".toList]] ["· Thinking  7s".toList, "done".toList] ∧
      ¬ progressed classes digest [["✻ Thinking 12s".toList]] ["· Thinking  7s".toList] := by
  intro classes digest
  have hinj : Function.Injective digest :=
    Encodable.encode_injective.comp (List.map_injective_iff.mpr fun _ _ heq ↦ Char.toNat_inj.mp heq)
  obtain ⟨-, hlaw, -⟩ := @flushProgress_redraws classes digest hinj
  refine ⟨by decide +kernel, (hlaw _ _ ?_).mpr ?_, mt (hlaw _ _ ?_).mp ?_⟩ <;> decide +kernel

end Ummanu.Head
