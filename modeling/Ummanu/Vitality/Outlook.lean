import Ummanu.Vitality.FrozenTime

/-!
# The deadline an operator is shown

`recoveryOutlook` reads off one stored episode what is dark, for how long, and when the next rung of the stall
ladder is due. The reducer is the judge of that: the same readings, taken again, climb the rung at an instant that
depends on the arm that decides (`climbsAt`, `reduceVitality_again`). The outlook knows the stored fields and not
the arm that wrote them. A dark progress source freezes the ladder only where nothing else speaks about progress,
while the outlook counts its freeze wherever the source is dark. `recoveryOutlook_nextDeadline_iff` says when the
two agree.

Scope. Readings that are taken again say the same on every axis and differ in their stamps. The words of the
outlook for an episode that is no episode are left out.
-/

set_option autoImplicit false

namespace Ummanu.Vitality

open Library

variable {owned : Readings} {draft episode : VitalityEpisode}

/-! ### The outlook -/

/-- A dark progress source. -/
structure DarkSource where
  source : SnapshotSource
  darkSince : ℕ
  darkSeconds : ℕ
  freezeExpiresAt : ℕ

/-- `next_deadline`: what the verdict becomes, and when. -/
structure Deadline where
  verdict : VitalityVerdict
  dueAt : ℕ
  inSeconds : ℕ
deriving DecidableEq

structure RecoveryOutlook where
  quietSeconds : ℕ
  darkSources : List DarkSource
  nextDeadline : Option Deadline
  note : String

section Outlook

variable (thresholds : VitalityThresholds) (episode : VitalityEpisode)

def darkSources (now : ℕ) : List DarkSource :=
  ((episode.unavailableSince progressSource).map fun since ↦
    { source := progressSource, darkSince := since, darkSeconds := now - since
      freezeExpiresAt := since + thresholds.darkCeiling : DarkSource }).toList

/-- When the last freeze by a dark progress source expires. -/
def frozenUntil : ℕ := ((episode.unavailableSince progressSource).map (· + thresholds.darkCeiling)).getD 0

/-- What the verdict becomes next, and when. -/
def nextRung : Option (VitalityVerdict × ℕ) :=
  match episode.verdict with
  | .healthyQuiet => some (.suspectedStall,
      if episode.idleTurnSince ≠ 0 then episode.idleTurnSince + thresholds.idleTurnSuspectAfter
      else max (quietReference episode + thresholds.suspectAfter) (frozenUntil thresholds episode))
  | .suspectedStall => some (.confirmedStall,
      if episode.idleTurnSince ≠ 0 then episode.idleTurnSince + thresholds.idleTurnConfirmAfter
      else max (quietReference episode + thresholds.confirmQuiet) (frozenUntil thresholds episode))
  | _ => none

/-- The words for an episode with no rung ahead. -/
def outlookNote : VitalityVerdict → String
  | .confirmedStall => "the stall is confirmed; the recovery path owns this head, not another threshold"
  | .suspended | .retained => "the stall clocks are frozen while the process is parked on a stop signal"
  | _ => ""

def recoveryOutlook (now : ℕ) : RecoveryOutlook where
  quietSeconds := now - quietReference episode
  darkSources := darkSources thresholds episode now
  nextDeadline := (nextRung thresholds episode).map fun (verdict, dueAt) ↦ ⟨verdict, dueAt, dueAt - now⟩
  note := outlookNote episode.verdict

end Outlook

/-! ### Readings taken again -/

section

variable (now : ℕ) (snapshot : VitalitySnapshot)

/-- The reading at another instant. -/
def VitalitySnapshot.restamp : VitalitySnapshot :=
  { snapshot with observedAt := now }

@[simp] theorem restamp_turn : (snapshot.restamp now).turn = snapshot.turn := rfl

@[simp] theorem restamp_answered : (snapshot.restamp now).answered = snapshot.answered := rfl

@[simp] theorem restamp_progress : (snapshot.restamp now).progress = snapshot.progress := rfl

@[simp] theorem restamp_observedAt : (snapshot.restamp now).observedAt = now := rfl

/-- The same readings at another instant, in any order. -/
def Readings.Again (owned later : Readings) : Prop :=
  later.entries.Perm (owned.entries.map (·.restamp now))

end

instance (now : ℕ) (owned later : Readings) : Decidable (Readings.Again now owned later) :=
  inferInstanceAs (Decidable (later.entries.Perm (owned.entries.map (·.restamp now))))

section Again

variable {now : ℕ} {later : Readings} (hagain : Readings.Again now owned later)

include hagain

theorem Readings.Again.get_eq (source : SnapshotSource) :
    later.get source = (owned.get source).map (·.restamp now) := by
  ext snapshot
  rw [Readings.get_eq_some_iff, hagain.mem_iff, List.mem_map]
  constructor
  · rintro ⟨⟨rd, hmem, rfl⟩, hsrc⟩
    exact Option.mem_map.mpr ⟨rd, Readings.get_eq_some_iff.mpr ⟨hmem, hsrc⟩, rfl⟩
  · intro hmap
    obtain ⟨rd, hget, rfl⟩ := Option.mem_map.mp hmap
    obtain ⟨hmem, hsrc⟩ := Readings.mem_of_get hget
    exact ⟨⟨rd, hmem, rfl⟩, hsrc⟩

theorem strongReadings_again : (strongReadings later).Perm ((strongReadings owned).map (·.restamp now)) := by
  have hfilt := List.Perm.filter (·.strong) hagain
  rwa [List.filter_map] at hfilt

theorem progressEvidence_again : (progressEvidence later).Perm ((progressEvidence owned).map (·.restamp now)) := by
  have hfilt := (strongReadings_again hagain).filter (·.speaksOfProgress)
  rwa [List.filter_map] at hfilt

theorem showsDead_again : showsDead later = showsDead owned := by
  rw [showsDead, (strongReadings_again hagain).any_eq, List.any_map]
  rfl

theorem showsSuspended_again : showsSuspended later = showsSuspended owned := by
  rw [showsSuspended, (strongReadings_again hagain).any_eq, List.any_map]
  rfl

theorem latestAdvancing_again (hadv : latestAdvancing owned = none) : latestAdvancing later = none := by
  rw [latestAdvancing_eq_none_iff] at hadv ⊢
  intro _ hmem hstr
  obtain ⟨rd, hin, rfl⟩ := List.mem_map.mp (hagain.mem_iff.mp hmem)
  exact hadv rd hin hstr

theorem latestEvidence_again : (latestEvidence later).isSome = (latestEvidence owned).isSome := by
  have hlen := (progressEvidence_again hagain).length_eq
  rw [Bool.eq_iff_iff, Option.isSome_iff_ne_none, Option.isSome_iff_ne_none, not_iff_not,
    latestEvidence_eq_none_iff, latestEvidence_eq_none_iff, ← List.length_eq_zero_iff, hlen, List.length_map,
    List.length_eq_zero_iff]

theorem strongReadings_again_eq_nil : strongReadings later = [] ↔ strongReadings owned = [] := by
  rw [← List.length_eq_zero_iff, (strongReadings_again hagain).length_eq, List.length_map, List.length_eq_zero_iff]

theorem advisoryTurn_again : advisoryTurn later = (advisoryTurn owned).map (·.restamp now) := by
  rw [advisoryTurn_eq_get, advisoryTurn_eq_get, hagain.get_eq, Option.filter_map]
  rfl

end Again

/-! ### The fields a quiet reduction leaves -/

section Fields

variable {tick : Tick} {arm : Arm}

/-- Only the quiet arms leave a quiet or a suspected head. -/
theorem Arm.quiet_of_verdict (hspec : ArmSpec tick owned draft arm)
    (hverd : (concludeArm tick owned draft arm).verdict = .healthyQuiet ∨
      (concludeArm tick owned draft arm).verdict = .suspectedStall) : arm.Quiet := by
  cases hspec with
  | dead | advancing | childHold => simp [concludeArm, deadArm, advancingArm, childHoldArm] at hverd
  | suspended =>
    simp only [concludeArm, suspendedArm] at hverd
    split_ifs at hverd <;> simp at hverd
  | idleTurn => constructor
  | providerQuiet => constructor
  | noProgressSource => constructor
  | allDark =>
    simp only [concludeArm, allDarkArm_verdict] at hverd
    split_ifs at hverd <;> simp at hverd

/-- What a quiet arm leaves of the fields that the next reduction goes on from. -/
theorem Arm.Quiet.fields (hquiet : arm.Quiet) :
    let after := (raiseOwedAnswer tick (concludeArm tick owned draft arm)).episode
    after.lastProgressSource = draft.lastProgressSource ∧ after.lastTurn = draft.lastTurn ∧ after.stallFrozenSince = 0 := by
  have hrai : ∀ ruling : Ruling, (raiseOwedAnswer tick ruling).episode.lastProgressSource = ruling.episode.lastProgressSource ∧
      (raiseOwedAnswer tick ruling).episode.lastTurn = ruling.episode.lastTurn ∧
      (raiseOwedAnswer tick ruling).episode.stallFrozenSince = ruling.episode.stallFrozenSince := by
    intro ruling
    unfold raiseOwedAnswer
    split_ifs <;> exact ⟨rfl, rfl, rfl⟩
  simp only [hrai]
  cases hquiet with
  | idleTurn => exact ⟨rfl, rfl, rfl⟩
  | providerQuiet =>
    simp only [concludeArm, providerQuietArm, climbQuiet]
    split_ifs <;> exact ⟨rfl, rfl, rfl⟩
  | noProgressSource =>
    simp only [concludeArm, noProgressSourceArm, climbQuiet]
    split_ifs <;> exact ⟨rfl, rfl, rfl⟩

end Fields

/-! ### The next reduction goes on from the same clocks -/

theorem recordedEpisode_lastTurn (tick : Tick) (owned : Readings) (episode : VitalityEpisode) :
    (recordedEpisode tick owned episode).lastTurn = (recordTurn tick.now owned episode).lastTurn :=
  congrArg Prod.fst (turnKept_recordReadings tick owned ⟨episode, []⟩)

section Again

variable (now : ℕ) {next : ℕ} {later : Readings} (hagain : Readings.Again next owned later)
  (episode : VitalityEpisode) {recorded : VitalityEpisode}
include hagain

/-- A turn that is recorded again ends when it ended. -/
theorem recordTurn_again (hturn : recorded.lastTurn = (recordTurn now owned episode).lastTurn)
    (hended : recorded.turnEndedAt = (recordTurn now owned episode).turnEndedAt) :
    (recordTurn next later recorded).turnEndedAt = recorded.turnEndedAt := by
  unfold recordTurn at hturn hended ⊢
  rw [advisoryTurn_again hagain]
  cases hadv : advisoryTurn owned with
  | none => rfl
  | some rd =>
    simp only [hadv, Option.map_some, restamp_turn] at hturn hended ⊢
    by_cases hact : rd.turn = .active
    · simp only [hact, if_true] at hended ⊢
      exact hended.symm
    · simp only [hact, if_false] at hturn ⊢
      rw [if_neg (by simp [hturn])]

/-- A source that is dark when its reading is taken again has been dark since it was. -/
theorem darkAfter_again (hdark : recorded.unavailableSince progressSource = darkAfter now owned episode)
    (hcursor : recorded.evidenceCursors progressSource = progressCursorAfter owned episode)
    (hsrc : recorded.lastProgressSource = episode.lastProgressSource) :
    darkAfter next later recorded = recorded.unavailableSince progressSource := by
  rw [darkAfter] at hdark
  rw [progressCursorAfter] at hcursor
  rw [darkAfter, hagain.get_eq]
  cases hreading : owned.get progressSource with
  | some _ =>
    simp only [hreading, Option.map_some, restamp_answered] at hdark ⊢
    rw [hdark]
    split <;> rfl
  | none =>
    simp only [hreading, Option.map_none] at hdark hcursor ⊢
    have hwit : progressWitnessed recorded = progressWitnessed episode := by
      rw [progressWitnessed, progressWitnessed, hcursor, hsrc]
    rw [hwit, hdark]
    split <;> rfl

end Again

section Next

variable {previous : Option VitalityEpisode} {tick later : Tick} {run : RunId} {again after : VitalityEpisode}

/-- What the next reduction decides on, once the same readings are recorded on a quiet episode. -/
structure Continues (episode again : VitalityEpisode) : Prop extends SameClocks episode again where
  dark : again.unavailableSince progressSource = episode.unavailableSince progressSource
  turn : again.turnEndedAt = episode.turnEndedAt

theorem Reduces.continues_again (hred : Reduces previous tick run draft episode)
    (hquiet : (selectArm tick (tick.owned run) draft).Quiet)
    (hlater : Reduces (some episode) later run again after)
    (hagain : Readings.Again later.now (tick.owned run) (later.owned run)) :
    Continues episode again := by
  have hkept := hred.untouched
  have hfld : episode.lastProgressSource = draft.lastProgressSource ∧ episode.lastTurn = draft.lastTurn ∧
      episode.stallFrozenSince = 0 := by
    obtain ⟨_, rfl⟩ := hred.closed
    exact hquiet.fields
  have hopen : openEpisode (some episode) run later.now = episode := if_pos hred.runId_eq
  have hresum : unfreezeIfResumed episode (later.owned run) later.now = episode :=
    if_pos hfld.2.2
  have hrec := hlater.recorded
  rw [hopen] at hrec
  have hclocks := hrec.toSameClocks
  rw [hresum] at hclocks
  refine { hclocks with dark := ?_, turn := ?_ }
  · rw [hrec.dark]
    refine darkAfter_again tick.now hagain (openEpisode previous run tick.now) ?_ ?_ ?_
    · rw [hkept.unavailableSince, hred.recorded.dark]
    · rw [hkept.evidenceCursors, hred.recorded.cursor]
    · rw [hfld.1, hred.recorded.lastProgressSource, (unfreezeIfResumed_kept _ _ _).2.2.1]
  · rw [hrec.turn]
    refine recordTurn_again tick.now hagain (openEpisode previous run tick.now) ?_ ?_
    · rw [hfld.2.1, hred.drafted, recordedEpisode_lastTurn]
    · rw [hkept.turnEndedAt, hred.recorded.turn]

end Next

/-! ### The same arm decides again -/

section SameArm

variable {tick later : Tick} {again : Readings} {recorded : VitalityEpisode}

/-- The same call of the reducer, at another instant and with other readings. -/
structure SameCall (tick later : Tick) : Prop where
  thresholds : later.thresholds = tick.thresholds
  answerOwedSince : later.answerOwedSince = tick.answerOwedSince
  adapter : later.adapter = tick.adapter

theorem idleTurnJournal_again (hcall : SameCall tick later) (hagain : Readings.Again later.now owned again) :
    idleTurnJournal later again = (idleTurnJournal tick owned).map (·.restamp later.now) := by
  rw [idleTurnJournal, idleTurnJournal, hcall.adapter, hcall.answerOwedSince, hagain.get_eq]
  split
  · rw [Option.filter_map]
    rfl
  · rfl

section

variable (hcall : SameCall tick later) (hagain : Readings.Again later.now owned again)
  (hstamps : ∀ snapshot ∈ owned.entries, snapshot.observedAt ≤ later.now)
  (hhead : headQuietReference recorded = headQuietReference draft)
include hcall hagain hstamps hhead

/-- Children beyond the ceiling stay beyond it. -/
theorem childHold_again (hstrk : recorded.childActivitySince = draft.childActivitySince)
    (hnone : childHold tick.thresholds (childClaim owned draft) = none) :
    childHold later.thresholds (childClaim again recorded) = none := by
  have hread : childReading again = (childReading owned).map (·.restamp later.now) := by
    rw [childReading, childReading, hagain.get_eq, Option.filter_map]
    rfl
  rw [childHold, Option.filter_eq_none_iff] at hnone ⊢
  intro _ hclaim
  rw [childClaim, hread, Option.filter_map, Option.map_map, Option.map_eq_some_iff] at hclaim
  obtain ⟨kid, hchild, rfl⟩ := hclaim
  have hbefore := hnone ⟨kid, stampOr draft.childActivitySince (headQuietReference draft)⟩
    (Option.map_eq_some_iff.mpr ⟨kid, hchild, rfl⟩)
  have hmem : kid ∈ owned.entries :=
    (Readings.mem_of_get (Option.filter_eq_some_iff.mp (Option.filter_eq_some_iff.mp hchild).1).1).1
  have hstamp := hstamps kid hmem
  rw [decide_eq_true_eq] at hbefore ⊢
  simp only [Function.comp_apply, ChildClaim.held, restamp_observedAt, hcall.thresholds, hhead, hstrk] at hbefore ⊢
  omega

/-- A quiet head is judged by the same arm when its readings are taken again. -/
theorem selectArm_again (hstrk : recorded.childActivitySince = draft.childActivitySince) :
    match selectArm tick owned draft with
    | .idleTurn journal => selectArm later again recorded = .idleTurn (journal.restamp later.now)
    | .providerQuiet _ => ∃ latest, selectArm later again recorded = .providerQuiet latest
    | .noProgressSource _ => ∃ sources, selectArm later again recorded = .noProgressSource sources
    | _ => True := by
  have hspec := selectArm_spec tick owned draft
  generalize selectArm tick owned draft = arm at hspec
  have hdead := showsDead_again hagain
  have hsusp := showsSuspended_again hagain
  have hjour := idleTurnJournal_again hcall hagain
  cases hspec with
  | dead | suspended | advancing | childHold | allDark => trivial
  | idleTurn _ hd hs ha hj =>
    rw [hj, Option.map_some] at hjour
    simp [selectArm, hdead, hd, hsusp, hs, latestAdvancing_again hagain ha, hjour]
  | providerQuiet _ hd hs ha hj hc hl =>
    have hev := latestEvidence_again hagain
    rw [hj, Option.map_none] at hjour
    rw [hl, Option.isSome_some, Option.isSome_iff_exists] at hev
    obtain ⟨again, hlat⟩ := hev
    simp only [selectArm, hdead, hd, hsusp, hs, latestAdvancing_again hagain ha, hjour, Bool.false_eq_true,
      if_false, childHold_again hcall hagain hstamps hhead hstrk hc, hlat]
    exact ⟨again, rfl⟩
  | noProgressSource _ hd hs ha hj hc hl hstr =>
    have hev := latestEvidence_again hagain
    rw [hj, Option.map_none] at hjour
    rw [hl, Option.isSome_none, Option.isSome_eq_false_iff, Option.isNone_iff_eq_none] at hev
    have hsome : ¬(strongReadings again).isEmpty = true := by
      rw [List.isEmpty_iff, strongReadings_again_eq_nil hagain]
      exact hstr
    simp only [selectArm, hdead, hd, hsusp, hs, latestAdvancing_again hagain ha, hjour, Bool.false_eq_true,
      if_false, childHold_again hcall hagain hstamps hhead hstrk hc, hev, hsome]
    exact ⟨_, rfl⟩

end

end SameArm

/-! ### The deadline -/

section Truth

variable {previous : Option VitalityEpisode} {tick later : Tick} {run : RunId} {again after : VitalityEpisode}

/-- The quiet that climbs the next rung. -/
def nextQuiet (thresholds : VitalityThresholds) (episode : VitalityEpisode) : ℕ :=
  if ladderLevel episode.verdict = 0 then thresholds.suspectAfter else thresholds.confirmQuiet

/-- The idle turn that climbs the next rung. -/
def nextIdle (thresholds : VitalityThresholds) (episode : VitalityEpisode) : ℕ :=
  if ladderLevel episode.verdict = 0 then thresholds.idleTurnSuspectAfter else thresholds.idleTurnConfirmAfter

theorem nextRung_eq_some {thresholds : VitalityThresholds} {verdict : VitalityVerdict} {dueAt : ℕ}
    (hrung : nextRung thresholds episode = some (verdict, dueAt)) :
    ladderLevel episode.verdict ≤ 1 ∧ (episode.verdict = .healthyQuiet ∨ episode.verdict = .suspectedStall) ∧
      ladderLevel verdict = ladderLevel episode.verdict + 1 ∧
      dueAt = if episode.idleTurnSince ≠ 0 then episode.idleTurnSince + nextIdle thresholds episode
        else max (quietReference episode + nextQuiet thresholds episode) (frozenUntil thresholds episode) := by
  rw [nextRung] at hrung
  cases hverd : episode.verdict <;> simp only [hverd, Option.some.injEq, Prod.mk.injEq, reduceCtorEq] at hrung
  · obtain ⟨rfl, rfl⟩ := hrung
    simp [nextIdle, nextQuiet, hverd, ladderLevel]
  · obtain ⟨rfl, rfl⟩ := hrung
    simp [nextIdle, nextQuiet, hverd, ladderLevel]

/-- The instant at which the same readings climb the next rung. A dark progress source counts only where nothing
speaks about progress. -/
def climbsAt (thresholds : VitalityThresholds) (owned : Readings) (episode : VitalityEpisode) : ℕ :=
  if episode.idleTurnSince ≠ 0 then episode.idleTurnSince + nextIdle thresholds episode
  else if progressEvidence owned ≠ [] then quietReference episode + nextQuiet thresholds episode
  else max (quietReference episode + nextQuiet thresholds episode) (frozenUntil thresholds episode)

section

variable (hred : Reduces previous tick run draft episode)
include hred

theorem Reduces.arm_quiet (hverd : episode.verdict = .healthyQuiet ∨ episode.verdict = .suspectedStall) :
    (selectArm tick (tick.owned run) draft).Quiet := by
  refine Arm.quiet_of_verdict (selectArm_spec tick (tick.owned run) draft) ?_
  obtain ⟨_, rfl⟩ := hred.closed
  rcases raiseOwedAnswer_verdict tick (concludeArm tick (tick.owned run) draft
    (selectArm tick (tick.owned run) draft)) with hsame | ⟨hquiet, -⟩
  · rw [← hsame]
    exact hverd
  · exact .inl hquiet

theorem Reduces.verdict_of_quiet (hquiet : (selectArm tick (tick.owned run) draft).Quiet) :
    episode.verdict = .healthyQuiet ∨ episode.verdict = .suspectedStall ∨ episode.verdict = .confirmedStall := by
  have hlevel := hquiet.verdict_eq tick (tick.owned run) draft
  obtain ⟨_, rfl⟩ := hred.closed
  rcases raiseOwedAnswer_verdict tick (concludeArm tick (tick.owned run) draft
    (selectArm tick (tick.owned run) draft)) with hsame | ⟨-, herr⟩
  · simp only [closeEpisode, concludeReadings, hsame, hlevel]
    rcases armLevel tick draft (selectArm tick (tick.owned run) draft) with _ | _ | _
    · exact .inl rfl
    · exact .inr (.inl rfl)
    · exact .inr (.inr rfl)
  · exact .inr (.inl herr)

/-- The idle turn that an episode is charged from, where the idle-turn rule decided. -/
theorem Reduces.idleTurnSince_eq (hquiet : (selectArm tick (tick.owned run) draft).Quiet) :
    episode.idleTurnSince =
      match selectArm tick (tick.owned run) draft with
      | .idleTurn journal => idleTurnReference tick draft journal
      | _ => 0 := by
  have hdraft : draft.idleTurnSince = 0 := by rw [hred.drafted]; rfl
  have hrai : ∀ ruling : Ruling, (raiseOwedAnswer tick ruling).episode.idleTurnSince = ruling.episode.idleTurnSince := by
    intro ruling
    unfold raiseOwedAnswer
    split_ifs <;> rfl
  obtain ⟨_, rfl⟩ := hred.closed
  simp only [closeEpisode, concludeReadings, hrai]
  generalize selectArm tick (tick.owned run) draft = arm at hquiet ⊢
  cases hquiet with
  | idleTurn => rfl
  | providerQuiet =>
    simp only [concludeArm, providerQuietArm, climbQuiet]
    split_ifs <;> exact hdraft
  | noProgressSource =>
    simp only [concludeArm, noProgressSourceArm, climbQuiet]
    split_ifs <;> exact hdraft

end

/-- The idle-turn rule charges from an instant. -/
theorem idleTurnReference_pos {journal : VitalitySnapshot} (hjour : idleTurnJournal tick owned = some journal) :
    0 < idleTurnReference tick draft journal := by
  rw [idleTurnJournal] at hjour
  split_ifs at hjour with hrule
  exact hrule.2.trans_le ((le_max_right _ _).trans (le_max_left _ _))

theorem answerUnanswered_again (hcall : SameCall tick later) (hred : Reduces previous tick run draft episode)
    (hprog : SameProgress draft episode) (hcont : Continues episode again) :
    answerUnanswered later again = answerUnanswered tick draft := by
  rw [answerUnanswered, answerUnanswered, hcall.answerOwedSince, hcont.lastProgressAt, hprog.lastProgressAt,
    hcont.turn, hred.untouched.turnEndedAt]

/-- The idle-turn rule charges from the same instant, and climbs at its marks. -/
theorem idleTurnLevel_again (hcall : SameCall tick later) (hred : Reduces previous tick run draft episode)
    (hcont : Continues episode again) (journal : VitalitySnapshot)
    (hrung : ladderLevel episode.verdict ≤ 1) :
    ladderLevel episode.verdict < idleTurnLevel later again (journal.restamp later.now) ↔
      (if ladderLevel episode.verdict = 0 then tick.thresholds.idleTurnSuspectAfter
        else tick.thresholds.idleTurnConfirmAfter) ≤ later.now - idleTurnReference tick draft journal := by
  have hrefer : idleTurnReference later again (journal.restamp later.now) = idleTurnReference tick draft journal := by
    rw [idleTurnReference, idleTurnReference, hcall.answerOwedSince, hcont.quietSince, hred.untouched.quietSince]
    rfl
  have hord := tick.thresholds.idleTurn_ordered
  simp only [idleTurnLevel, hrefer, hcall.thresholds, stallStands, hcont.verdict, Bool.and_eq_true, decide_eq_true_eq]
  generalize later.now - idleTurnReference tick draft journal = idle
  generalize ladderLevel episode.verdict = held at hrung ⊢
  unfold levelAfter
  split_ifs <;> omega

/-- Quiet climbs the ladder at its marks. -/
theorem levelAfter_next {thresholds : VitalityThresholds} {held quiet : ℕ} (hrung : held ≤ 1) :
    held < levelAfter thresholds.suspectAfter thresholds.confirmQuiet quiet ↔
      (if held = 0 then thresholds.suspectAfter else thresholds.confirmQuiet) ≤ quiet := by
  have hord : thresholds.suspectAfter ≤ thresholds.confirmQuiet := Nat.le_add_right _ _
  unfold levelAfter
  split_ifs <;> omega

theorem nextQuiet_pos (thresholds : VitalityThresholds) (episode : VitalityEpisode) : 0 < nextQuiet thresholds episode := by
  have hsuspect := thresholds.suspectAfter_pos
  unfold nextQuiet VitalityThresholds.confirmQuiet
  split <;> omega

theorem nextIdle_pos (thresholds : VitalityThresholds) (episode : VitalityEpisode) : 0 < nextIdle thresholds episode := by
  have hidle := thresholds.idleTurnSuspectAfter_pos
  have hord := thresholds.idleTurn_ordered
  unfold nextIdle
  split <;> omega

/-- A live process alone climbs when the freeze of its dark source has expired and the quiet is long enough. -/
theorem noProgressSource_again (hcall : SameCall tick later) (hcont : Continues episode again)
    (hrung : ladderLevel episode.verdict ≤ 1) (sources : List SnapshotSource) :
    ladderLevel episode.verdict < armLevel later again (.noProgressSource sources) ↔
      max (quietReference episode + nextQuiet tick.thresholds episode) (frozenUntil tick.thresholds episode) ≤ later.now := by
  have hconf : episode.verdict ≠ .confirmedStall := by
    intro hverd
    rw [hverd] at hrung
    exact absurd hrung (by decide)
  have hnext := nextQuiet_pos tick.thresholds episode
  have hceil := tick.thresholds.darkCeiling_pos
  have hclimb : ladderLevel episode.verdict < levelAfter tick.thresholds.suspectAfter tick.thresholds.confirmQuiet
      (later.now - quietReference episode) ↔ quietReference episode + nextQuiet tick.thresholds episode ≤ later.now := by
    rw [levelAfter_next hrung]
    unfold nextQuiet at hnext ⊢
    omega
  simp only [armLevel, quietRung, hcont.verdict, hcont.quietReference_eq, hcall.thresholds]
  rw [if_neg hconf, max_le_iff, ← hclimb]
  simp only [withinDarkCeiling, darkSpan, hcont.dark, hcall.thresholds, frozenUntil]
  cases episode.unavailableSince progressSource with
  | none => simp
  | some _ =>
    simp only [Option.map_some, Option.any_some, decide_eq_true_eq, Option.getD_some]
    split_ifs <;> omega

/-- Quiet that something speaks about has not yet climbed. -/
theorem Reduces.now_lt_climb (hred : Reduces previous tick run draft episode)
    (hquiet : (selectArm tick (tick.owned run) draft).Quiet) (hprog : SameProgress draft episode)
    (hrung : ladderLevel episode.verdict ≤ 1) (hev : progressEvidence (tick.owned run) ≠ [])
    (hidle : episode.idleTurnSince = 0) :
    tick.now < quietReference episode + nextQuiet tick.thresholds episode := by
  have hlevel := hred.ladderLevel_eq hquiet
  have hsince := hred.idleTurnSince_eq hquiet
  have hspec := selectArm_spec tick (tick.owned run) draft
  generalize selectArm tick (tick.owned run) draft = arm at hquiet hlevel hsince hspec
  cases hspec with
  | dead | suspended | advancing | childHold | allDark => cases hquiet
  | idleTurn journal hd hs ha hjour =>
    have hpos := @idleTurnReference_pos _ draft tick journal hjour
    dsimp only at hsince
    omega
  | noProgressSource _ hd hs ha hj hc hl => exact absurd (latestEvidence_eq_none_iff.mp hl) hev
  | providerQuiet =>
    have hsame : quietReference draft = quietReference episode := by
      simp only [quietReference, hprog.lastProgressAt, hprog.childProgressAt, hred.untouched.quietSince,
        hred.untouched.startedAt]
    have hheld : ¬ladderLevel episode.verdict < quietRung tick draft :=
      Nat.not_lt.mpr (hlevel ▸ le_max_left (quietRung tick draft) _)
    have hnext := nextQuiet_pos tick.thresholds episode
    rw [quietRung, hsame, levelAfter_next hrung] at hheld
    unfold nextQuiet at hnext ⊢
    omega

/-- Readings that are taken again climb the next rung at its instant, and not before. -/
theorem armLevel_again (hcall : SameCall tick later) (hred : Reduces previous tick run draft episode)
    (hquiet : (selectArm tick (tick.owned run) draft).Quiet)
    (hprog : SameProgress draft episode) (hcont : Continues episode again)
    (hagain : Readings.Again later.now (tick.owned run) (later.owned run))
    (hstamps : ∀ snapshot ∈ (tick.owned run).entries, snapshot.observedAt ≤ later.now)
    (hrung : ladderLevel episode.verdict ≤ 1) :
    (selectArm later (later.owned run) again).Quiet ∧
      (ladderLevel episode.verdict < armLevel later again (selectArm later (later.owned run) again) ↔
        climbsAt tick.thresholds (tick.owned run) episode ≤ later.now) := by
  have hhead : headQuietReference again = headQuietReference draft := by
    rw [hcont.headQuietReference_eq, headQuietReference, headQuietReference, hprog.lastProgressAt,
      hred.untouched.quietSince, hred.untouched.startedAt]
  have harm := selectArm_again hcall hagain hstamps hhead (hcont.childActivitySince.trans hprog.childActivitySince)
  have hsince := hred.idleTurnSince_eq hquiet
  have hspec := selectArm_spec tick (tick.owned run) draft
  generalize selectArm tick (tick.owned run) draft = arm at hquiet harm hsince hspec
  cases hspec with
  | dead | suspended | advancing | childHold | allDark => cases hquiet
  | idleTurn journal hd hs ha hjour =>
    dsimp only at hsince
    have hchg : episode.idleTurnSince ≠ 0 := hsince ▸ (idleTurnReference_pos hjour).ne'
    have hnext := nextIdle_pos tick.thresholds episode
    rw [harm]
    refine ⟨.idleTurn _, ?_⟩
    rw [armLevel, idleTurnLevel_again hcall hred hcont journal hrung, climbsAt, if_pos hchg, hsince]
    unfold nextIdle at hnext ⊢
    omega
  | providerQuiet _ hd hs ha _ _ hlat =>
    obtain ⟨_, harm⟩ := harm
    have hev : progressEvidence (tick.owned run) ≠ [] := by
      intro hnil
      rw [latestEvidence_eq_none_iff.mpr hnil] at hlat
      cases hlat
    have hnext := nextQuiet_pos tick.thresholds episode
    rw [harm]
    refine ⟨.providerQuiet _, ?_⟩
    rw [climbsAt, if_neg (not_not.mpr hsince), if_pos hev]
    simp only [armLevel, quietRung, hcont.quietReference_eq, hcall.thresholds]
    rw [levelAfter_next hrung]
    unfold nextQuiet at hnext ⊢
    omega
  | noProgressSource _ hd hs ha hj hc hl =>
    obtain ⟨rest, harm⟩ := harm
    rw [harm, climbsAt, if_neg (not_not.mpr hsince), if_neg (not_not.mpr (latestEvidence_eq_none_iff.mp hl))]
    exact ⟨.noProgressSource _, noProgressSource_again hcall hcont hrung rest⟩

theorem ownedReadings_ne_nil {snapshots : List VitalitySnapshot} (hnamed : ∃ snapshot ∈ snapshots, snapshot.runId = run) :
    (ownedReadings run snapshots).entries ≠ [] := by
  have hkeep : ∀ (owned : Readings) (snapshot : VitalitySnapshot), (owned.keep snapshot).entries ≠ [] := by
    intro owned snapshot
    unfold Readings.keep
    split
    · simp
    · rename_i _ hknown
      have hmem := List.ne_nil_of_mem (Readings.mem_of_get hknown).1
      split
      · simpa using hmem
      · exact hmem
  have hfold : ∀ (rest : List VitalitySnapshot) (owned : Readings), owned.entries ≠ [] ∨ rest ≠ [] →
      (rest.foldl Readings.keep owned).entries ≠ [] := by
    intro rest
    induction rest with
    | nil => simp
    | cons snapshot rest ih => exact fun owned _ ↦ ih _ (.inl (hkeep owned snapshot))
  obtain ⟨snapshot, hmem, hrun⟩ := hnamed
  exact hfold _ _ (.inr (List.ne_nil_of_mem (List.mem_filter.mpr ⟨hmem, by simpa using hrun⟩)))

/-- The same readings, taken again on top of an episode with a rung ahead, climb it at its instant. -/
theorem reduceVitality_again (hred : Reduces previous tick run draft episode)
    (hstamps : ∀ snapshot ∈ tick.snapshots, snapshot.observedAt ≤ tick.now)
    (hrung : ladderLevel episode.verdict ≤ 1)
    (hverd : episode.verdict = .healthyQuiet ∨ episode.verdict = .suspectedStall)
    {now : ℕ} (hlater : tick.now ≤ now) {others : List VitalitySnapshot}
    (hagain : Readings.Again now (tick.owned run) (ownedReadings run others)) :
    ∃ after, reduceVitality (some episode) { tick with snapshots := others, now } = .ok after ∧
      (after.verdict = .healthyQuiet ∨ after.verdict = .suspectedStall ∨ after.verdict = .confirmedStall) ∧
      (ladderLevel episode.verdict < ladderLevel after.verdict ↔
        climbsAt tick.thresholds (tick.owned run) episode ≤ now) := by
  have hrun := hred.runId_eq
  have hquiet := hred.arm_quiet hverd
  have hprog : SameProgress draft episode :=
    hred.sameProgress (by rcases hverd with hverd | hverd <;> simp [hverd])
  -- The later batch names the run, so that its reduction goes on from the episode.
  obtain ⟨snapshot, hmem⟩ : ∃ snapshot, snapshot ∈ (ownedReadings run others).entries := by
    refine List.exists_mem_of_ne_nil _ fun hnil ↦ ownedReadings_ne_nil hred.named ?_
    rw [Readings.Again, hnil, List.nil_perm, List.map_eq_nil_iff] at hagain
    exact hagain
  obtain ⟨hin, hsnap⟩ := mem_of_mem_ownedReadings hmem
  obtain ⟨a, rest, hcons⟩ := List.exists_cons_of_ne_nil (List.ne_nil_of_mem hin)
  have hok : reduceVitality (some episode) { tick with snapshots := others, now } =
      .ok (reduceBatch (some episode) { tick with snapshots := others, now } a rest) := by
    simp [reduceVitality, hcons]
  refine ⟨_, hok, ?_⟩
  rcases reduceVitality_cases hok with ⟨hnil, -⟩ | ⟨named, _, hlred⟩
  · rw [hcons] at hnil
    cases hnil
  have hnamed : named = run :=
    (hlred.continues episode rfl ⟨snapshot, hin, hsnap.trans hrun.symm⟩).trans hrun
  subst hnamed
  have hcall : SameCall tick { tick with snapshots := others, now } := ⟨rfl, rfl, rfl⟩
  have hcont := hred.continues_again hquiet hlred hagain
  have hstampsLater : ∀ snapshot ∈ (tick.owned named).entries, snapshot.observedAt ≤ now :=
    fun snapshot hmem ↦ (hstamps snapshot (mem_of_mem_ownedReadings hmem).1).trans hlater
  obtain ⟨hlquiet, hrungIff⟩ := armLevel_again hcall hred hquiet hprog hcont hagain hstampsLater hrung
  refine ⟨hlred.verdict_of_quiet hlquiet, ?_⟩
  have hlevel := hred.ladderLevel_eq hquiet
  have hlaterLevel := hlred.ladderLevel_eq hlquiet
  rw [answerUnanswered_again hcall hred hprog hcont] at hlaterLevel
  rw [← hrungIff, hlaterLevel]
  by_cases hunans : answerUnanswered tick draft = true
  · omega
  · omega

/-- The kept readings of a batch, taken again as a batch. -/
theorem again_entries (run : RunId) (snapshots : List VitalitySnapshot) (now : ℕ) :
    Readings.Again now (ownedReadings run snapshots)
      (ownedReadings run ((ownedReadings run snapshots).entries.map (·.restamp now))) := by
  have hall : ((ownedReadings run snapshots).entries.map (·.restamp now)).filter (·.runId = run) =
      (ownedReadings run snapshots).entries.map (·.restamp now) := by
    rw [List.filter_eq_self]
    intro _ hmem
    obtain ⟨_, hin, rfl⟩ := List.mem_map.mp hmem
    exact decide_eq_true (mem_of_mem_ownedReadings hin).2
  rw [Readings.Again]
  nth_rewrite 1 [ownedReadings]
  rw [hall, entries_latestPerSource]
  rw [List.map_map]
  exact (ownedReadings run snapshots).sources_nodup

/-- The deadline tells the truth about the same readings, taken again at any later instant. -/
def Deadline.Kept (tick : Tick) (episode : VitalityEpisode) (due : Deadline) : Prop :=
  ∀ now others, tick.now ≤ now →
    Readings.Again now (ownedReadings episode.runId tick.snapshots) (ownedReadings episode.runId others) →
    ∃ after, reduceVitality (some episode) { tick with snapshots := others, now } = .ok after ∧
      (after.verdict = .healthyQuiet ∨ after.verdict = .suspectedStall ∨ after.verdict = .confirmedStall) ∧
      (ladderLevel due.verdict ≤ ladderLevel after.verdict ↔ due.dueAt ≤ now)

/-- The next deadline of an episode is when the same readings climb the next rung, exactly if there are readings
and, where one speaks about progress and no idle turn is charged, a dark source is frozen no longer than the quiet
takes. -/
theorem recoveryOutlook_nextDeadline_iff (hreduce : reduceVitality previous tick = .ok episode)
    (hstamps : ∀ snapshot ∈ tick.snapshots, snapshot.observedAt ≤ tick.now)
    {due : Deadline} (hdue : (recoveryOutlook tick.thresholds episode tick.now).nextDeadline = some due) :
    due.Kept tick episode ↔ tick.snapshots ≠ [] ∧
      (progressEvidence (ownedReadings episode.runId tick.snapshots) ≠ [] → episode.idleTurnSince = 0 →
        frozenUntil tick.thresholds episode ≤ quietReference episode + nextQuiet tick.thresholds episode) := by
  obtain ⟨⟨_, _⟩, hrung, rfl⟩ := Option.map_eq_some_iff.mp hdue
  obtain ⟨hlad, hverd, hnext, hdueAt⟩ := nextRung_eq_some hrung
  rcases reduceVitality_cases hreduce with ⟨hnil, -⟩ | ⟨run, draft, hred⟩
  · -- no readings: the episode stays as it is for ever
    refine iff_of_false (fun hkept ↦ ?_) fun hcond ↦ hcond.1 hnil
    obtain ⟨after, hafter, -, hiff⟩ := hkept (max tick.now _) [] (le_max_left _ _) (by rw [hnil]; exact .refl _)
    cases hafter.symm.trans (rfl : reduceVitality (some episode) { tick with snapshots := [], now := _ } = .ok episode)
    have hclimbed := hiff.mpr (le_max_right _ _)
    dsimp only at hclimbed
    omega
  have hrun := hred.runId_eq
  subst hrun
  have hsnaps : tick.snapshots ≠ [] := by
    obtain ⟨_, hmem, -⟩ := hred.named
    exact List.ne_nil_of_mem hmem
  constructor
  · refine fun hkept ↦ ⟨hsnaps, fun hev hidle ↦ ?_⟩
    by_contra hlong
    have hquiet := hred.arm_quiet hverd
    have hbefore := hred.now_lt_climb hquiet
      (hred.sameProgress (by rcases hverd with hverd | hverd <;> simp [hverd])) hlad hev hidle
    -- at the end of the quiet the rung is climbed, and the deadline is still ahead
    have hagain := again_entries episode.runId tick.snapshots
      (quietReference episode + nextQuiet tick.thresholds episode)
    obtain ⟨after, hafter, -, hiff⟩ := hkept _ _ hbefore.le hagain
    obtain ⟨_, hagainOk, -, hclimb⟩ := reduceVitality_again hred hstamps hlad hverd hbefore.le hagain
    cases hafter.symm.trans hagainOk
    rw [climbsAt, if_neg (not_not.mpr hidle), if_pos hev] at hclimb
    have hdue := hiff.mp (hnext ▸ hclimb.mpr le_rfl)
    rw [if_neg (not_not.mpr hidle)] at hdueAt
    dsimp only at hdue
    omega
  · rintro ⟨-, hfreeze⟩ now others hlater hagain
    obtain ⟨after, hafter, hquiet, hclimb⟩ := reduceVitality_again hred hstamps hlad hverd hlater hagain
    refine ⟨after, hafter, hquiet, ?_⟩
    dsimp only
    rw [hnext, Nat.succ_le_iff, hclimb, hdueAt, climbsAt]
    split_ifs with hidle hev
    · exact Iff.rfl
    · rw [max_eq_left (hfreeze hev (not_not.mp hidle))]
    · exact Iff.rfl

/-- A provider that is quiet for a second is suspected after five minutes. -/
theorem recoveryOutlook_nextDeadline_iff_witness :
    let tick : Tick := { snapshots := [.ofHeartbeat sampleRun (seconds 2) .running,
      .ofProvider sampleRun (seconds 2) .quiet (.clip _ "p1")], now := seconds 2 }
    let stored : VitalityEpisode := { runId := sampleRun, startedAt := seconds 1, updatedAt := seconds 1 }
    let others := tick.snapshots.map (·.restamp (seconds 301))
    ∃ episode after due, reduceVitality (some stored) tick = .ok episode ∧
      (recoveryOutlook tick.thresholds episode tick.now).nextDeadline = some due ∧ due.dueAt = seconds 301 ∧
      reduceVitality (some episode) { tick with snapshots := others, now := seconds 301 } = .ok after ∧
      ladderLevel due.verdict ≤ ladderLevel after.verdict := by
  intro tick stored others
  let episode := reduceBatch (some stored) tick (.ofHeartbeat sampleRun (seconds 2) .running)
    [.ofProvider sampleRun (seconds 2) .quiet (.clip _ "p1")]
  have hreduce : reduceVitality (some stored) tick = .ok episode := rfl
  have hdue : (recoveryOutlook tick.thresholds episode tick.now).nextDeadline =
      some ⟨.suspectedStall, seconds 301, seconds 299⟩ := by decide +kernel
  have hagain : Readings.Again (seconds 301) (tick.owned episode.runId)
      (ownedReadings episode.runId others) := by decide +kernel
  have hlater : tick.now ≤ seconds 301 := by decide
  have hfrz : frozenUntil tick.thresholds episode ≤ quietReference episode + nextQuiet tick.thresholds episode := by
    decide +kernel
  obtain ⟨after, hafter, -, hiff⟩ := (recoveryOutlook_nextDeadline_iff hreduce (by decide) hdue).mpr
    ⟨by simp [tick], fun _ _ ↦ hfrz⟩ _ _ hlater hagain
  exact ⟨episode, after, _, hreduce, hdue, rfl, hafter, hiff.mpr (le_refl _)⟩

/-- A quiet journal beside a provider that has gone dark: the outlook waits for the freeze of the provider, and the
reducer suspects the head before it. -/
theorem recoveryOutlook_darkProvider :
    let batch := fun now ↦ [VitalitySnapshot.ofHeartbeat sampleRun now .running,
      .unavailable sampleRun now .providerCursor "not read",
      .ofJournal sampleRun now .active (seconds 1) .quiet (.clip _ "j1:1")]
    let stored : VitalityEpisode := { runId := sampleRun, startedAt := seconds 1, updatedAt := seconds 1 }
    let first := reduceVitality (some stored) { snapshots := batch (seconds 2), now := seconds 2 }
    let due := first.map fun episode ↦ (nextRung defaultVitalityThresholds episode)
    let second := first.bind fun episode ↦
      reduceVitality (some episode) { snapshots := batch (seconds 301), now := seconds 301 }
    due = .ok (some (.suspectedStall, seconds 602)) ∧ second.map (·.verdict) = .ok .suspectedStall := by
  decide +kernel

end Truth

end Ummanu.Vitality
