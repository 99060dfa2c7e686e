import Ummanu.Vitality.Reduce

/-!
# What recording a batch changes

Before an arm decides, the reducer resumes parked clocks and records what the channels said. This
module says once what that stage does to an episode. `SameClocks` lists the fields it leaves
alone; `Recorded` adds what it writes about the progress source and the advisory turn; and
`recorded_recordReadings` proves both of `recordReadings`.

`reduceVitality_cases` is the inversion of the reducer: a successful reduction either looked at
nothing, or is a closed ruling on a recorded draft. Every property of the reducer is derived from
it.
-/

set_option autoImplicit false

namespace Ummanu.Vitality

open Library

variable {snapshot : VitalitySnapshot}

/-! ### Fields that recording leaves alone -/

/-- Two episodes that agree on every field except those recording writes. -/
structure SameClocks (before after : VitalityEpisode) : Prop where
  runId : after.runId = before.runId
  verdict : after.verdict = before.verdict
  startedAt : after.startedAt = before.startedAt
  suspectedSince : after.suspectedSince = before.suspectedSince
  confirmedSince : after.confirmedSince = before.confirmedSince
  lastProgressAt : after.lastProgressAt = before.lastProgressAt
  lastProgressSource : after.lastProgressSource = before.lastProgressSource
  quietSince : after.quietSince = before.quietSince
  reason : after.reason = before.reason
  recoveryRung : after.recoveryRung = before.recoveryRung
  recoverySpanStartedAt : after.recoverySpanStartedAt = before.recoverySpanStartedAt
  deterministicRefusals : after.deterministicRefusals = before.deterministicRefusals
  updatedAt : after.updatedAt = before.updatedAt
  stallFrozenSince : after.stallFrozenSince = before.stallFrozenSince
  childProgressAt : after.childProgressAt = before.childProgressAt
  childActivitySince : after.childActivitySince = before.childActivitySince
  activityEpoch : after.activityEpoch = before.activityEpoch

namespace SameClocks

variable {first middle last : VitalityEpisode}

theorem refl (episode : VitalityEpisode) : SameClocks episode episode := by
  constructor <;> rfl

theorem trans (hfst : SameClocks first middle) (hlast : SameClocks middle last) :
    SameClocks first last := by
  cases hfst
  cases hlast
  constructor <;> simp_all only

theorem quietReference_eq (hsame : SameClocks first last) :
    quietReference last = quietReference first := by
  simp only [quietReference, hsame.lastProgressAt, hsame.quietSince, hsame.childProgressAt, hsame.startedAt]

theorem headQuietReference_eq (hsame : SameClocks first last) :
    headQuietReference last = headQuietReference first := by
  simp only [headQuietReference, hsame.lastProgressAt, hsame.quietSince, hsame.startedAt]

theorem stallOnset_eq (hsame : SameClocks first last) : stallOnset last = stallOnset first := by
  simp only [stallOnset, hsame.suspectedSince, hsame.confirmedSince, hsame.updatedAt]

end SameClocks

section

variable (now : ℕ) (owned : Readings) (draft : Draft)

theorem sameClocks_recordAvailability (snapshot : VitalitySnapshot) :
    SameClocks draft.episode (recordAvailability now draft snapshot).episode := by
  unfold recordAvailability
  cases snapshot.availability with
  | available => constructor <;> rfl
  | unavailable =>
    by_cases hnew : (draft.episode.unavailableSince snapshot.source).isNone
    · simp only [hnew, if_true]
      constructor <;> rfl
    · simp only [hnew, Bool.false_eq_true, if_false]
      exact .refl _

theorem sameClocks_foldl_recordAvailability (snapshots : List VitalitySnapshot) (draft : Draft) :
    SameClocks draft.episode (snapshots.foldl (recordAvailability now) draft).episode := by
  induction snapshots generalizing draft with
  | nil => exact .refl _
  | cons snapshot _ ih => exact (sameClocks_recordAvailability now draft snapshot).trans (ih _)

theorem sameClocks_recordAbsence :
    SameClocks draft.episode (recordAbsence now owned draft).episode := by
  unfold recordAbsence
  dsimp only
  split
  · constructor <;> rfl
  · exact .refl _

theorem sameClocks_recordTurn (episode : VitalityEpisode) :
    SameClocks episode (recordTurn now owned episode) := by
  unfold recordTurn
  split
  · exact .refl _
  · split <;> constructor <;> rfl

theorem sameClocks_recordChild (episode : VitalityEpisode) :
    SameClocks episode (recordChild owned episode) := by
  unfold recordChild
  split
  · exact .refl _
  · constructor <;> rfl

end

/-! ### What is recorded about the channels -/

/-- What an episode keeps about one channel: since when it is dark, and its last cursor. -/
def trackedAt (episode : VitalityEpisode) (source : SnapshotSource) :
    Option ℕ × Option (BoundedText cursorLimit) :=
  (episode.unavailableSince source, episode.evidenceCursors source)

/-- What a reading makes of what was kept about its channel. -/
def trackReading (now : ℕ) (snapshot : VitalitySnapshot)
    (tracked : Option ℕ × Option (BoundedText cursorLimit)) :
    Option ℕ × Option (BoundedText cursorLimit) :=
  match snapshot.availability with
  | .unavailable => (some (tracked.1.getD now), tracked.2)
  | .available => (none, snapshot.presentCursor.or tracked.2)

theorem trackedAt_recordAvailability_self (now : ℕ) (draft : Draft) (snapshot : VitalitySnapshot) :
    trackedAt (recordAvailability now draft snapshot).episode snapshot.source =
      trackReading now snapshot (trackedAt draft.episode snapshot.source) := by
  unfold recordAvailability trackReading trackedAt
  cases snapshot.availability with
  | available => cases hcursor : snapshot.presentCursor <;> simp
  | unavailable =>
    cases hdark : draft.episode.unavailableSince snapshot.source <;> simp [hdark]

theorem trackedAt_recordAvailability_of_ne (now : ℕ) (draft : Draft) {source : SnapshotSource}
    (hne : source ≠ snapshot.source) :
    trackedAt (recordAvailability now draft snapshot).episode source =
      trackedAt draft.episode source := by
  unfold recordAvailability trackedAt
  cases snapshot.availability with
  | available => cases snapshot.presentCursor <;> simp [Function.update_of_ne hne]
  | unavailable =>
    by_cases hnew : (draft.episode.unavailableSince snapshot.source).isNone <;>
      simp [hnew, Function.update_of_ne hne]

/-- Reading distinct channels one after the other tracks each channel by its own reading. -/
theorem trackedAt_foldl_recordAvailability (now : ℕ) (source : SnapshotSource)
    (snapshots : List VitalitySnapshot) (hnodup : (snapshots.map (·.source)).Nodup)
    (draft : Draft) :
    trackedAt (snapshots.foldl (recordAvailability now) draft).episode source =
      (snapshots.find? (·.source = source)).elim (trackedAt draft.episode source)
        fun snapshot ↦ trackReading now snapshot (trackedAt draft.episode source) := by
  induction snapshots generalizing draft with
  | nil => rfl
  | cons snapshot rest ih =>
    rw [List.map_cons, List.nodup_cons] at hnodup
    rw [List.foldl_cons, ih hnodup.2]
    by_cases hsrc : snapshot.source = source
    · subst hsrc
      have hnone : rest.find? (·.source = snapshot.source) = none := by
        rw [List.find?_eq_none]
        intro o hoth hsame
        exact hnodup.1 (List.mem_map.mpr ⟨o, hoth, by simpa using hsame⟩)
      simp [hnone, trackedAt_recordAvailability_self]
    · simp [hsrc, trackedAt_recordAvailability_of_ne now draft (Ne.symm hsrc)]

namespace Readings

theorem mem_sortedEntries {owned : Readings} :
    snapshot ∈ owned.sortedEntries ↔ snapshot ∈ owned.entries := by
  rw [sortedEntries, List.mem_filterMap]
  constructor
  · rintro ⟨src, -, hget⟩
    exact (mem_of_get hget).1
  · exact fun hmem ↦ ⟨snapshot.source, snapshot.source.mem_sorted, get_of_mem hmem⟩

theorem sortedEntries_nodup (owned : Readings) : (owned.sortedEntries.map (·.source)).Nodup := by
  have hsrcs : owned.sortedEntries.map (·.source) =
      SnapshotSource.sorted.filter fun source ↦ (owned.get source).isSome := by
    rw [sortedEntries, List.map_filterMap, ← List.filterMap_eq_filter]
    refine List.filterMap_congr fun source _ ↦ ?_
    cases hget : owned.get source with
    | none => simp [Option.guard, hget]
    | some _ => simp [Option.guard, hget, (mem_of_get hget).2]
  rw [hsrcs]
  exact List.Nodup.filter _ (by decide)

/-- Sorting keeps the reading of every channel. -/
theorem find?_sortedEntries (owned : Readings) (source : SnapshotSource) :
    owned.sortedEntries.find? (·.source = source) = owned.get source := by
  ext snapshot
  change (Readings.mk owned.sortedEntries owned.sortedEntries_nodup).get source = some snapshot ↔
    owned.get source = some snapshot
  rw [get_eq_some_iff, get_eq_some_iff, mem_sortedEntries]

end Readings

/-- A condition that only one channel can meet selects that channel's reading. -/
theorem Readings.filter_eq_toList (owned : Readings) {p : VitalitySnapshot → Bool} {source : SnapshotSource}
    (hsrc : ∀ snapshot, p snapshot = true → snapshot.source = source) :
    owned.entries.filter p = ((owned.get source).filter p).toList := by
  have hnodup := owned.sources_nodup
  rw [Readings.get]
  generalize owned.entries = entries at hnodup ⊢
  induction entries with
  | nil => rfl
  | cons first rest ih =>
    rw [List.map_cons, List.nodup_cons] at hnodup
    by_cases hfst : first.source = source
    · have hrest : rest.filter p = [] := by
        rw [List.filter_eq_nil_iff]
        intro snapshot hin hp
        exact hnodup.1 (hfst ▸ hsrc snapshot hp ▸ List.mem_map_of_mem hin)
      rw [List.find?_cons_of_pos (by simpa using hfst), List.filter_cons, hrest]
      by_cases hp : p first = true <;> simp [Option.filter, hp]
    · have hp : ¬p first = true := fun hp ↦ hfst (hsrc first hp)
      rw [List.find?_cons_of_neg (by simpa using hfst), List.filter_cons_of_neg hp]
      exact ih hnodup.2

/-- The advisory turn is the pane's, when it answers. -/
theorem advisoryTurn_eq_get (owned : Readings) :
    advisoryTurn owned = (owned.get .paneAdvisory).filter fun snapshot ↦
      snapshot.advisory && snapshot.answered && snapshot.turn ≠ .unknown := by
  rw [advisoryTurn, ← List.head?_filter, owned.filter_eq_toList, Option.head?_toList]
  intro snapshot hadv
  simp only [VitalitySnapshot.advisory, Bool.and_eq_true, decide_eq_true_eq] at hadv
  exact hadv.1.1

theorem trackedAt_recordAbsence_self (now : ℕ) (owned : Readings) (draft : Draft) :
    trackedAt (recordAbsence now owned draft).episode progressSource =
      if progressWitnessed draft.episode ∧ owned.get progressSource = none then
        (some ((draft.episode.unavailableSince progressSource).getD now),
          draft.episode.evidenceCursors progressSource)
      else trackedAt draft.episode progressSource := by
  unfold recordAbsence trackedAt
  cases hdark : draft.episode.unavailableSince progressSource <;>
    cases hread : owned.get progressSource <;>
    by_cases hwit : progressWitnessed draft.episode <;>
    simp [hdark, hwit]

/-! ### The whole recording stage -/

/-- Since when the progress source is dark once a batch has been recorded. It is dark when it
answered that it cannot answer, and when it had been heard from and said nothing. -/
def darkAfter (now : ℕ) (owned : Readings) (episode : VitalityEpisode) : Option ℕ :=
  match owned.get progressSource with
  | some reading => if reading.answered then none
    else some ((episode.unavailableSince progressSource).getD now)
  | none => if progressWitnessed episode then
      some ((episode.unavailableSince progressSource).getD now)
    else episode.unavailableSince progressSource

/-- The cursor on file for the progress source once a batch has been recorded. -/
def progressCursorAfter (owned : Readings) (episode : VitalityEpisode) :
    Option (BoundedText cursorLimit) :=
  match owned.get progressSource with
  | some reading => if reading.answered then
      reading.presentCursor.or (episode.evidenceCursors progressSource)
    else episode.evidenceCursors progressSource
  | none => episode.evidenceCursors progressSource

/-- What the recording stage makes of an episode. -/
structure Recorded (tick : Tick) (owned : Readings) (episode draft : VitalityEpisode) : Prop
    extends SameClocks (unfreezeIfResumed episode owned tick.now) draft where
  dark : draft.unavailableSince progressSource = darkAfter tick.now owned episode
  cursor : draft.evidenceCursors progressSource = progressCursorAfter owned episode
  turn : draft.turnEndedAt = (recordTurn tick.now owned episode).turnEndedAt

/-- What an episode keeps of the turn. -/
def turnKept (episode : VitalityEpisode) : RecordedTurn × ℕ :=
  (episode.lastTurn, episode.turnEndedAt)

/-- Resuming moves the clocks only. -/
@[simp] theorem unfreezeIfResumed_kept (episode : VitalityEpisode) (owned : Readings) (now : ℕ) :
    (unfreezeIfResumed episode owned now).unavailableSince = episode.unavailableSince ∧
      (unfreezeIfResumed episode owned now).evidenceCursors = episode.evidenceCursors ∧
      (unfreezeIfResumed episode owned now).lastProgressSource = episode.lastProgressSource ∧
      turnKept (unfreezeIfResumed episode owned now) = turnKept episode := by
  unfold unfreezeIfResumed
  split_ifs <;> exact ⟨rfl, rfl, rfl, rfl⟩

section

variable (now : ℕ) (owned : Readings) (draft : Draft)

/-- The availability loop and the absence rule, seen from the progress source. -/
theorem trackedAt_progressSource :
    trackedAt (recordAbsence now owned
        (owned.sortedEntries.foldl (recordAvailability now) draft)).episode progressSource =
      (darkAfter now owned draft.episode, progressCursorAfter owned draft.episode) := by
  have hloop := trackedAt_foldl_recordAvailability now progressSource owned.sortedEntries
    owned.sortedEntries_nodup draft
  have hsrc := (sameClocks_foldl_recordAvailability now owned.sortedEntries draft).lastProgressSource
  rw [owned.find?_sortedEntries] at hloop
  rw [trackedAt_recordAbsence_self]
  generalize (owned.sortedEntries.foldl (recordAvailability now) draft).episode = heard at *
  unfold darkAfter progressCursorAfter
  cases hread : owned.get progressSource with
  | some rd =>
    rw [hread, Option.elim_some] at hloop
    rw [if_neg (by simp), hloop]
    unfold trackReading trackedAt
    cases havailable : rd.availability <;> simp [VitalitySnapshot.answered, havailable]
  | none =>
    rw [hread, Option.elim_none] at hloop
    have hdark : heard.unavailableSince progressSource =
        draft.episode.unavailableSince progressSource := congrArg Prod.fst hloop
    have hcursor : heard.evidenceCursors progressSource =
        draft.episode.evidenceCursors progressSource := congrArg Prod.snd hloop
    simp only [progressWitnessed, hcursor, hsrc, hdark, trackedAt, and_true]
    split_ifs with hwit <;> simp [hwit]

theorem turnKept_recordTurn_congr {first second : VitalityEpisode} (hturn : turnKept first = turnKept second) :
    turnKept (recordTurn now owned first) = turnKept (recordTurn now owned second) := by
  simp only [turnKept, Prod.mk.injEq] at hturn ⊢
  unfold recordTurn
  split
  · exact hturn
  · split <;> simp [hturn]

/-- The availability loop and the absence rule do not touch the recorded turn. -/
theorem turnKept_recordAbsence_foldl (snapshots : List VitalitySnapshot) :
    turnKept (recordAbsence now owned (snapshots.foldl (recordAvailability now) draft)).episode =
      turnKept draft.episode := by
  have habs (heard : Draft) : turnKept (recordAbsence now owned heard).episode = turnKept heard.episode := by
    unfold recordAbsence
    dsimp only
    split <;> rfl
  rw [habs]
  induction snapshots generalizing draft with
  | nil => rfl
  | cons snapshot _ ih =>
    rw [List.foldl_cons, ih]
    unfold recordAvailability
    cases snapshot.availability with
    | available => rfl
    | unavailable =>
      dsimp only
      split <;> rfl

theorem trackedAt_recordChild_recordTurn (episode : VitalityEpisode) (source : SnapshotSource) :
    trackedAt (recordChild owned (recordTurn now owned episode)) source =
      trackedAt episode source := by
  unfold recordChild recordTurn trackedAt
  repeat' split
  all_goals rfl

end

/-- Of a batch, only its turn reading moves the turn on file. -/
theorem turnKept_recordReadings (tick : Tick) (owned : Readings) (opened : Draft) :
    turnKept (recordReadings tick owned opened).episode = turnKept (recordTurn tick.now owned opened.episode) := by
  have hchild (episode : VitalityEpisode) : turnKept (recordChild owned episode) = turnKept episode := by
    unfold recordChild
    split <;> rfl
  refine (hchild _).trans (turnKept_recordTurn_congr tick.now owned ?_)
  exact (turnKept_recordAbsence_foldl tick.now owned _ _).trans (unfreezeIfResumed_kept _ _ _).2.2.2

/-- The recording stage does to an episode what `Recorded` says. -/
theorem recorded_recordReadings (tick : Tick) (owned : Readings) (opened : Draft) :
    Recorded tick owned opened.episode (recordReadings tick owned opened).episode := by
  let resumed : Draft :=
    { opened with episode := unfreezeIfResumed opened.episode owned tick.now }
  let heard := recordAbsence tick.now owned (owned.sortedEntries.foldl (recordAvailability tick.now) resumed)
  have htracked : trackedAt (recordReadings tick owned opened).episode progressSource =
      (darkAfter tick.now owned opened.episode, progressCursorAfter owned opened.episode) := by
    have hheard := trackedAt_progressSource tick.now owned resumed
    have hlast := trackedAt_recordChild_recordTurn tick.now owned heard.episode progressSource
    refine (hlast.trans hheard).trans ?_
    simp [resumed, darkAfter, progressCursorAfter, progressWitnessed]
  have hclock : SameClocks resumed.episode (recordReadings tick owned opened).episode := by
    have hchild : SameClocks resumed.episode (recordChild owned (recordTurn tick.now owned heard.episode)) :=
      (((sameClocks_foldl_recordAvailability tick.now owned.sortedEntries resumed).trans
        (sameClocks_recordAbsence tick.now owned _)).trans
        (sameClocks_recordTurn tick.now owned _)).trans (sameClocks_recordChild owned _)
    exact hchild.trans (by constructor <;> rfl)
  exact { hclock with
    dark := congrArg Prod.fst htracked
    cursor := congrArg Prod.snd htracked
    turn := congrArg Prod.snd (turnKept_recordReadings tick owned opened) }

/-- What recording a batch makes of a stored episode. -/
def recordedEpisode (tick : Tick) (owned : Readings) (episode : VitalityEpisode) :
    VitalityEpisode :=
  (recordReadings tick owned ⟨episode, []⟩).episode

section

variable (now : ℕ) (owned : Readings) (episode : VitalityEpisode) (basis : List String)

theorem basis_recordAvailability (snapshot : VitalitySnapshot) :
    recordAvailability now ⟨episode, basis⟩ snapshot =
      ⟨(recordAvailability now ⟨episode, []⟩ snapshot).episode,
        basis ++ (recordAvailability now ⟨episode, []⟩ snapshot).basis⟩ := by
  cases havail : snapshot.availability with
  | available => simp [recordAvailability, havail]
  | unavailable =>
    by_cases hnew : (episode.unavailableSince snapshot.source).isNone = true <;>
      simp [recordAvailability, havail, hnew]

theorem basis_foldl_recordAvailability (snapshots : List VitalitySnapshot) :
    snapshots.foldl (recordAvailability now) ⟨episode, basis⟩ =
      ⟨(snapshots.foldl (recordAvailability now) ⟨episode, []⟩).episode,
        basis ++ (snapshots.foldl (recordAvailability now) ⟨episode, []⟩).basis⟩ := by
  induction snapshots generalizing episode basis with
  | nil => simp
  | cons snap _ ih =>
    rw [List.foldl_cons, List.foldl_cons, basis_recordAvailability, ih,
      ih (recordAvailability now ⟨episode, []⟩ snap).episode (recordAvailability now ⟨episode, []⟩ snap).basis,
      List.append_assoc]

theorem basis_recordAbsence :
    recordAbsence now owned ⟨episode, basis⟩ =
      ⟨(recordAbsence now owned ⟨episode, []⟩).episode, basis ++ (recordAbsence now owned ⟨episode, []⟩).basis⟩ := by
  simp only [recordAbsence]
  split_ifs <;> simp

end

/-- What a reduction records comes after the provenance it starts with, and does not depend on it. -/
theorem recordReadings_basis (tick : Tick) (owned : Readings) (episode : VitalityEpisode) (basis : List String) :
    recordReadings tick owned ⟨episode, basis⟩ =
      ⟨(recordReadings tick owned ⟨episode, []⟩).episode,
        basis ++ (recordReadings tick owned ⟨episode, []⟩).basis⟩ := by
  simp only [recordReadings]
  rw [basis_foldl_recordAvailability, basis_recordAbsence,
    basis_recordAbsence tick.now owned _ (owned.sortedEntries.foldl (recordAvailability tick.now) _).basis]
  simp only [List.append_assoc]

theorem recordReadings_episode (tick : Tick) (owned : Readings) (opened : Draft) :
    (recordReadings tick owned opened).episode = recordedEpisode tick owned opened.episode := by
  rw [recordReadings_basis tick owned opened.episode opened.basis, recordedEpisode]

/-! ### Inverting a reduction -/

/-- Every reading of a tick is about one run. -/
def Tick.OfRun (tick : Tick) (run : RunId) : Prop :=
  ∀ snapshot ∈ tick.snapshots, snapshot.runId = run

instance (tick : Tick) (run : RunId) : Decidable (tick.OfRun run) :=
  inferInstanceAs (Decidable (∀ snapshot ∈ tick.snapshots, snapshot.runId = run))

/-- Some reading of a tick names a run. -/
def Tick.Names (tick : Tick) (run : RunId) : Prop :=
  ∃ snapshot ∈ tick.snapshots, snapshot.runId = run

theorem mem_runIdsOf {snapshots : List VitalitySnapshot} {run : RunId} :
    run ∈ runIdsOf snapshots ↔ ∃ snapshot ∈ snapshots, snapshot.runId = run := by
  simp [runIdsOf, List.mem_insertionSort]

/-- The run a reduction speaks about is named by its batch, and is the stored one when the batch
names that. -/
theorem resolveRunId_spec (previous : Option VitalityEpisode) (first : VitalitySnapshot)
    (rest : List VitalitySnapshot) :
    (∃ snapshot ∈ first :: rest, snapshot.runId = (resolveRunId previous first rest).1) ∧
      ∀ episode, previous = some episode →
        (∃ snapshot ∈ first :: rest, snapshot.runId = episode.runId) →
          (resolveRunId previous first rest).1 = episode.runId := by
  have hfall : (runIdsOf (first :: rest)).headD first.runId ∈ runIdsOf (first :: rest) := by
    have hfst : first.runId ∈ runIdsOf (first :: rest) :=
      mem_runIdsOf.mpr ⟨first, List.mem_cons_self, rfl⟩
    cases hruns : runIdsOf (first :: rest) with
    | nil => simp [hruns] at hfst
    | cons _ _ => simp
  rw [← mem_runIdsOf]
  cases previous with
  | none => exact ⟨hfall, by simp⟩
  | some row =>
    simp only [← mem_runIdsOf, Option.some.injEq, forall_eq']
    by_cases hnamed : row.runId ∈ runIdsOf (first :: rest)
    · have hpick : (resolveRunId (some row) first rest).1 = row.runId := by
        simp [resolveRunId, hnamed]
      exact ⟨hpick ▸ hnamed, fun _ ↦ hpick⟩
    · have hpick : (resolveRunId (some row) first rest).1 =
          (runIdsOf (first :: rest)).headD first.runId := by
        simp [resolveRunId, hnamed]
      exact ⟨hpick ▸ hfall, fun hnames ↦ absurd hnames hnamed⟩

/-- A reduction of a batch about some run: a closed ruling on a recorded draft. -/
structure Reduces (previous : Option VitalityEpisode) (tick : Tick) (run : RunId)
    (draft episode : VitalityEpisode) : Prop where
  named : tick.Names run
  continues : ∀ stored, previous = some stored → tick.Names stored.runId → run = stored.runId
  drafted : draft = recordedEpisode tick (ownedReadings run tick.snapshots) (openEpisode previous run tick.now)
  recorded : Recorded tick (ownedReadings run tick.snapshots) (openEpisode previous run tick.now) draft
  closed : ∃ basis, episode = closeEpisode tick (ownedReadings run tick.snapshots) basis
    (concludeReadings tick (ownedReadings run tick.snapshots) draft)

/-- A successful reduction looked at nothing, or closes a ruling on a recorded draft. -/
theorem reduceVitality_cases {previous : Option VitalityEpisode} {tick : Tick}
    {episode : VitalityEpisode} (hred : reduceVitality previous tick = .ok episode) :
    (tick.snapshots = [] ∧ previous = some episode) ∨
      ∃ run draft, Reduces previous tick run draft episode := by
  cases hsnaps : tick.snapshots with
  | nil =>
    cases previous with
    | none => simp [reduceVitality, hsnaps] at hred
    | some _ =>
      simp only [reduceVitality, hsnaps, Except.ok.injEq] at hred
      exact .inl ⟨rfl, congrArg some hred⟩
  | cons first rest =>
    simp only [reduceVitality, hsnaps, Except.ok.injEq] at hred
    have hspec := resolveRunId_spec previous first rest
    rw [← hsnaps] at hspec
    let resolved := resolveRunId previous first rest
    let opened : Draft :=
      ⟨openEpisode previous resolved.1 tick.now, identityBasis previous resolved⟩
    let owned := tick.owned resolved.1
    refine .inr ⟨resolved.1, _, hspec.1, hspec.2, recordReadings_episode tick owned opened,
      recorded_recordReadings tick owned opened, (recordReadings tick owned opened).basis, ?_⟩
    have hbatch : reduceBatch previous tick first rest = closeEpisode tick owned
        (recordReadings tick owned opened).basis
        (concludeReadings tick owned (recordReadings tick owned opened).episode) := by
      simp only [owned, Tick.owned, hsnaps]
      rfl
    exact hred.symm.trans hbatch

/-- A tick with something to say about one run always reduces. -/
theorem exists_reduces_of_ofRun (previous : Option VitalityEpisode) {tick : Tick} {run : RunId}
    (hrun : tick.OfRun run) (hsnaps : tick.snapshots ≠ []) :
    ∃ draft episode, reduceVitality previous tick = .ok episode ∧
      Reduces previous tick run draft episode := by
  obtain ⟨first, rest, hcons⟩ := List.exists_cons_of_ne_nil hsnaps
  have hreduce : reduceVitality previous tick = .ok (reduceBatch previous tick first rest) := by
    simp [reduceVitality, hcons]
  rcases reduceVitality_cases hreduce with ⟨hnil, -⟩ | ⟨named, draft, hred⟩
  · exact absurd hnil hsnaps
  · obtain ⟨snapshot, hmem, hsame⟩ := hred.named
    have hnamed : named = run := hsame.symm.trans (hrun snapshot hmem)
    subst hnamed
    exact ⟨draft, _, hreduce, hred⟩

theorem mem_of_mem_ownedReadings {run : RunId} {snapshots : List VitalitySnapshot}
    (hmem : snapshot ∈ (ownedReadings run snapshots).entries) :
    snapshot ∈ snapshots ∧ snapshot.runId = run := by
  simpa using List.mem_filter.mp (mem_of_mem_latestPerSource hmem)

variable {snapshots : List VitalitySnapshot}

theorem entries_foldl_keep (owned : Readings)
    (hnodup : (owned.entries.map (·.source) ++ snapshots.map (·.source)).Nodup) :
    (snapshots.foldl Readings.keep owned).entries = owned.entries ++ snapshots := by
  induction snapshots generalizing owned with
  | nil => simp
  | cons snap _ ih =>
    have hnew : owned.get snap.source = none := by
      rw [Readings.get, List.find?_eq_none]
      intro e hent hsrc
      rw [List.nodup_append] at hnodup
      exact hnodup.2.2 _ (List.mem_map_of_mem hent) _ (List.mem_map_of_mem List.mem_cons_self) (by simpa using hsrc)
    have hkeep : (owned.keep snap).entries = owned.entries ++ [snap] := by
      unfold Readings.keep
      split
      · rfl
      · rename_i _ hknown
        rw [hnew] at hknown
        cases hknown
    rw [List.foldl_cons, ih, hkeep, List.append_assoc, List.singleton_append]
    rw [hkeep]
    simpa using hnodup

/-- Nothing of a batch with one reading per channel is dropped. -/
theorem entries_latestPerSource (hnodup : (snapshots.map (·.source)).Nodup) :
    (latestPerSource snapshots).entries = snapshots :=
  entries_foldl_keep .empty (by simpa [Readings.empty] using hnodup)

end Ummanu.Vitality
