import Ummanu.Vitality.Confirmation

/-!
# The destructive guard

`head_vitality_guard.py` rules on every step that stops, kills or replaces a head. Only a confirmed
stall and death pass, and a confirmed stall that no progress source is answering for is held until
the outer ceiling of the role has elapsed. `assertDestructiveAllowed` is that ruling.

A step below the ceiling needs a second live channel: the provider cursor or the supervisor
journal. The guard infers the channel from what the reducer left on the episode, and the two
disagree about one shape. Progress seen on the journal counts as witnessing, but only the provider
is recorded dark when it falls silent. `guard_secondChannel_iff` says that this shape,
`SilentJournal`, is the only one: the guard lets a step pass on the process alone exactly when the
last reduction was of that shape. `journalProgress_thenPidOnly_allowed` is such a run.
-/

set_option autoImplicit false

namespace Ummanu.Vitality

open Library

/-! ### The ruling -/

inductive GuardRefusal
  | missingEpisode | foreignRun | healthyActive | healthyQuiet | suspended | retained
  | unverifiable | suspectedStall | pidOnlyCeilingUnelapsed
deriving DecidableEq, Repr

/-- The verdicts that never ground a destructive step, with the refusal and its words. -/
def refusedVerdict : VitalityVerdict → Option (GuardRefusal × String)
  | .healthyActive => some (.healthyActive, "the head is advancing right now")
  | .healthyQuiet =>
    some (.healthyQuiet, "the head is alive and quiet below every stall threshold")
  | .unverifiable =>
    some (.unverifiable, "no strong channel answered; nothing is concluded")
  | .suspended => some (.suspended,
      "the process is parked on a stop signal: SIGCONT territory, not kill territory")
  | .retained => some (.retained, "the dispatcher's own confirmed retention is holding this " ++
      "process: not a head to recover")
  | .suspectedStall =>
    some (.suspectedStall, "suspicion authorises one idempotent nudge, never destruction")
  | .confirmedStall | .dead => none

structure GuardDecision where
  action : String
  allowed : Bool
  refusal : Option GuardRefusal := none
  reason : String := ""
  verdict : Option VitalityVerdict := none
  episodeRunId : String := ""
deriving DecidableEq, Repr

section

variable (episode : VitalityEpisode) (action : String) (now : ℕ)

/-- The progress source is recorded dark. -/
def progressSourceDark : Bool :=
  (episode.unavailableSince progressSource).isSome

/-- A progress source answered for this episode and is still answering. -/
def progressSourceAnswering : Bool :=
  ((episode.evidenceCursors progressSource).isSome || 0 < episode.lastProgressAt) && !progressSourceDark episode

def refused (refusal : GuardRefusal) (reason : String) (episode : Option VitalityEpisode) : GuardDecision :=
  { action := action
    allowed := false
    refusal := some refusal
    reason := reason
    verdict := episode.map (·.verdict)
    episodeRunId := (episode.map (·.runId.text)).getD "" }

/-- The provenance of an episode, as the ruling prints it. -/
def basisText : String :=
  if episode.basis.tokens.isEmpty then "none"
  else ", ".intercalate (episode.basis.tokens.map (·.text))

/-- A confirmed stall on the process alone waits for the outer ceiling. -/
def heldByCeiling (now ceiling : ℕ) : Bool :=
  episode.verdict = .confirmedStall && !progressSourceAnswering episode && 0 < ceiling &&
    now - episode.startedAt < ceiling

/-- Rule on one destructive step against the stored verdict. -/
def assertDestructiveAllowed (episode : Option VitalityEpisode) (action : String) (now : ℕ)
    (currentRunId : String) (ceiling : ℕ) : GuardDecision :=
  match episode with
  | none => refused action .missingEpisode ("no vitality episode is on file; a destructive step " ++
      "nobody observed would act on nobody's evidence") none
  | some episode =>
    if currentRunId ≠ "" ∧ episode.runId.text ≠ currentRunId then
      refused action .foreignRun ("the persisted episode names run " ++ episode.runId.text ++
        ", not the current run " ++ currentRunId ++
        ": one run's stall verdict must never execute against its replacement") (some episode)
    else match refusedVerdict episode.verdict with
    | some (refusal, why) =>
      refused action refusal (why ++ " (basis: " ++ basisText episode ++ ")") (some episode)
    | none =>
      if heldByCeiling episode now ceiling then
        let earnedOn := if progressSourceDark episode then
            "with " ++ progressSource.value ++ " dark (secretary-1543 arm)"
          else "on the pid alone (issue 656 arm)"
        refused action .pidOnlyCeilingUnelapsed ("confirmation was earned " ++ earnedOn ++
          ", so the outer ceiling of " ++ secondsText ceiling ++ " must also have elapsed (" ++
          secondsText (now - episode.startedAt) ++ " have)") (some episode)
      else
        { action := action
          allowed := true
          verdict := some episode.verdict
          episodeRunId := episode.runId.text
          reason := episode.verdict.value ++ " stands (basis: " ++ basisText episode ++ ")" }

/-- What the guard lets pass: a verdict that may ground destruction, on the caller's run, and not
held by the ceiling. -/
theorem assertDestructiveAllowed_allowed_iff (currentRunId : String) (ceiling : ℕ) :
    (assertDestructiveAllowed (some episode) action now currentRunId ceiling).allowed = true ↔
      (currentRunId = "" ∨ episode.runId.text = currentRunId) ∧
        (episode.verdict = .confirmedStall ∨ episode.verdict = .dead) ∧
        heldByCeiling episode now ceiling = false := by
  have hverd : refusedVerdict episode.verdict = none ↔
      episode.verdict = .confirmedStall ∨ episode.verdict = .dead := by
    cases episode.verdict <;> simp [refusedVerdict]
  unfold assertDestructiveAllowed
  dsimp only
  by_cases hfor : currentRunId ≠ "" ∧ episode.runId.text ≠ currentRunId
  · rw [if_pos hfor]
    simp only [refused, Bool.false_eq_true, false_iff]
    exact fun hallow ↦ hallow.1.elim hfor.1 hfor.2
  · rw [if_neg hfor]
    have hrun : currentRunId = "" ∨ episode.runId.text = currentRunId := by
      by_contra hneither
      exact hfor (not_or.mp hneither)
    rw [← hverd]
    cases hdeny : refusedVerdict episode.verdict with
    | some _ => simp [refused]
    | none =>
      by_cases hheld : heldByCeiling episode now ceiling = true
      · simp [hheld, refused]
      · simp [hheld, hrun]

end

/-! ### What the guard reads off a reduced episode -/

/-- A channel answered in a batch. -/
def answeredBy (owned : Readings) (source : SnapshotSource) : Bool :=
  (owned.get source).any (·.answered)

/-- A channel that bears progress answered about a run: the provider cursor or the supervisor
journal. -/
def Tick.ProgressAnswered (tick : Tick) (run : RunId) : Prop :=
  answeredBy (ownedReadings run tick.snapshots) .providerCursor = true ∨
    answeredBy (ownedReadings run tick.snapshots) .supervisorJournal = true

/-- The shape the guard misreads. The batch has no provider reading and no answer of the
supervisor journal, while the episode it continues has seen progress, has never heard from the
provider, and does not record it dark. -/
def SilentJournal (stored : Option VitalityEpisode) (tick : Tick) (run : RunId) : Prop :=
  (ownedReadings run tick.snapshots).get .providerCursor = none ∧
    answeredBy (ownedReadings run tick.snapshots) .supervisorJournal = false ∧
    0 < (openEpisode stored run tick.now).lastProgressAt ∧
    progressWitnessed (openEpisode stored run tick.now) = false ∧
    (openEpisode stored run tick.now).unavailableSince .providerCursor = none

/-- Moving a stamp past a parked span keeps whether it was set. -/
theorem unfreezeIfResumed_lastProgressAt_pos {now : ℕ} (hclock : 0 < now)
    (episode : VitalityEpisode) (owned : Readings) :
    0 < (unfreezeIfResumed episode owned now).lastProgressAt ↔ 0 < episode.lastProgressAt := by
  unfold unfreezeIfResumed
  split_ifs
  · rfl
  · rfl
  · simp only [shiftStamp]
    split_ifs <;> omega

section LastReduction

variable {stored : Option VitalityEpisode} {tick : Tick} {run : RunId}
  {draft episode : VitalityEpisode} (hred : Reduces stored tick run draft episode)
include hred

theorem Reduces.unavailableSince_progressSource :
    episode.unavailableSince progressSource =
      darkAfter tick.now (tick.owned run) (openEpisode stored run tick.now) := by
  rw [hred.untouched.unavailableSince, hred.recorded.dark]

theorem Reduces.evidenceCursors_progressSource :
    episode.evidenceCursors progressSource = progressCursorAfter
      (tick.owned run) (openEpisode stored run tick.now) := by
  rw [hred.untouched.evidenceCursors, hred.recorded.cursor]

theorem Reduces.lastProgressAt_of_confirmed (hconf : episode.verdict = .confirmedStall) :
    episode.lastProgressAt = (unfreezeIfResumed (openEpisode stored run tick.now)
      (tick.owned run) tick.now).lastProgressAt := by
  have hprog := hred.sameProgress (by rw [hconf]; simp)
  rw [hprog.lastProgressAt, hred.recorded.lastProgressAt]

/-- In the misread shape the guard takes the progress source to be answering. -/
theorem Reduces.answering_of_silentJournal (hclock : 0 < tick.now)
    (hconf : episode.verdict = .confirmedStall) (hmute : SilentJournal stored tick run) :
    progressSourceAnswering episode = true := by
  obtain ⟨hprov, -, hprog, hwit, hdark⟩ := hmute
  have hlast : 0 < episode.lastProgressAt := by
    rw [hred.lastProgressAt_of_confirmed hconf, unfreezeIfResumed_lastProgressAt_pos hclock]
    exact hprog
  have hanswers : episode.unavailableSince progressSource = none := by
    rw [hred.unavailableSince_progressSource, darkAfter, progressSource, hprov]
    simp [hwit, hdark]
  simp [progressSourceAnswering, progressSourceDark, hlast, hanswers]

/-- When the guard takes the progress source to be answering, a progress channel answered, or the
reduction was of the misread shape. -/
theorem Reduces.progressAnswered_or_silentJournal (hclock : 0 < tick.now) (hconf : episode.verdict = .confirmedStall)
    (hansw : progressSourceAnswering episode = true) :
    tick.ProgressAnswered run ∨ SilentJournal stored tick run := by
  simp only [progressSourceAnswering, progressSourceDark, Bool.and_eq_true, Bool.or_eq_true,
    decide_eq_true_eq, Bool.not_eq_true', Option.isSome_eq_false_iff, Option.isNone_iff_eq_none,
    hred.unavailableSince_progressSource, hred.evidenceCursors_progressSource,
    hred.lastProgressAt_of_confirmed hconf,
    unfreezeIfResumed_lastProgressAt_pos hclock] at hansw
  obtain ⟨hwitness, hdark⟩ := hansw
  unfold darkAfter at hdark
  unfold progressCursorAfter at hwitness
  cases hprov : (tick.owned run).get progressSource with
  | some rd =>
    rw [hprov] at hdark
    have hans : rd.answered = true := by
      by_contra hnot
      simp [hnot] at hdark
    refine .inl (.inl ?_)
    rw [answeredBy, ← progressSource, hprov]
    exact hans
  | none =>
    rw [hprov] at hdark hwitness
    by_cases hwit : progressWitnessed (openEpisode stored run tick.now) = true
    · simp [hwit] at hdark
    · simp only [hwit, Bool.false_eq_true, if_false] at hdark
      have hcursor : (openEpisode stored run tick.now).evidenceCursors progressSource = none := by
        simp only [progressWitnessed, Bool.or_eq_true, not_or] at hwit
        simpa using hwit.1
      have hprog : 0 < (openEpisode stored run tick.now).lastProgressAt := by
        simpa [hcursor] using hwitness
      cases hjour :
          answeredBy (tick.owned run) .supervisorJournal with
      | true => exact .inl (.inr hjour)
      | false => exact .inr ⟨hprov, hjour, hprog, by simpa using hwit, hdark⟩

end LastReduction

/-! ### The second channel -/

/-- For every run of reductions that ends confirmed, the guard asks for a second live channel
below the ceiling exactly when the last reduction that looked at anything was not of the misread
shape.

Assumes: the clock of that reduction is positive. -/
theorem guard_secondChannel_iff {before idle : List Tick} {tick : Tick}
    {episode : VitalityEpisode} (hlast : tick.snapshots ≠ [])
    (hidle : ∀ later ∈ idle, later.snapshots = []) (hclock : 0 < tick.now)
    (hrun : (before ++ tick :: idle).foldl storeReduction none = some episode)
    (hconfirmed : episode.verdict = .confirmedStall) :
    (∀ action now currentRunId ceiling, 0 < ceiling → now - episode.startedAt < ceiling →
      (assertDestructiveAllowed (some episode) action now currentRunId ceiling).allowed = true →
        tick.ProgressAnswered episode.runId) ↔
      ¬ SilentJournal (before.foldl storeReduction none) tick episode.runId := by
  rw [List.foldl_append, List.foldl_cons, foldl_storeReduction_of_nil hidle] at hrun
  generalize before.foldl storeReduction none = stored at hrun ⊢
  obtain ⟨red, hdisk, hreduce⟩ := storeReduction_of_ne_nil hlast stored
  obtain rfl : red = episode := Option.some.inj (hdisk.symm.trans hrun)
  obtain ⟨hnil, -⟩ | ⟨_, _, hred⟩ := reduceVitality_cases hreduce
  · exact absurd hnil hlast
  · rw [hred.runId_eq]
    constructor
    · intro hsnd hmute
      have hallow : (assertDestructiveAllowed (some red) "" 0 "" 1).allowed = true := by
        rw [assertDestructiveAllowed_allowed_iff]
        refine ⟨.inl rfl, .inl hconfirmed, ?_⟩
        simp [heldByCeiling, hred.answering_of_silentJournal hclock hconfirmed hmute]
      rcases hsnd "" 0 "" 1 (by omega) (by omega) hallow with hprov | hjour
      · simp [answeredBy, hmute.1] at hprov
      · simp [hmute.2.1] at hjour
    · intro hmute _ _ _ _ hceil helapsed hallow
      rw [assertDestructiveAllowed_allowed_iff] at hallow
      have hansw : progressSourceAnswering red = true := by
        simpa [heldByCeiling, hconfirmed, hceil, helapsed] using hallow.2.2
      exact (hred.progressAnswered_or_silentJournal hclock hconfirmed hansw).resolve_right
        hmute

/-- A provider cursor that is read at a second and has the given progress. -/
def providerTick (now : ℕ) (progress : ProgressState) : Tick :=
  { snapshots :=
      [.ofHeartbeat sampleRun (seconds now) .running,
        .ofProvider sampleRun (seconds now) progress (.clip _ "cursor-1")]
    now := seconds now }

/-- A stall confirmed on a provider that keeps answering. -/
def providerStall : VitalityEpisode :=
  (([providerTick 1000 .unknown] ++ providerTick 1900 .quiet :: []).foldl storeReduction none).get (by decide +kernel)

theorem guard_secondChannel_iff_witness :
    providerStall.verdict = .confirmedStall ∧
      ¬ SilentJournal ([providerTick 1000 .unknown].foldl storeReduction none)
        (providerTick 1900 .quiet) providerStall.runId :=
  ⟨by decide +kernel,
    (guard_secondChannel_iff (by decide) (by decide) (by decide) (Option.some_get _).symm
      (by decide +kernel)).mp fun _ _ _ _ _ _ _ ↦ .inl (by decide +kernel)⟩

/-- Twenty minutes of a head whose provider never answers: the journal is read at second 1000,
moves at 1060, and is gone afterwards. -/
def silentJournalTicks : List Tick :=
  [journalTick .active 900 1000 .unknown, journalTick .active 900 1060 .advancing]

/-- The process alone, fifteen minutes after the last progress. -/
def pidOnlyTick : Tick :=
  { snapshots := [.ofHeartbeat sampleRun (seconds 1960) .running]
    now := seconds 1960
    answerOwedSince := seconds 100
    adapter := "claude" }

/-- The stall confirmed on the process alone. -/
def pidOnlyStall : VitalityEpisode :=
  ((silentJournalTicks ++ [pidOnlyTick]).foldl storeReduction none).get (by decide +kernel)

/-- The guard lets a worker be respawned on the process alone, fifteen minutes into an outer
ceiling of six hours. -/
theorem journalProgress_thenPidOnly_allowed :
    pidOnlyStall.verdict = .confirmedStall ∧ seconds 1960 - pidOnlyStall.startedAt < seconds 21600 ∧
      (assertDestructiveAllowed (some pidOnlyStall) "worker-respawn" (seconds 1960) "run-a"
        (seconds 21600)).allowed = true ∧
      ¬ pidOnlyTick.ProgressAnswered pidOnlyStall.runId :=
  ⟨by decide +kernel, by decide +kernel, by decide +kernel, by
    simp only [Tick.ProgressAnswered]
    decide +kernel⟩

end Ummanu.Vitality
