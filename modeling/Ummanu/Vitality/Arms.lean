import Ummanu.Vitality.Recording

/-!
# Which arm decides, and what an arm leaves alone

`selectArm_spec` gives, for the arm that decides a reduction, the guards it passed on the way:
`ArmSpec` has one constructor per arm, with the failed guards of the arms before it. The reducer's
case analysis is done on that and never on the nested conditionals.

`Untouched` lists the fields that no arm writes. `untouched_concludeReadings` and the lemmas on
`raiseOwedAnswer` and `closeEpisode` carry facts about a draft to the stored episode.
-/

set_option autoImplicit false

namespace Ummanu.Vitality

open Library

variable {draft episode : VitalityEpisode} {owned : Readings} {previous : Option VitalityEpisode} {run : RunId}

/-! ### The guards -/

/-- The arm that decides, with the guards that were passed to reach it. -/
inductive ArmSpec (tick : Tick) (owned : Readings) (episode : VitalityEpisode) : Arm → Prop
  | dead (sources : List SnapshotSource) (hdead : showsDead owned = true) :
      ArmSpec tick owned episode (.dead sources)
  | suspended (byHeartbeat : Bool) (hdead : showsDead owned = false)
      (hsusp : showsSuspended owned = true) :
      ArmSpec tick owned episode (.suspended byHeartbeat)
  | advancing (latest : VitalitySnapshot) (hdead : showsDead owned = false)
      (hsusp : showsSuspended owned = false)
      (hadv : latestAdvancing owned = some latest) :
      ArmSpec tick owned episode (.advancing latest)
  | idleTurn (journal : VitalitySnapshot) (hdead : showsDead owned = false)
      (hsusp : showsSuspended owned = false) (hadv : latestAdvancing owned = none)
      (hjournal : idleTurnJournal tick owned = some journal) :
      ArmSpec tick owned episode (.idleTurn journal)
  | childHold (claim : ChildClaim) (hdead : showsDead owned = false)
      (hsusp : showsSuspended owned = false) (hadv : latestAdvancing owned = none)
      (hjournal : idleTurnJournal tick owned = none)
      (hclaim : Vitality.childHold tick.thresholds (childClaim owned episode) = some claim) :
      ArmSpec tick owned episode (.childHold claim)
  | providerQuiet (latest : VitalitySnapshot) (hdead : showsDead owned = false)
      (hsusp : showsSuspended owned = false) (hadv : latestAdvancing owned = none)
      (hjournal : idleTurnJournal tick owned = none)
      (hclaim : Vitality.childHold tick.thresholds (childClaim owned episode) = none)
      (hlatest : latestEvidence owned = some latest) :
      ArmSpec tick owned episode (.providerQuiet latest)
  | noProgressSource (sources : List SnapshotSource) (hdead : showsDead owned = false)
      (hsusp : showsSuspended owned = false) (hadv : latestAdvancing owned = none)
      (hjournal : idleTurnJournal tick owned = none)
      (hclaim : Vitality.childHold tick.thresholds (childClaim owned episode) = none)
      (hlatest : latestEvidence owned = none) (hstrong : strongReadings owned ≠ []) :
      ArmSpec tick owned episode (.noProgressSource sources)
  | allDark (hdead : showsDead owned = false)
      (hsusp : showsSuspended owned = false) (hadv : latestAdvancing owned = none)
      (hjournal : idleTurnJournal tick owned = none)
      (hclaim : Vitality.childHold tick.thresholds (childClaim owned episode) = none)
      (hlatest : latestEvidence owned = none) (hstrong : strongReadings owned = []) :
      ArmSpec tick owned episode .allDark

/-- The selected arm passed its guards. -/
theorem selectArm_spec (tick : Tick) (owned : Readings) (episode : VitalityEpisode) :
    ArmSpec tick owned episode (selectArm tick owned episode) := by
  unfold selectArm
  cases hdead : showsDead owned with
  | true => exact .dead _ hdead
  | false =>
    cases hsusp : showsSuspended owned with
    | true => exact .suspended _ hdead hsusp
    | false =>
      cases hadv : latestAdvancing owned with
      | some latest => exact .advancing latest hdead hsusp hadv
      | none =>
        cases hjour : idleTurnJournal tick owned with
        | some jr => exact .idleTurn jr hdead hsusp hadv hjour
        | none =>
          cases hclaim : Vitality.childHold tick.thresholds (childClaim owned episode) with
          | some claim => exact .childHold claim hdead hsusp hadv hjour hclaim
          | none =>
            cases hlat : latestEvidence owned with
            | some latest =>
              exact .providerQuiet latest hdead hsusp hadv hjour hclaim hlat
            | none =>
              by_cases hstr : strongReadings owned = []
              · simp only [hstr, List.isEmpty_nil, if_true, Bool.false_eq_true, if_false]
                exact .allDark hdead hsusp hadv hjour hclaim hlat hstr
              · simp only [List.isEmpty_iff, hstr, Bool.false_eq_true, if_false]
                exact .noProgressSource _ hdead hsusp hadv hjour hclaim hlat
                  hstr

theorem latestAdvancing_eq_none_iff :
    latestAdvancing owned = none ↔
      ∀ snapshot ∈ owned.entries, snapshot.strong → snapshot.progress ≠ .advancing := by
  rw [latestAdvancing, List.argmax_eq_none, List.filter_eq_nil_iff]
  constructor
  · intro hnone snapshot hmem hstr hadv
    refine hnone snapshot ?_ (by simpa using hadv)
    simp [progressEvidence, strongReadings, hmem, hstr, VitalitySnapshot.speaksOfProgress, hadv]
  · intro hnone snapshot hmem hadv
    have hstr : snapshot ∈ owned.entries ∧ snapshot.strong = true := by
      simpa [strongReadings] using List.mem_of_mem_filter hmem
    exact hnone snapshot hstr.1 hstr.2 (by simpa using hadv)

theorem latestEvidence_eq_none_iff : latestEvidence owned = none ↔ progressEvidence owned = [] := by
  rw [latestEvidence, List.argmax_eq_none]

/-- The heartbeat answers that the process runs. -/
def showsRunning (owned : Readings) : Bool :=
  (owned.get .pidHeartbeat).any fun heartbeat ↦
    heartbeat.answered && heartbeat.process = .running

theorem exists_heartbeat_of_showsRunning (hruns : showsRunning owned = true) :
    ∃ heartbeat ∈ strongReadings owned,
      heartbeat.source = .pidHeartbeat ∧ heartbeat.process = .running := by
  unfold showsRunning at hruns
  cases hget : owned.get .pidHeartbeat with
  | none => simp [hget] at hruns
  | some heartbeat =>
    obtain ⟨hmem, hsrc⟩ := Readings.mem_of_get hget
    simp only [hget, Option.any_some, Bool.and_eq_true, decide_eq_true_eq] at hruns
    refine ⟨heartbeat, List.mem_filter.mpr ⟨hmem, ?_⟩, hsrc, hruns.2⟩
    simp [VitalitySnapshot.strong, VitalitySnapshot.advisory, hruns.1, hsrc]

/-- A strong reading of a run's own is one of the batch, and its channel answered. -/
theorem mem_of_mem_strongReadings {snapshots : List VitalitySnapshot} {snapshot : VitalitySnapshot}
    (hmem : snapshot ∈ strongReadings (ownedReadings run snapshots)) :
    snapshot ∈ snapshots ∧ snapshot.answered = true := by
  obtain ⟨hent, hstr⟩ := List.mem_filter.mp hmem
  simp only [VitalitySnapshot.strong, Bool.and_eq_true] at hstr
  exact ⟨(mem_of_mem_ownedReadings hent).1, hstr.1.1⟩

theorem snapshots_ne_nil_of_strongReadings {snapshots : List VitalitySnapshot}
    (hstr : strongReadings (ownedReadings run snapshots) ≠ []) : snapshots ≠ [] := by
  obtain ⟨_, hmem⟩ := List.exists_mem_of_ne_nil _ hstr
  exact List.ne_nil_of_mem (mem_of_mem_strongReadings hmem).1

theorem strongReadings_ne_nil_of_showsSuspended (hsusp : showsSuspended owned = true) :
    strongReadings owned ≠ [] := by
  obtain ⟨_, hmem, -⟩ := List.any_eq_true.mp hsusp
  exact List.ne_nil_of_mem hmem

theorem showsDead_eq_false_iff :
    showsDead owned = false ↔ ∀ snapshot ∈ strongReadings owned, snapshot.process ≠ .dead := by
  simp [showsDead]

theorem showsSuspended_eq_false_iff :
    showsSuspended owned = false ↔
      ∀ snapshot ∈ strongReadings owned, snapshot.process ≠ .suspended := by
  simp [showsSuspended]

/-! ### Fields that no arm writes -/

/-- Two episodes that agree on every field no arm writes. -/
structure Untouched (before after : VitalityEpisode) : Prop where
  runId : after.runId = before.runId
  startedAt : after.startedAt = before.startedAt
  quietSince : after.quietSince = before.quietSince
  evidenceCursors : after.evidenceCursors = before.evidenceCursors
  unavailableSince : after.unavailableSince = before.unavailableSince
  recoveryRung : after.recoveryRung = before.recoveryRung
  recoverySpanStartedAt : after.recoverySpanStartedAt = before.recoverySpanStartedAt
  deterministicRefusals : after.deterministicRefusals = before.deterministicRefusals
  turnEndedAt : after.turnEndedAt = before.turnEndedAt

namespace Untouched

variable {first middle last : VitalityEpisode}

theorem refl (episode : VitalityEpisode) : Untouched episode episode := by
  constructor <;> rfl

theorem trans (hfst : Untouched first middle) (hlast : Untouched middle last) :
    Untouched first last := by
  cases hfst
  cases hlast
  constructor <;> simp_all only

end Untouched

theorem untouched_climbQuiet (thresholds : VitalityThresholds) (episode : VitalityEpisode)
    (reference quiet : ℕ) (reason : String) (tokens : List String) :
    Untouched episode (climbQuiet thresholds episode reference quiet reason tokens).episode := by
  unfold climbQuiet
  split_ifs <;> constructor <;> rfl

section Concluding

variable (tick : Tick) (owned : Readings) (episode : VitalityEpisode)

theorem untouched_noProgressSourceArm (sources : List SnapshotSource) :
    Untouched episode (noProgressSourceArm tick owned episode sources).episode := by
  unfold noProgressSourceArm
  dsimp only
  split_ifs
  · constructor <;> rfl
  · constructor <;> rfl
  · constructor <;> rfl
  · refine Untouched.trans ?_ (untouched_climbQuiet _ _ _ _ _ _)
    constructor <;> rfl

theorem untouched_concludeArm (arm : Arm) :
    Untouched episode (concludeArm tick owned episode arm).episode := by
  cases arm with
  | dead sources => exact .refl _
  | suspended _ => constructor <;> rfl
  | advancing latest => constructor <;> rfl
  | idleTurn _ => constructor <;> rfl
  | childHold _ => constructor <;> rfl
  | providerQuiet latest =>
    refine Untouched.trans ?_ (untouched_climbQuiet _ _ _ _ _ _)
    constructor <;> rfl
  | noProgressSource sources => exact untouched_noProgressSourceArm tick owned episode sources
  | allDark =>
    simp only [concludeArm, allDarkArm]
    split_ifs
    · constructor <;> rfl
    · exact .refl _

/-! ### The progress stamps -/

/-- Two episodes that agree on the stamps only an advancement moves. -/
structure SameProgress (before after : VitalityEpisode) : Prop where
  lastProgressAt : after.lastProgressAt = before.lastProgressAt
  childProgressAt : after.childProgressAt = before.childProgressAt
  childActivitySince : after.childActivitySince = before.childActivitySince
  activityEpoch : after.activityEpoch = before.activityEpoch

theorem SameProgress.trans {first middle last : VitalityEpisode}
    (hfst : SameProgress first middle) (hlast : SameProgress middle last) :
    SameProgress first last where
  lastProgressAt := hlast.lastProgressAt.trans hfst.lastProgressAt
  childProgressAt := hlast.childProgressAt.trans hfst.childProgressAt
  childActivitySince := hlast.childActivitySince.trans hfst.childActivitySince
  activityEpoch := hlast.activityEpoch.trans hfst.activityEpoch

/-- Only the head's own advancement and an accepted child move the progress stamps. -/
theorem sameProgress_concludeArm {arm : Arm} (hadv : ∀ latest, arm ≠ .advancing latest)
    (hchild : ∀ claim, arm ≠ .childHold claim) :
    SameProgress episode (concludeArm tick owned episode arm).episode := by
  cases arm with
  | dead | suspended | idleTurn => constructor <;> rfl
  | advancing latest => exact absurd rfl (hadv latest)
  | childHold claim => exact absurd rfl (hchild claim)
  | providerQuiet latest =>
    simp only [concludeArm, providerQuietArm, climbQuiet]
    split_ifs <;> constructor <;> rfl
  | noProgressSource _ =>
    simp only [concludeArm, noProgressSourceArm, climbQuiet]
    split_ifs <;> constructor <;> rfl
  | allDark =>
    simp only [concludeArm, allDarkArm]
    split_ifs <;> constructor <;> rfl

/-- What such an arm leaves is unanswered exactly when it was before. -/
theorem answerUnanswered_concludeArm {arm : Arm} (hadv : ∀ latest, arm ≠ .advancing latest)
    (hchild : ∀ claim, arm ≠ .childHold claim) :
    answerUnanswered tick (concludeArm tick owned episode arm).episode =
      answerUnanswered tick episode := by
  have hsame := sameProgress_concludeArm tick owned episode hadv hchild
  simp only [answerUnanswered, hsame.lastProgressAt, (untouched_concludeArm tick owned episode arm).turnEndedAt]

end Concluding

/-! ### The owed answer and the closing step -/

section Raise

variable (tick : Tick) (ruling : Ruling)

theorem raiseOwedAnswer_of_ne {ruling : Ruling} (hquiet : ruling.verdict ≠ .healthyQuiet) :
    raiseOwedAnswer tick ruling = ruling :=
  if_neg fun hrai ↦ hquiet hrai.1

theorem untouched_raiseOwedAnswer :
    Untouched ruling.episode (raiseOwedAnswer tick ruling).episode := by
  unfold raiseOwedAnswer
  split_ifs <;> constructor <;> rfl

theorem sameProgress_raiseOwedAnswer :
    SameProgress ruling.episode (raiseOwedAnswer tick ruling).episode := by
  unfold raiseOwedAnswer
  split_ifs <;> constructor <;> rfl

@[simp] theorem raiseOwedAnswer_stallFrozenSince :
    (raiseOwedAnswer tick ruling).episode.stallFrozenSince =
      ruling.episode.stallFrozenSince := by
  unfold raiseOwedAnswer
  split_ifs <;> rfl

/-- The owed answer only ever turns a quiet verdict into a suspicion. -/
theorem raiseOwedAnswer_verdict :
    (raiseOwedAnswer tick ruling).verdict = ruling.verdict ∨
      (ruling.verdict = .healthyQuiet ∧
        (raiseOwedAnswer tick ruling).verdict = .suspectedStall) := by
  unfold raiseOwedAnswer
  split_ifs with hrai
  · exact .inr ⟨hrai.1, rfl⟩
  · exact .inl rfl

theorem raiseOwedAnswer_healthyActive_iff :
    (raiseOwedAnswer tick ruling).verdict = .healthyActive ↔ ruling.verdict = .healthyActive := by
  rcases raiseOwedAnswer_verdict tick ruling with hsame | ⟨hquiet, herr⟩
  · rw [hsame]
  · simp [hquiet, herr]

theorem raiseOwedAnswer_confirmed_iff :
    (raiseOwedAnswer tick ruling).verdict = .confirmedStall ↔
      ruling.verdict = .confirmedStall := by
  rcases raiseOwedAnswer_verdict tick ruling with hsame | ⟨hquiet, herr⟩
  · rw [hsame]
  · simp [hquiet, herr]

end Raise

theorem untouched_concludeReadings (tick : Tick) (owned : Readings) (episode : VitalityEpisode) :
    Untouched episode (concludeReadings tick owned episode).episode :=
  (untouched_concludeArm tick owned episode _).trans (untouched_raiseOwedAnswer tick _)

theorem untouched_closeEpisode (tick : Tick) (owned : Readings) (basis : List String)
    (ruling : Ruling) : Untouched ruling.episode (closeEpisode tick owned basis ruling) := by
  constructor <;> rfl

variable {tick : Tick}

/-- What a reduction leaves of the fields no arm writes is what was recorded. -/
theorem Reduces.untouched (hred : Reduces previous tick run draft episode) :
    Untouched draft episode := by
  obtain ⟨basis, rfl⟩ := hred.closed
  exact (untouched_concludeReadings tick _ draft).trans (untouched_closeEpisode tick _ basis _)

/-- A reduction that neither the head's advancement nor an accepted child decides leaves the
progress stamps that were recorded. -/
theorem Reduces.sameProgress_of_arm (hred : Reduces previous tick run draft episode)
    (hadv : ∀ latest, selectArm tick (tick.owned run) draft ≠ .advancing latest) (hchild : ∀ claim,
      selectArm tick (tick.owned run) draft ≠ .childHold claim) :
    SameProgress draft episode := by
  obtain ⟨_, rfl⟩ := hred.closed
  have hrule := (sameProgress_concludeArm tick (tick.owned run) draft
    hadv hchild).trans (sameProgress_raiseOwedAnswer tick _)
  exact ⟨hrule.lastProgressAt, hrule.childProgressAt, hrule.childActivitySince, hrule.activityEpoch⟩

/-- A reduction that concludes no activity leaves the progress stamps that were recorded. -/
theorem Reduces.sameProgress (hred : Reduces previous tick run draft episode)
    (hverd : episode.verdict ≠ .healthyActive) : SameProgress draft episode := by
  have harm : (concludeArm tick (tick.owned run) draft
      (selectArm tick (tick.owned run) draft)).verdict ≠ .healthyActive := by
    obtain ⟨_, rfl⟩ := hred.closed
    exact fun hact ↦ hverd ((raiseOwedAnswer_healthyActive_iff tick _).mpr hact)
  exact hred.sameProgress_of_arm (fun _ heq ↦ harm (by rw [heq]; rfl)) fun _ heq ↦ harm (by rw [heq]; rfl)

/-- The reduced episode is about the run the batch was resolved to. -/
theorem Reduces.runId_eq {stored : Option VitalityEpisode} (hred : Reduces stored tick run draft episode) :
    episode.runId = run := by
  rw [hred.untouched.runId, hred.recorded.runId]
  have hresum : ∀ op : VitalityEpisode, (unfreezeIfResumed op
      (tick.owned run) tick.now).runId = op.runId := by
    intro op
    unfold unfreezeIfResumed
    split_ifs <;> rfl
  rw [hresum]
  unfold openEpisode
  split
  · split_ifs with hsame
    · exact hsame
    · rfl
  · rfl

/-! ### The verdicts of the stall ladder -/

@[simp] theorem ladderVerdict_eq_confirmed_iff {level : ℕ} :
    ladderVerdict level = .confirmedStall ↔ 2 ≤ level := by
  match level with
  | 0 | 1 => simp [ladderVerdict]
  | n + 2 => simp [ladderVerdict]

theorem two_le_levelAfter_iff (suspectAt confirmAt quiet : ℕ) :
    2 ≤ levelAfter suspectAt confirmAt quiet ↔ confirmAt ≤ quiet := by
  unfold levelAfter
  split_ifs <;> omega

theorem levelAfter_le_two (suspectAt confirmAt quiet : ℕ) :
    levelAfter suspectAt confirmAt quiet ≤ 2 := by
  unfold levelAfter
  split_ifs <;> omega

/-- Quiet climbs the ladder by its length alone. -/
theorem climbQuiet_verdict (thresholds : VitalityThresholds) (episode : VitalityEpisode)
    (reference quiet : ℕ) (reason : String) (tokens : List String) :
    (climbQuiet thresholds episode reference quiet reason tokens).verdict =
      ladderVerdict (levelAfter thresholds.suspectAfter thresholds.confirmQuiet quiet) := by
  unfold climbQuiet levelAfter
  split_ifs <;> rfl

/-- The rung the idle-turn rule concludes on. -/
def idleTurnLevel (tick : Tick) (episode : VitalityEpisode) (journal : VitalitySnapshot) : ℕ :=
  let earned := levelAfter tick.thresholds.idleTurnSuspectAfter
    tick.thresholds.idleTurnConfirmAfter (tick.now - idleTurnReference tick episode journal)
  if stallStands tick episode earned then ladderLevel episode.verdict else earned

section Verdicts

variable (tick : Tick) (owned : Readings) (episode : VitalityEpisode)

theorem idleTurnStall_verdict (tick : Tick) (episode : VitalityEpisode) (owned : Readings)
    (journal : VitalitySnapshot) :
    (idleTurnStall tick episode owned journal).verdict = ladderVerdict (idleTurnLevel tick episode journal) :=
  rfl

theorem providerQuietArm_verdict (latest : VitalitySnapshot) :
    (providerQuietArm tick episode latest).verdict =
      ladderVerdict (levelAfter tick.thresholds.suspectAfter tick.thresholds.confirmQuiet
        (tick.now - quietReference episode)) :=
  climbQuiet_verdict _ _ _ _ _ _

/-- A live process alone: a confirmation stands, a freshly dark source freezes the ladder, and
otherwise the quiet climbs it. -/
theorem noProgressSourceArm_verdict (sources : List SnapshotSource) :
    (noProgressSourceArm tick owned episode sources).verdict =
      if episode.verdict = .confirmedStall then .confirmedStall
      else if withinDarkCeiling tick episode then
        if episode.verdict = .suspectedStall then .suspectedStall else .healthyQuiet
      else ladderVerdict (levelAfter tick.thresholds.suspectAfter tick.thresholds.confirmQuiet
        (tick.now - quietReference episode)) := by
  unfold noProgressSourceArm
  by_cases hconf : episode.verdict = .confirmedStall
  · simp [hconf]
  · have hceil : withinDarkCeiling tick { episode with stallFrozenSince := 0 } = withinDarkCeiling tick episode := rfl
    rw [if_neg hconf, if_neg hconf, hceil]
    split_ifs
    · rfl
    · rfl
    · exact climbQuiet_verdict _ _ _ _ _ _

theorem allDarkArm_verdict :
    (allDarkArm tick episode).verdict =
      if episode.verdict = .confirmedStall then .confirmedStall else .unverifiable := by
  unfold allDarkArm
  split_ifs <;> rfl

/-- The ladder has no rung for a stop signal. -/
theorem ladderVerdict_not_parked (level : ℕ) :
    ladderVerdict level ≠ .suspended ∧ ladderVerdict level ≠ .retained := by
  match level with
  | 0 | 1 => simp [ladderVerdict]
  | n + 2 => simp [ladderVerdict]

/-- Only a suspended reading concludes that the process is held on a stop signal. -/
theorem concludeArm_not_parked (arm : Arm) (harm : ∀ byHeartbeat, arm ≠ .suspended byHeartbeat) :
    (concludeArm tick owned episode arm).verdict ≠ .suspended ∧
      (concludeArm tick owned episode arm).verdict ≠ .retained := by
  cases arm with
  | dead | advancing | childHold => simp [concludeArm, deadArm, advancingArm, childHoldArm]
  | suspended byHeartbeat => exact absurd rfl (harm byHeartbeat)
  | idleTurn _ =>
    exact ladderVerdict_not_parked _
  | providerQuiet _ =>
    rw [concludeArm, providerQuietArm_verdict]
    exact ladderVerdict_not_parked _
  | noProgressSource _ =>
    rw [concludeArm, noProgressSourceArm_verdict]
    split_ifs
    · simp
    · simp
    · simp
    · exact ladderVerdict_not_parked _
  | allDark =>
    rw [concludeArm, allDarkArm_verdict]
    split_ifs <;> simp

/-! ### The freeze stamp -/

/-- Only a suspended reading leaves the clocks parked; death and blindness leave the stamp they
found. -/
theorem concludeArm_stallFrozenSince (arm : Arm) :
    (concludeArm tick owned episode arm).episode.stallFrozenSince =
      match arm with
      | .dead _ | .allDark => episode.stallFrozenSince
      | .suspended _ => stampOr episode.stallFrozenSince tick.now
      | _ => 0 := by
  cases arm with
  | dead sources => rfl
  | suspended _ => rfl
  | advancing latest => rfl
  | idleTurn _ => rfl
  | childHold _ => rfl
  | providerQuiet latest =>
    simp only [concludeArm, providerQuietArm, climbQuiet]
    split_ifs <;> rfl
  | noProgressSource sources =>
    simp only [concludeArm, noProgressSourceArm, climbQuiet]
    split_ifs <;> rfl
  | allDark =>
    simp only [concludeArm, allDarkArm]
    split_ifs <;> rfl

end Verdicts

end Ummanu.Vitality
