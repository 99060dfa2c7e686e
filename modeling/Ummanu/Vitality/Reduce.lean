import Ummanu.Vitality.Episode

/-!
# Folding one tick's readings into an episode

`reduceVitality` is the reducer of `head_vitality_episode.py`. It picks the run the batch speaks
about, collapses the batch to one reading per channel, records availability, turn and child
readings on the episode, and then lets exactly one of eight arms conclude. The arm is chosen by
`selectArm`, in the order of the source: death, suspension, the head's own advancement, the
idle-turn rule, working children, observed quiet, a live process with no progress source, and
finally nothing that may be concluded from. What an arm concludes is a `Ruling`.

Scope. The type checks at the head of the source function are what the types say here; the one
refusal that remains is a first reduction with nothing to reduce.
-/

set_option autoImplicit false

namespace Ummanu.Vitality

open Library

/-! ### The arguments of a reduction -/

/-- One call of the reducer besides the episode it continues. -/
structure Tick where
  snapshots : List VitalitySnapshot
  now : ℕ
  thresholds : VitalityThresholds := defaultVitalityThresholds
  retained : Bool := false
  answerOwedSince : ℕ := 0
  adapter : String := ""

/-- An episode under construction, with the provenance collected so far. -/
structure Draft where
  episode : VitalityEpisode
  basis : List String

/-- What an arm concludes: a verdict, the episode it leaves and the tokens it adds. -/
structure Ruling where
  verdict : VitalityVerdict
  episode : VitalityEpisode
  tokens : List String

/-- A span in the messages: whole seconds and the unit. -/
def secondsText (span : ℕ) : String := toString (wholeSeconds span) ++ "s"

/-! ### Whose run is it -/

/-- The runs a batch names, in the order of their texts. -/
def runIdsOf (snapshots : List VitalitySnapshot) : List RunId :=
  ((snapshots.map (·.runId)).dedup).insertionSort fun first second ↦ first.text ≤ second.text

/-- The run a reduction speaks about, and the foreign runs it drops. -/
def resolveRunId (previous : Option VitalityEpisode) (first : VitalitySnapshot)
    (rest : List VitalitySnapshot) : RunId × List RunId :=
  let runIds := runIdsOf (first :: rest)
  let fallback := runIds.headD first.runId
  let chosen := match previous with
    | some episode => if episode.runId ∈ runIds then episode.runId else fallback
    | none => fallback
  (chosen, runIds.filter (· ≠ chosen))

/-- The episode a reduction continues: the stored one for its own run, otherwise a fresh one. -/
def openEpisode (previous : Option VitalityEpisode) (runId : RunId) (now : ℕ) :
    VitalityEpisode :=
  match previous with
  | some episode => if episode.runId = runId then episode
    else { runId := runId, startedAt := now, updatedAt := now }
  | none => { runId := runId, startedAt := now, updatedAt := now }

/-- The provenance a reduction starts with. -/
def identityBasis (previous : Option VitalityEpisode) (resolved : RunId × List RunId) :
    List String :=
  resolved.2.map (fun foreign ↦ "dropped-foreign-run:" ++ foreign.text) ++
    match previous with
    | some episode => if episode.runId = resolved.1 then []
      else ["identity-changed-from:" ++ episode.runId.text]
    | none => []

/-! ### Recording what the channels said -/

/-- The channels that can witness progress and are tracked when they go dark. The set of the
source has this one member. -/
def progressSource : SnapshotSource := .providerCursor

section

variable (now : ℕ) (owned : Readings) (draft : Draft)

/-- The readings in the order of the channel names. -/
def Readings.sortedEntries : List VitalitySnapshot :=
  SnapshotSource.sorted.filterMap owned.get

/-- Record whether one channel answered, and the cursor it reported. -/
def recordAvailability (snapshot : VitalitySnapshot) : Draft :=
  let episode := draft.episode
  match snapshot.availability with
  | .unavailable =>
    if (episode.unavailableSince snapshot.source).isNone then
      { episode := { episode with
          unavailableSince := Function.update episode.unavailableSince snapshot.source (some now) }
        basis := draft.basis ++ ["unavailable@" ++ snapshot.source.value] }
    else draft
  | .available =>
    { draft with
      episode := { episode with
        unavailableSince := Function.update episode.unavailableSince snapshot.source none
        evidenceCursors := match snapshot.presentCursor with
          | some cursor => Function.update episode.evidenceCursors snapshot.source (some cursor)
          | none => episode.evidenceCursors } }

/-- The progress source has been heard from in this episode. -/
def progressWitnessed (episode : VitalityEpisode) : Bool :=
  (episode.evidenceCursors progressSource).isSome || episode.lastProgressSource = some progressSource

/-- A progress source that has been heard from and said nothing at all is dark as well. -/
def recordAbsence : Draft :=
  let episode := draft.episode
  if progressWitnessed episode && (owned.get progressSource).isNone &&
      (episode.unavailableSince progressSource).isNone then
    { episode := { episode with
        unavailableSince := Function.update episode.unavailableSince progressSource (some now) }
      basis := draft.basis ++ ["absent@" ++ progressSource.value] }
  else draft

/-- The advisory turn reading of a batch. -/
def advisoryTurn : Option VitalitySnapshot :=
  owned.entries.find? fun snapshot ↦
    snapshot.advisory && snapshot.answered && snapshot.turn ≠ .unknown

/-- Record the advisory turn: going from active to idle stamps the end of the turn. -/
def recordTurn (episode : VitalityEpisode) :
    VitalityEpisode :=
  match advisoryTurn owned with
  | none => episode
  | some reading =>
    if reading.turn = .active then { episode with lastTurn := .active, turnEndedAt := 0 }
    else
      { episode with
        lastTurn := .idle
        turnEndedAt := if episode.lastTurn = .active then now else episode.turnEndedAt }

/-- The child reading of a batch, when the channel answered. -/
def childReading : Option VitalitySnapshot :=
  (owned.get .executionChild).filter (·.answered)

/-- Keep the described descendant of a child reading, for a respawn to name. -/
def recordChild (episode : VitalityEpisode) : VitalityEpisode :=
  match childReading owned with
  | none => episode
  | some child =>
    let described := child.childKey.isPresent
    { episode with
      lastChildKey := child.childKey
      lastChildCommand := if described then child.command else .blank
      lastChildOutput := if described then child.outputPath else .blank
      lastChildAt := if described then child.observedAt else 0 }

/-- Children that advance, with the instant their streak is charged from. -/
structure ChildClaim where
  reading : VitalitySnapshot
  since : ℕ

/-- How long the children have been the only thing that moves. -/
def ChildClaim.held (claim : ChildClaim) : ℕ := claim.reading.observedAt - claim.since

def childClaim (episode : VitalityEpisode) : Option ChildClaim :=
  ((childReading owned).filter (·.progress = .advancing)).map fun child ↦
    ⟨child, stampOr episode.childActivitySince (headQuietReference episode)⟩

end

/-- The claim that holds a silent head healthy: one inside the ceiling. -/
def childHold (thresholds : VitalityThresholds) (claim : Option ChildClaim) :
    Option ChildClaim :=
  claim.filter (·.held < thresholds.childActivityCeiling)

/-- A claim beyond the ceiling is only noted. -/
def childCeilingBasis (thresholds : VitalityThresholds) (claim : Option ChildClaim) :
    List String :=
  match claim with
  | some claim => if claim.held < thresholds.childActivityCeiling then []
    else ["child-ceiling:" ++ secondsText claim.held ++ "@" ++ claim.reading.source.value]
  | none => []

/-! ### The idle-turn rule -/

/-- The verdicts the stall ladder climbs through. -/
def ladderVerdict : ℕ → VitalityVerdict
  | 0 => .healthyQuiet
  | 1 => .suspectedStall
  | _ => .confirmedStall

/-- The rung of the ladder a verdict stands on; verdicts outside the ladder stand at its foot. -/
def ladderLevel : VitalityVerdict → ℕ
  | .suspectedStall => 1
  | .confirmedStall => 2
  | _ => 0

/-- The rung a span of quiet has reached. -/
def levelAfter (suspectAt confirmAt quiet : ℕ) : ℕ :=
  if confirmAt ≤ quiet then 2 else if suspectAt ≤ quiet then 1 else 0

section

variable (tick : Tick) (episode : VitalityEpisode) (owned : Readings)

/-- The journal reading the idle-turn rule judges: an answered journal that says the turn is
idle and since when, for an adapter in the list, while an answer is owed. -/
def idleTurnJournal : Option VitalitySnapshot :=
  if tick.adapter ∈ idleTurnAdapters ∧ 0 < tick.answerOwedSince then
    (owned.get .supervisorJournal).filter fun journal ↦
      journal.answered && journal.turn = .idle && journal.turnSince ≠ 0
  else none

/-- The instant an idle turn is charged from. -/
def idleTurnReference (journal : VitalitySnapshot) :
    ℕ :=
  max (max journal.turnSince tick.answerOwedSince) episode.quietSince

/-- When the stall an episode holds began. -/
def stallOnset : ℕ :=
  stampOr episode.suspectedSince (stampOr episode.confirmedSince episode.updatedAt)

/-- A held stall outranks what the idle turn has earned, unless the dispatcher has restarted the
head since the stall began. -/
def stallStands (level : ℕ) : Bool :=
  level < ladderLevel episode.verdict && max tick.answerOwedSince episode.quietSince ≤ stallOnset episode

/-- The words for a head that sits at its prompt, and for a stall it already held. -/
def idleTurnReason (verdict : VitalityVerdict) (idle : ℕ) (stands : Bool) : String :=
  let sat := "the head's turn ended and it has sat at its prompt for " ++ secondsText idle ++
    " without answering the dispatcher"
  if stands then verdict.value ++ " stands and the head's turn has ended: " ++ sat else sat

/-- The one rule for a head whose turn has ended while it owes an answer. -/
def idleTurnStall (journal : VitalitySnapshot) : Ruling :=
  let thresholds := tick.thresholds
  let reference := idleTurnReference tick episode journal
  let idle := tick.now - reference
  let earned := levelAfter thresholds.idleTurnSuspectAfter thresholds.idleTurnConfirmAfter idle
  let stands := stallStands tick episode earned
  let level := if stands then ladderLevel episode.verdict else earned
  let suspectAt := reference + thresholds.idleTurnSuspectAfter
  let confirmAt := reference + thresholds.idleTurnConfirmAfter
  let verdict := ladderVerdict level
  { verdict := verdict
    tokens := ["idle-turn:" ++ secondsText idle ++ "@" ++ SnapshotSource.supervisorJournal.value] ++
      (if stands then ["stall-stands"] else []) ++
      (if (childClaim owned episode).isSome then ["child-not-holding-idle-turn"] else []) ++
      (match level with
        | 0 => []
        | 1 => ["suspected-stall"]
        | _ => ["confirmed-stall"])
    episode := { episode with
      suspectedSince := match level with
        | 0 => 0
        | _ => stampOr episode.suspectedSince suspectAt
      confirmedSince := match level with
        | 0 | 1 => 0
        | _ => stampOr episode.confirmedSince confirmAt
      idleTurnSince := reference
      stallFrozenSince := 0
      reason := .clip _ (idleTurnReason episode.verdict idle stands) } }

end

/-! ### The arms -/

/-- Which arm decides a reduction, with the readings it decides on. -/
inductive Arm
  | dead (sources : List SnapshotSource)
  | suspended (byHeartbeat : Bool)
  | advancing (latest : VitalitySnapshot)
  | idleTurn (journal : VitalitySnapshot)
  | childHold (claim : ChildClaim)
  | providerQuiet (latest : VitalitySnapshot)
  | noProgressSource (sources : List SnapshotSource)
  | allDark

section

variable (tick : Tick) (owned : Readings)

/-- The readings of the head's own authoritative channels. -/
def strongReadings : List VitalitySnapshot := owned.entries.filter (·.strong)

/-- The strong readings that speak about progress. -/
def progressEvidence : List VitalitySnapshot :=
  (strongReadings owned).filter (·.speaksOfProgress)

/-- The latest advancing reading; channel names break ties. -/
def latestAdvancing : Option VitalitySnapshot :=
  ((progressEvidence owned).filter (·.progress = .advancing)).argmax
    fun snapshot ↦ toLex (snapshot.observedAt, snapshot.source.rank)

/-- The latest reading about progress; the first of the latest ones. -/
def latestEvidence : Option VitalitySnapshot :=
  (progressEvidence owned).argmax (·.observedAt)

/-- The channels of some readings, in the order of their names. -/
def sortedSources (snapshots : List VitalitySnapshot) : List SnapshotSource :=
  SnapshotSource.sorted.filter fun source ↦ snapshots.any (·.source = source)

/-- A strong channel says that the process is gone. -/
def showsDead : Bool := (strongReadings owned).any (·.process = .dead)

/-- A strong channel says that the process is suspended. -/
def showsSuspended : Bool :=
  (strongReadings owned).any (·.process = .suspended)

/-- The arm that decides: the first whose guard holds. -/
def selectArm (episode : VitalityEpisode) : Arm :=
  let strong := strongReadings owned
  if showsDead owned then .dead (sortedSources (strong.filter (·.process = .dead)))
  else if showsSuspended owned then
    .suspended (strong.any fun snapshot ↦
      snapshot.process = .suspended && snapshot.source = .pidHeartbeat)
  else match latestAdvancing owned with
  | some latest => .advancing latest
  | none => match idleTurnJournal tick owned with
    | some journal => .idleTurn journal
    | none => match childHold tick.thresholds (childClaim owned episode) with
      | some claim => .childHold claim
      | none => match latestEvidence owned with
        | some latest => .providerQuiet latest
        | none => if strong.isEmpty then .allDark else .noProgressSource (sortedSources strong)

end

/-! ### What each arm concludes -/

section

variable (tick : Tick) (owned : Readings) (episode : VitalityEpisode) (sources : List SnapshotSource)

/-- Names in a list, as the messages join them. -/
def joinNames : String :=
  ",".intercalate (sources.map (·.value))

def deadArm : Ruling :=
  ⟨.dead, episode, ["dead@" ++ joinNames sources]⟩

/-- One fact, two possible owners of the stop signal: only the caller knows which. -/
def suspendedArm (byHeartbeat : Bool) : Ruling :=
  let verdict := if tick.retained then VitalityVerdict.retained else .suspended
  ⟨verdict, freezeStallClocks episode tick.now tick.retained,
    [verdict.value ++ if byHeartbeat then "@pid_heartbeat" else ""]⟩

def advancingArm (latest : VitalitySnapshot) : Ruling where
  verdict := .healthyActive
  tokens := ["advancing@" ++ latest.source.value]
  episode := { episode with
    suspectedSince := 0
    confirmedSince := 0
    lastProgressAt := max episode.lastProgressAt latest.observedAt
    lastProgressSource := some latest.source
    activityEpoch := episode.activityEpoch +
      if episode.lastProgressAt < latest.observedAt then 1 else 0
    stallFrozenSince := 0
    childActivitySince := 0
    reason := .blank }

/-- The words for a silent head with a working child. -/
def childHoldReason (thresholds : VitalityThresholds) (claim : ChildClaim) : String :=
  "the head is quiet while its child process works (" ++ secondsText claim.held ++ " of the " ++
    secondsText thresholds.childActivityCeiling ++ " child activity ceiling)"

/-- The head is silent but a child it waits for works. -/
def childHoldArm (claim : ChildClaim) : Ruling where
  verdict := .healthyActive
  tokens := ["advancing@" ++ claim.reading.source.value]
  episode := { episode with
    suspectedSince := 0
    confirmedSince := 0
    childProgressAt := max episode.childProgressAt claim.reading.observedAt
    childActivitySince := claim.since
    stallFrozenSince := 0
    reason := .clip _ (childHoldReason tick.thresholds claim) }

/-- Climb the quiet ladder: what a span of quiet, measured from a reference, has earned. A reason
is written from suspicion on. -/
def climbQuiet (thresholds : VitalityThresholds) (episode : VitalityEpisode)
    (reference quiet : ℕ) (reason : String) (tokens : List String) : Ruling :=
  if thresholds.confirmQuiet ≤ quiet then
    { verdict := .confirmedStall
      episode := { episode with
        confirmedSince := stampOr episode.confirmedSince (reference + thresholds.confirmQuiet)
        suspectedSince := stampOr episode.suspectedSince (reference + thresholds.suspectAfter)
        reason := .clip _ reason }
      tokens := tokens ++ ["confirmed-stall"] }
  else if thresholds.suspectAfter ≤ quiet then
    { verdict := .suspectedStall
      episode := { episode with
        suspectedSince := stampOr episode.suspectedSince (reference + thresholds.suspectAfter)
        reason := .clip _ reason }
      tokens := tokens ++ ["suspected-stall"] }
  else ⟨.healthyQuiet, episode, tokens⟩

/-- The words for observed quiet. -/
def quietReason (quiet : ℕ) : String :=
  "strong quiet for " ++ secondsText quiet ++ " with no advancement"

/-- Observed quiet, measured from the last real progress and never from the tick. -/
def providerQuietArm (latest : VitalitySnapshot) :
    Ruling :=
  let reference := quietReference episode
  let quiet := tick.now - reference
  climbQuiet tick.thresholds
    { episode with
      stallFrozenSince := 0
      confirmedSince := if episode.verdict = .confirmedStall then
          stampOr episode.confirmedSince (reference + tick.thresholds.confirmQuiet)
        else episode.confirmedSince }
    reference quiet (quietReason quiet)
    ["quiet:" ++ secondsText quiet ++ "@" ++ latest.source.value]

/-- The diagnostic of the first dark channel, in the order of the names, that gave one. -/
def darkDiagnostic : Option (BoundedText reasonLimit) :=
  (owned.sortedEntries.find? fun snapshot ↦ !snapshot.answered && snapshot.reason.isPresent).map (·.reason)

/-- How long the progress source has been dark. -/
def darkSpan : Option ℕ :=
  (episode.unavailableSince progressSource).map (tick.now - ·)

/-- A dark progress source freezes an episode for this window only. -/
def withinDarkCeiling : Bool :=
  (darkSpan tick episode).any (· < tick.thresholds.darkCeiling)

end

/-- The words for a phase that a dark progress source may not move. -/
def phaseStandsReason (dark : Option ℕ) (phase : String) : String :=
  match dark with
  | some span => progressSource.value ++ " not answering for " ++ secondsText span ++ "; " ++
      phase ++ " stands"
  | none => "progress source known but not answering; " ++ phase ++ " stands"

/-- The words for an episode frozen by a dark progress source that has no diagnostic. -/
def frozenReason (tick : Tick) (dark : ℕ) : String :=
  progressSource.value ++ " known to this episode but not answering for " ++ secondsText dark ++
    "; frozen for another " ++ secondsText (tick.thresholds.darkCeiling - dark)

section

variable (tick : Tick) (owned : Readings) (episode : VitalityEpisode)

/-- The words for a head that ages on its process alone. -/
def agedReason (dark : Option ℕ) (quiet : ℕ) : String :=
  match dark with
  | some span => progressSource.value ++ " has been dark for " ++ secondsText span ++
      " (past the " ++ secondsText tick.thresholds.darkCeiling ++
      " ceiling) and the head has shown no progress for " ++ secondsText quiet
  | none => "running with no progress evidence for " ++ secondsText quiet

/-- A live process and nothing that can say the work moved. -/
def noProgressSourceArm (sources : List SnapshotSource) : Ruling :=
  let thresholds := tick.thresholds
  let reference := quietReference episode
  let quiet := tick.now - reference
  let dark := darkSpan tick episode
  let tokens := ["alive-no-progress-source@" ++ joinNames sources] ++
    match dark with
    | some span => ["dark:" ++ secondsText span ++ "@" ++ progressSource.value]
    | none => []
  let episode := { episode with stallFrozenSince := 0 }
  if episode.verdict = .confirmedStall then
    { verdict := .confirmedStall
      episode := { episode with
        confirmedSince := stampOr episode.confirmedSince (reference + thresholds.confirmQuiet)
        reason := .clip _ (phaseStandsReason dark "confirmation") }
      tokens := tokens ++ ["preserved-confirmation:provider-dark-pid-alive"] }
  else if withinDarkCeiling tick episode then
    if episode.verdict = .suspectedStall then
      { verdict := .suspectedStall
        episode := { episode with
          suspectedSince := stampOr episode.suspectedSince (reference + thresholds.suspectAfter)
          reason := .clip _ (phaseStandsReason dark "suspicion") }
        tokens := tokens ++ ["preserved-suspicion:provider-dark-pid-alive"] }
    else
      { verdict := .healthyQuiet
        episode := { episode with
          reason := (darkDiagnostic owned).getD (.clip _ (frozenReason tick (dark.getD 0))) }
        tokens := tokens }
  else climbQuiet thresholds episode reference quiet (agedReason tick dark quiet) tokens

/-- Nothing may be concluded, and an earned confirmation is not lost by going blind. -/
def allDarkArm : Ruling :=
  if episode.verdict = .confirmedStall then
    { verdict := .confirmedStall
      episode := { episode with
        confirmedSince := stampOr episode.confirmedSince (quietReference episode + tick.thresholds.confirmQuiet) }
      tokens := ["preserved-confirmation:strong-sources-unavailable"] }
  else ⟨.unverifiable, episode, ["no-strong-source-answered"]⟩

def concludeArm : Arm → Ruling
  | .dead sources => deadArm episode sources
  | .suspended byHeartbeat => suspendedArm tick episode byHeartbeat
  | .advancing latest => advancingArm episode latest
  | .idleTurn journal => idleTurnStall tick episode owned journal
  | .childHold claim => childHoldArm tick episode claim
  | .providerQuiet latest => providerQuietArm tick episode latest
  | .noProgressSource sources => noProgressSourceArm tick owned episode sources
  | .allDark => allDarkArm tick episode

end

/-! ### The owed answer -/

/-- A head that owes an answer ended a turn after the question, and no progress followed. -/
def answerUnanswered (tick : Tick) (episode : VitalityEpisode) : Bool :=
  0 < tick.answerOwedSince && episode.lastProgressAt < tick.answerOwedSince &&
    tick.answerOwedSince ≤ episode.turnEndedAt

/-- The words for a question that has gone unanswered. -/
def unansweredReason (tick : Tick) : String :=
  "the dispatcher's rejected report has gone unanswered for " ++
    secondsText (tick.now - tick.answerOwedSince) ++ " and the head's turn ended with no new work"

/-- An unanswered question raises a quiet verdict to a suspicion, and nothing else. -/
def raiseOwedAnswer (tick : Tick) (ruling : Ruling) : Ruling :=
  if ruling.verdict = .healthyQuiet ∧ answerUnanswered tick ruling.episode then
    { verdict := .suspectedStall
      episode := { ruling.episode with
        suspectedSince := stampOr ruling.episode.suspectedSince ruling.episode.turnEndedAt
        reason := .clip _ (unansweredReason tick) }
      tokens := ruling.tokens ++ ["answer-owed:turn-ended"] }
  else ruling

/-! ### The whole fold -/

/-- The advisory readings are named in the provenance, and weigh nothing. -/
def advisoryBasis (owned : Readings) : List String :=
  (owned.entries.filter fun snapshot ↦ snapshot.advisory && snapshot.answered).map
    fun snapshot ↦ "advisory:" ++ snapshot.turn.value ++ "@" ++ snapshot.source.value

/-- The readings of a batch that speak about a run, one per channel. -/
def ownedReadings (runId : RunId) (snapshots : List VitalitySnapshot) : Readings :=
  latestPerSource (snapshots.filter (·.runId = runId))

/-- The readings of a tick that speak about a run. -/
abbrev Tick.owned (tick : Tick) (run : RunId) : Readings := ownedReadings run tick.snapshots

section

variable (previous : Option VitalityEpisode) (tick : Tick)

/-- The episode the arms decide on, with everything the channels said recorded. -/
def recordReadings (owned : Readings) (opened : Draft) : Draft :=
  let resumed := { opened with episode := unfreezeIfResumed opened.episode owned tick.now }
  let heard := recordAbsence tick.now owned (owned.sortedEntries.foldl (recordAvailability tick.now) resumed)
  let episode := recordChild owned (recordTurn tick.now owned heard.episode)
  { episode := { episode with idleTurnSince := 0 }
    basis := heard.basis ++ childCeilingBasis tick.thresholds (childClaim owned episode) }

/-- What the arms and the owed answer conclude from a recorded draft. -/
def concludeReadings (owned : Readings) (episode : VitalityEpisode) : Ruling :=
  raiseOwedAnswer tick (concludeArm tick owned episode (selectArm tick owned episode))

/-- The episode a ruling leaves. A dark channel's diagnostic is the reason when nothing else
is. -/
def closeEpisode (owned : Readings) (basis : List String) (ruling : Ruling) :
    VitalityEpisode :=
  { ruling.episode with
    verdict := ruling.verdict
    reason := if ruling.episode.reason.isPresent then ruling.episode.reason
      else (darkDiagnostic owned).getD .blank
    basis := .clip (basis ++ ruling.tokens ++ advisoryBasis owned)
    updatedAt := tick.now }

/-- The reduction of a batch that has at least one reading. -/
def reduceBatch (first : VitalitySnapshot) (rest : List VitalitySnapshot) : VitalityEpisode :=
  let resolved := resolveRunId previous first rest
  let owned := ownedReadings resolved.1 (first :: rest)
  let draft := recordReadings tick owned ⟨openEpisode previous resolved.1 tick.now, identityBasis previous resolved⟩
  closeEpisode tick owned draft.basis (concludeReadings tick owned draft.episode)

/-- Why a reduction is refused. -/
inductive HeadVitalityError
  | firstEpisodeNeedsSnapshot
deriving DecidableEq, Repr

/-- Fold one tick's readings into the episode of a run. A tick that looked at nothing moves
nothing. -/
def reduceVitality :
    Except HeadVitalityError VitalityEpisode :=
  match tick.snapshots, previous with
  | [], none => .error .firstEpisodeNeedsSnapshot
  | [], some episode => .ok episode
  | first :: rest, previous => .ok (reduceBatch previous tick first rest)

end

end Ummanu.Vitality
