import Ummanu.Vitality.Snapshot

/-!
# The vitality episode of a head run

The durable state of `head_vitality_episode.py`: the verdict ladder, the thresholds, and
`VitalityEpisode`, what the dispatcher remembers about one run between two ticks. A stamp of zero
means that the event it dates has not happened.

Every quiet threshold is measured from `quietReference`; the child activity ceiling from
`headQuietReference`. A suspended reading parks the clocks (`freezeStallClocks`), and the first
reduction that sees no suspended reading moves every quiet-derived stamp past the parked span
(`unfreezeIfResumed`).

A map keyed by source names is a function on `SnapshotSource`, and the texts are bounded by construction.
-/

set_option autoImplicit false

namespace Ummanu.Vitality

open Library

/-! ### Verdicts and thresholds -/

inductive VitalityVerdict
  | healthyActive | healthyQuiet | suspended | retained | suspectedStall | confirmedStall | dead
  | unverifiable
deriving DecidableEq, Repr

def VitalityVerdict.value : VitalityVerdict → String
  | healthyActive => "healthy_active"
  | healthyQuiet => "healthy_quiet"
  | suspended => "suspended"
  | retained => "retained"
  | suspectedStall => "suspected_stall"
  | confirmedStall => "confirmed_stall"
  | dead => "dead"
  | unverifiable => "unverifiable"

/-- The quiet durations at which suspicion begins and confirmation follows, the window for which
a dark progress source freezes the clock, the span for which child processes hold off a stall,
and the two marks of the idle-turn rule. -/
structure VitalityThresholds where
  suspectAfter : ℕ
  confirmAfter : ℕ
  darkCeiling : ℕ
  childActivityCeiling : ℕ
  idleTurnSuspectAfter : ℕ
  idleTurnConfirmAfter : ℕ
  suspectAfter_pos : 0 < suspectAfter
  confirmAfter_pos : 0 < confirmAfter
  darkCeiling_pos : 0 < darkCeiling
  childActivityCeiling_pos : 0 < childActivityCeiling
  idleTurnSuspectAfter_pos : 0 < idleTurnSuspectAfter
  idleTurn_ordered : idleTurnSuspectAfter ≤ idleTurnConfirmAfter

/-- The quiet after which a stall is confirmed. -/
def VitalityThresholds.confirmQuiet (thresholds : VitalityThresholds) : ℕ :=
  thresholds.suspectAfter + thresholds.confirmAfter

def idleStallDefault : ℕ := seconds 300

def defaultVitalityThresholds : VitalityThresholds where
  suspectAfter := idleStallDefault
  confirmAfter := 2 * idleStallDefault
  darkCeiling := 2 * idleStallDefault
  childActivityCeiling := seconds (45 * 60)
  idleTurnSuspectAfter := idleStallDefault
  idleTurnConfirmAfter := 2 * idleStallDefault
  suspectAfter_pos := by decide
  confirmAfter_pos := by decide
  darkCeiling_pos := by decide
  childActivityCeiling_pos := by decide
  idleTurnSuspectAfter_pos := by decide
  idleTurn_ordered := by decide

/-- The adapters whose closed journal turn means a head at its prompt. -/
def idleTurnAdapters : List String := ["claude", "codex"]

/-! ### Episodes -/

def basisTokenLimit : ℕ := 80
def basisEntryLimit : ℕ := 10

/-- The provenance kept on an episode: at most ten bounded tokens. -/
structure Basis where
  tokens : List (BoundedText basisTokenLimit)
  length_le : tokens.length ≤ basisEntryLimit
deriving DecidableEq

/-- The first ten tokens of a list, each clipped. -/
def Basis.clip (tokens : List String) : Basis :=
  ⟨(tokens.map (BoundedText.clip basisTokenLimit)).take basisEntryLimit, List.length_take_le _ _⟩

/-- The last advisory turn an episode saw. -/
inductive RecordedTurn
  | unrecorded | active | idle
deriving DecidableEq, Repr

/-- What the dispatcher remembers about the vitality of one run. -/
structure VitalityEpisode where
  runId : RunId
  verdict : VitalityVerdict := .unverifiable
  startedAt : ℕ := 0
  suspectedSince : ℕ := 0
  confirmedSince : ℕ := 0
  lastProgressAt : ℕ := 0
  lastProgressSource : Option SnapshotSource := none
  quietSince : ℕ := 0
  evidenceCursors : SnapshotSource → Option (BoundedText cursorLimit) := fun _ ↦ none
  unavailableSince : SnapshotSource → Option ℕ := fun _ ↦ none
  basis : Basis := .clip []
  reason : BoundedText reasonLimit := .blank
  recoveryRung : ℕ := 0
  recoverySpanStartedAt : ℕ := 0
  deterministicRefusals : ℕ := 0
  activityEpoch : ℕ := 0
  updatedAt : ℕ := 0
  stallFrozenSince : ℕ := 0
  lastTurn : RecordedTurn := .unrecorded
  turnEndedAt : ℕ := 0
  childProgressAt : ℕ := 0
  childActivitySince : ℕ := 0
  lastChildKey : BoundedText childKeyLimit := .blank
  lastChildCommand : BoundedText commandLimit := .blank
  lastChildOutput : BoundedText commandLimit := .blank
  lastChildAt : ℕ := 0
  idleTurnSince : ℕ := 0
deriving DecidableEq

/-! ### The quiet references -/

/-- The instant the quiet of an episode began: the latest of the last progress, the last
conversational restart and the last accepted child advancement, or the start of the episode. -/
def quietReference (episode : VitalityEpisode) : ℕ :=
  stampOr (max (max episode.lastProgressAt episode.quietSince) episode.childProgressAt) episode.startedAt

/-- The quiet reference of the head's own channels, ignoring its children. -/
def headQuietReference (episode : VitalityEpisode) : ℕ :=
  stampOr (max episode.lastProgressAt episode.quietSince) episode.startedAt

/-! ### Freezing and resuming the clocks -/

/-- Park the quiet clock for a suspended reading. -/
def freezeStallClocks (episode : VitalityEpisode) (now : ℕ) (retained : Bool) :
    VitalityEpisode :=
  { episode with
    suspectedSince := 0
    confirmedSince := 0
    stallFrozenSince := stampOr episode.stallFrozenSince now
    reason := .clip _ <|
      if retained then "process held on a stop signal by a confirmed retention"
      else "process suspended on a stop signal" }

/-- A channel that may speak about the process says that it is suspended. -/
def stillSuspended (owned : Readings) : Bool :=
  owned.any fun snapshot ↦
    snapshot.answered && !snapshot.advisory && snapshot.process = .suspended

/-- Move a stamp past a parked span, never beyond now. A stamp that was not set stays unset. -/
def shiftStamp (now delta stamp : ℕ) : ℕ :=
  if stamp = 0 then 0 else min now (stamp + delta)

/-- Resume the quiet clock after a suspension by moving the stamps past the parked span. -/
def unfreezeIfResumed (episode : VitalityEpisode) (owned : Readings) (now : ℕ) :
    VitalityEpisode :=
  if episode.stallFrozenSince = 0 then episode
  else if stillSuspended owned then episode
  else
    let shift := shiftStamp now (now - episode.stallFrozenSince)
    { episode with
      startedAt := shift episode.startedAt
      lastProgressAt := shift episode.lastProgressAt
      quietSince := shift episode.quietSince
      childProgressAt := shift episode.childProgressAt
      childActivitySince := shift episode.childActivitySince
      suspectedSince := shift episode.suspectedSince
      confirmedSince := shift episode.confirmedSince
      stallFrozenSince := 0 }

end Ummanu.Vitality
