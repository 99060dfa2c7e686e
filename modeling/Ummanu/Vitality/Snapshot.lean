import Ummanu.Library.BoundedText
import Ummanu.Library.Texts

/-!
# One channel's reading of a head run

The vocabulary of `head_vitality.py`: the three axes a reading can speak to, the channels that
produce readings, and `VitalitySnapshot`, one channel's reading of one head run at one instant.
`latestPerSource` collapses a batch of readings to the latest reading of each channel, which is
what the reducer works on.

Time is a count of clock quanta. A quantum is 2⁻²² s, the spacing of double-precision epoch
seconds in the years the dispatcher runs in, so sums and differences of clock readings are exact.
A difference that the source writes `max(0.0, a - b)` is the truncated `a - b`.

Scope. The builders that parse raw evidence are represented by snapshots they produce: `ofHeartbeat`,
`ofProvider`, `ofChild`, `ofJournal` and `unavailable`. The durable JSON form is not modelled.
-/

set_option autoImplicit false

namespace Ummanu.Vitality

open Library

/-! ### Time -/

/-- Instants and spans are natural numbers of quanta of 2⁻²² s. -/
def quantaPerSecond : ℕ := 2 ^ 22

/-- A span given in whole seconds. -/
def seconds (n : ℕ) : ℕ := n * quantaPerSecond

/-- The whole seconds of a span, as the messages print them. -/
def wholeSeconds (span : ℕ) : ℕ := span / quantaPerSecond

/-- A stamp when it was set, otherwise a fallback: a stamp of zero means unset. -/
def stampOr (stamp fallback : ℕ) : ℕ := if stamp = 0 then fallback else stamp

@[simp] theorem stampOr_zero (fallback : ℕ) : stampOr 0 fallback = fallback := rfl

theorem stampOr_of_ne_zero {stamp : ℕ} (hset : stamp ≠ 0) (fallback : ℕ) :
    stampOr stamp fallback = stamp :=
  if_neg hset

/-! ### Run identities -/

/-- A `HeadRun.run_id`: readings and episodes are bound to a run, so the text is not blank. -/
structure RunId where
  text : String
  bound : isBlankText text = false
deriving DecidableEq

/-- The run of the fixed histories. -/
def sampleRun : RunId := ⟨"run-a", by decide⟩

/-! ### Axes and channels -/

inductive ProcessState
  | running | suspended | dead | unknown
deriving DecidableEq, Repr

inductive TurnState
  | active | idle | unknown
deriving DecidableEq, Repr

inductive ProgressState
  | advancing | quiet | stagnant | unknown
deriving DecidableEq, Repr

inductive SourceAvailability
  | available | unavailable
deriving DecidableEq, Repr

inductive SnapshotSource
  | pidHeartbeat | providerCursor | paneAdvisory | executionReceipt | executionChild
  | supervisorJournal
deriving DecidableEq, Repr

def TurnState.value : TurnState → String
  | active => "active"
  | idle => "idle"
  | unknown => "unknown"

def SnapshotSource.value : SnapshotSource → String
  | pidHeartbeat => "pid_heartbeat"
  | providerCursor => "provider_cursor"
  | paneAdvisory => "pane_advisory"
  | executionReceipt => "execution_receipt"
  | executionChild => "execution_child"
  | supervisorJournal => "supervisor_journal"

/-- The channels in the order of their names. -/
def SnapshotSource.sorted : List SnapshotSource :=
  [executionChild, executionReceipt, paneAdvisory, pidHeartbeat, providerCursor, supervisorJournal]

/-- The place of a channel in the order of the names. -/
def SnapshotSource.rank (source : SnapshotSource) : ℕ := SnapshotSource.sorted.idxOf source

theorem SnapshotSource.mem_sorted (source : SnapshotSource) : source ∈ SnapshotSource.sorted := by
  cases source <;> decide

instance : Fintype SnapshotSource :=
  ⟨SnapshotSource.sorted.toFinset, fun source ↦ List.mem_toFinset.mpr source.mem_sorted⟩

/-! ### Snapshots -/

def reasonLimit : ℕ := 240
def cursorLimit : ℕ := 240
def commandLimit : ℕ := 300
def childKeyLimit : ℕ := 80

/-- One channel's reading of one head run at one instant. An axis the channel cannot answer for
stays unknown. -/
structure VitalitySnapshot where
  runId : RunId
  source : SnapshotSource
  observedAt : ℕ
  availability : SourceAvailability
  process : ProcessState := .unknown
  turn : TurnState := .unknown
  progress : ProgressState := .unknown
  cursor : Option (BoundedText cursorLimit) := none
  reason : BoundedText reasonLimit := .blank
  childKey : BoundedText childKeyLimit := .blank
  command : BoundedText commandLimit := .blank
  outputPath : BoundedText commandLimit := .blank
  turnSince : ℕ := 0
deriving DecidableEq

namespace VitalitySnapshot

section

variable (snapshot : VitalitySnapshot)

/-- The channel answered. -/
def answered : Bool := snapshot.availability = .available

/-- An advisory reading can never authorise an intervention. -/
def advisory : Bool := snapshot.source = .paneAdvisory

/-- The head's own authoritative channels: answered, not advisory, and not its children. -/
def strong : Bool :=
  snapshot.answered && !snapshot.advisory && snapshot.source ≠ .executionChild

/-- A reading that speaks about progress. -/
def speaksOfProgress : Bool :=
  snapshot.progress = .advancing || snapshot.progress = .quiet

/-- The cursor a channel reported, when it reported a text. -/
def presentCursor : Option (BoundedText cursorLimit) :=
  snapshot.cursor.filter (·.isPresent)

end

/-! #### The snapshots the builders produce -/

section

variable (runId : RunId) (observedAt : ℕ) (progress : ProgressState) (cursor : BoundedText cursorLimit)

/-- A heartbeat that answered speaks about the process and about nothing else. -/
def ofHeartbeat (process : ProcessState) (reason : BoundedText reasonLimit := .blank) : VitalitySnapshot :=
  { runId, source := .pidHeartbeat, observedAt, availability := .available, process, reason }

/-- An admitted provider cursor, compared with the one on file. -/
def ofProvider (reason : BoundedText reasonLimit := .blank) :
    VitalitySnapshot :=
  { runId, source := .providerCursor, observedAt, availability := .available, progress
    cursor := some cursor, reason }

/-- A reading of the head's descendants, with the one it describes. -/
def ofChild (reason : BoundedText reasonLimit := .blank) (childKey : BoundedText childKeyLimit := .blank)
    (command outputPath : BoundedText commandLimit := .blank) : VitalitySnapshot :=
  { runId, source := .executionChild, observedAt, availability := .available, progress
    cursor := some cursor, reason, childKey, command, outputPath }

/-- A supervisor journal reading: the turn, since when, and the progress. -/
def ofJournal (turn : TurnState) (turnSince : ℕ) (progress : ProgressState) (cursor : BoundedText cursorLimit)
    (reason : BoundedText reasonLimit := .blank) : VitalitySnapshot :=
  { runId, source := .supervisorJournal, observedAt, availability := .available, turn, turnSince
    progress, cursor := some cursor, reason }

/-- The one shape every failed observation takes. -/
def unavailable (source : SnapshotSource) (reason : String) : VitalitySnapshot :=
  { runId, source, observedAt, availability := .unavailable, reason := .clip _ reason }

end

/-- Only the heartbeat speaks about the process. -/
def WellSourced (snapshot : VitalitySnapshot) : Prop :=
  snapshot.source ≠ .pidHeartbeat → snapshot.process = .unknown

instance (snapshot : VitalitySnapshot) : Decidable snapshot.WellSourced :=
  inferInstanceAs (Decidable (snapshot.source ≠ .pidHeartbeat → snapshot.process = .unknown))

end VitalitySnapshot

/-! ### One reading per channel -/

/-- At most one reading per channel, in the order in which the channels first appeared. -/
structure Readings where
  entries : List VitalitySnapshot
  sources_nodup : (entries.map (·.source)).Nodup

namespace Readings

def empty : Readings := ⟨[], List.nodup_nil⟩

/-- The reading of a channel. -/
def get (owned : Readings) (source : SnapshotSource) : Option VitalitySnapshot :=
  owned.entries.find? (·.source = source)

/-- Some reading meets a condition. -/
def any (owned : Readings) (p : VitalitySnapshot → Bool) : Bool := owned.entries.any p

variable {snapshot : VitalitySnapshot} {owned : Readings}

theorem mem_of_get {source : SnapshotSource} (hget : owned.get source = some snapshot) :
    snapshot ∈ owned.entries ∧ snapshot.source = source :=
  ⟨List.mem_of_find?_eq_some hget, by simpa using List.find?_some hget⟩

theorem get_of_mem (hmem : snapshot ∈ owned.entries) : owned.get snapshot.source = some snapshot := by
  obtain ⟨found, hfnd⟩ : ∃ found, owned.get snapshot.source = some found := by
    rw [← Option.isSome_iff_exists, get, List.find?_isSome]
    exact ⟨snapshot, hmem, by simp⟩
  have hmatch := mem_of_get hfnd
  have hsame : found = snapshot :=
    List.inj_on_of_nodup_map owned.sources_nodup hmatch.1 hmem hmatch.2
  rw [hfnd, hsame]

theorem get_eq_some_iff {source : SnapshotSource} :
    owned.get source = some snapshot ↔ snapshot ∈ owned.entries ∧ snapshot.source = source :=
  ⟨mem_of_get, fun ⟨hmem, hsrc⟩ ↦ hsrc ▸ get_of_mem hmem⟩

/-- Keep a reading when its channel is new, or when it is later than the one on file. A later
reading takes the place of the earlier one. -/
def keep (owned : Readings) (snapshot : VitalitySnapshot) : Readings :=
  match hknown : owned.get snapshot.source with
  | none => ⟨owned.entries ++ [snapshot], by
      have hnew : snapshot.source ∉ owned.entries.map (·.source) := by
        intro hmem
        obtain ⟨known, hin, hsrc⟩ := List.mem_map.mp hmem
        rw [← hsrc, get_of_mem hin] at hknown
        exact Option.some_ne_none _ hknown
      rw [List.map_append, List.map_singleton]
      exact List.Nodup.append owned.sources_nodup (List.nodup_singleton _) (by simpa using hnew)⟩
  | some known =>
    if known.observedAt < snapshot.observedAt then
      ⟨owned.entries.map fun entry ↦ if entry.source = snapshot.source then snapshot else entry, by
        have hsources : (owned.entries.map fun entry ↦
            if entry.source = snapshot.source then snapshot else entry).map (·.source) =
            owned.entries.map (·.source) := by
          rw [List.map_map]
          refine List.map_congr_left fun entry _ ↦ ?_
          by_cases hsame : entry.source = snapshot.source <;> simp [hsame]
        rw [hsources]
        exact owned.sources_nodup⟩
    else owned

end Readings

/-- Collapse a batch to the latest reading of each channel, ties resolved by first appearance. -/
def latestPerSource (snapshots : List VitalitySnapshot) : Readings :=
  snapshots.foldl Readings.keep .empty

theorem Readings.mem_keep {owned : Readings} {snapshot entry : VitalitySnapshot}
    (hmem : entry ∈ (owned.keep snapshot).entries) : entry = snapshot ∨ entry ∈ owned.entries := by
  unfold Readings.keep at hmem
  split at hmem
  · simpa [or_comm] using hmem
  · split at hmem
    · obtain ⟨k, hin, rfl⟩ := List.mem_map.mp hmem
      by_cases hsame : k.source = snapshot.source <;> simp [hsame, hin]
    · exact .inr hmem

/-- Every reading that is kept comes from the batch. -/
theorem mem_of_mem_latestPerSource {snapshots : List VitalitySnapshot} {entry : VitalitySnapshot}
    (hmem : entry ∈ (latestPerSource snapshots).entries) : entry ∈ snapshots := by
  have hfold : ∀ (rest : List VitalitySnapshot) (owned : Readings),
      entry ∈ (rest.foldl Readings.keep owned).entries →
        entry ∈ rest ∨ entry ∈ owned.entries := by
    intro rest
    induction rest with
    | nil => exact fun owned hin ↦ .inr hin
    | cons _ rest ih =>
      intro owned hin
      rcases ih _ hin with hrest | hkeep
      · exact .inl (List.mem_cons_of_mem _ hrest)
      · rcases Readings.mem_keep hkeep with rfl | hold
        · exact .inl List.mem_cons_self
        · exact .inr hold
  rcases hfold snapshots .empty hmem with hin | hin
  · exact hin
  · exact absurd hin List.not_mem_nil

end Ummanu.Vitality
