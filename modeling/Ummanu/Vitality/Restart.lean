import Ummanu.Library.Json
import Ummanu.Vitality.Policy

/-!
# A restart of the dispatcher between two ticks

An episode outlives the dispatcher as the object `to_json` writes. `from_json` refuses damaged evidence, fills in
what older records did not have, and clips every text. An episode carries its bounds, so that nothing is clipped a
second time: what was written is read back as it was (`fromJson_toJson`), and a dispatcher that is restarted after
any of its ticks goes on as if it had not been (`runRestarting_eq`).

Scope. A stamp is written as the number of its quanta. A name in a map that is no channel's is dropped, since
nothing reads it. Every episode in the model is within the bounds of the constructor, whose checks are therefore
made where a payload is read.
-/

set_option autoImplicit false

namespace Ummanu.Vitality

open Library

/-! ### The durable form -/

def VitalityVerdict.all : List VitalityVerdict :=
  [healthyActive, healthyQuiet, suspended, retained, suspectedStall, confirmedStall, dead, unverifiable]

/-- The verdict a text names. -/
def VitalityVerdict.ofValue (text : String) : Option VitalityVerdict := all.find? (·.value = text)

/-- The channel a text names. -/
def SnapshotSource.ofValue (text : String) : Option SnapshotSource := sorted.find? (·.value = text)

def RecordedTurn.value : RecordedTurn → String
  | unrecorded => ""
  | active => "active"
  | idle => "idle"

/-- The turn a text names. -/
def RecordedTurn.ofValue (text : String) : Option RecordedTurn := [unrecorded, active, idle].find? (·.value = text)

def RunId.ofText (text : String) : Option RunId :=
  if hbound : isBlankText text = false then some ⟨text, hbound⟩ else none

def episodeVersion : Json := .num "1"

/-- A number: the quanta of a stamp, or a count. -/
def numberJson (n : ℕ) : Json := .num (toString n)

/-- The channels that have a value, by their names. -/
def sourceEntries {α : Type} (value : SnapshotSource → Option α) : List (String × α) :=
  SnapshotSource.sorted.filterMap fun source ↦ (value source).map (source.value, ·)

/-- A map keyed by the names of the channels. -/
def sourceMap {α : Type} (encode : α → Json) (value : SnapshotSource → Option α) : Json :=
  .obj ((sourceEntries value).map (Prod.map id encode))

def VitalityEpisode.toJson (episode : VitalityEpisode) : Json :=
  .obj [("version", episodeVersion), ("run_id", .str episode.runId.text), ("verdict", .str episode.verdict.value),
    ("started_at", numberJson episode.startedAt),
    ("suspected_since", numberJson episode.suspectedSince),
    ("confirmed_since", numberJson episode.confirmedSince),
    ("last_progress_at", numberJson episode.lastProgressAt),
    ("last_progress_source", .str ((episode.lastProgressSource.map SnapshotSource.value).getD "")),
    ("quiet_since", numberJson episode.quietSince),
    ("evidence_cursors", sourceMap (.str ·.text) episode.evidenceCursors),
    ("unavailable_since", sourceMap numberJson episode.unavailableSince),
    ("basis", .arr (episode.basis.tokens.map (.str ·.text))),
    ("reason", .str episode.reason.text),
    ("recovery_rung", numberJson episode.recoveryRung),
    ("recovery_span_started_at", numberJson episode.recoverySpanStartedAt),
    ("deterministic_refusals", numberJson episode.deterministicRefusals),
    ("activity_epoch", numberJson episode.activityEpoch),
    ("updated_at", numberJson episode.updatedAt),
    ("stall_frozen_since", numberJson episode.stallFrozenSince),
    ("last_turn", .str episode.lastTurn.value),
    ("turn_ended_at", numberJson episode.turnEndedAt),
    ("child_progress_at", numberJson episode.childProgressAt),
    ("child_activity_since", numberJson episode.childActivitySince),
    ("last_child_key", .str episode.lastChildKey.text),
    ("last_child_command", .str episode.lastChildCommand.text),
    ("last_child_output", .str episode.lastChildOutput.text),
    ("last_child_at", numberJson episode.lastChildAt),
    ("idle_turn_since", numberJson episode.idleTurnSince)]

/-! ### Reading it back -/

def orRaise {α : Type} (found : Option α) (message : String) : Except String α :=
  match found with
  | some a => .ok a
  | none => .error message

def require (condition : Bool) (message : String) : Except String Unit :=
  if condition then .ok () else .error message

def finiteTimestamp (value : Json) (name : String) : Except String ℕ :=
  match value with
  | .num literal => orRaise literal.toNat? ("vitality episode " ++ name ++ " is finite and not negative")
  | _ => .error ("vitality episode " ++ name ++ " is a number")

def count (value : Json) (what : String) : Except String ℕ :=
  match value with
  | .num literal => orRaise literal.toNat? ("vitality episode " ++ what ++ " is a non-negative int")
  | _ => .error ("vitality episode " ++ what ++ " is a non-negative int")

def isText : Json → Bool
  | .str _ => true
  | _ => false

/-- The members of an object. -/
def membersOf (value : Json) (message : String) : Except String (List (String × Json)) :=
  match value with
  | .obj members => .ok members
  | _ => .error message

/-- The items of a list. -/
def itemsOf (value : Json) (message : String) : Except String (List Json) :=
  match value with
  | .arr items => .ok items
  | _ => .error message

/-- The stamps of a map. -/
def stampsOf : List (String × Json) → Except String (List (String × ℕ))
  | [] => .ok []
  | (name, value) :: rest => do
    let since ← finiteTimestamp value "unavailable_since"
    let later ← stampsOf rest
    .ok ((name, since) :: later)

/-- `from_json`, and behind its own checks those of the constructor. -/
def VitalityEpisode.fromJson (payload : Json) : Except String VitalityEpisode := do
  let stamp := fun name ↦ finiteTimestamp (payload.get name) name
  -- a stamp that older records do not have
  let newerStamp := fun name ↦ finiteTimestamp ((payload.find name).getD (numberJson 0)) name
  let _ ← membersOf payload "a vitality episode is read from an object"
  require (payload.get "version" = episodeVersion) "vitality episode has an unsupported version"
  let verdict ← orRaise (VitalityVerdict.ofValue (payload.get "verdict").textOr)
    "vitality episode names a verdict outside its vocabulary"
  let cursors ← membersOf (payload.get "evidence_cursors") "vitality episode evidence cursors are malformed"
  require (cursors.all (isText ·.2)) "vitality episode evidence cursors are malformed"
  let unavailable ← membersOf (payload.get "unavailable_since") "vitality episode unavailable sources are malformed"
  let basis ← itemsOf (payload.get "basis") "vitality episode basis is malformed"
  require (basis.all isText) "vitality episode basis is malformed"
  let recoveryRung ← count (payload.get "recovery_rung") "recovery rung"
  let activityEpoch ← count (payload.get "activity_epoch") "activity epoch"
  let deterministicRefusals ← count ((payload.find "deterministic_refusals").getD (numberJson 0))
    "deterministic refusal count"
  let startedAt ← stamp "started_at"
  let suspectedSince ← stamp "suspected_since"
  let confirmedSince ← stamp "confirmed_since"
  let lastProgressAt ← stamp "last_progress_at"
  let quietSince ← newerStamp "quiet_since"
  let recoverySpanStartedAt ← newerStamp "recovery_span_started_at"
  let updatedAt ← stamp "updated_at"
  let stallFrozenSince ← stamp "stall_frozen_since"
  let turnEndedAt ← newerStamp "turn_ended_at"
  let childProgressAt ← newerStamp "child_progress_at"
  let childActivitySince ← newerStamp "child_activity_since"
  let lastChildAt ← newerStamp "last_child_at"
  let idleTurnSince ← newerStamp "idle_turn_since"
  let runId ← orRaise (RunId.ofText (payload.get "run_id").textOr) "a vitality episode is bound to a HeadRun.run_id"
  let stamps ← stampsOf unavailable
  let lastTurn ← orRaise (RecordedTurn.ofValue (payload.get "last_turn").textOr)
    "a vitality episode last turn is active, idle or unrecorded"
  pure {
    runId, verdict, startedAt, suspectedSince, confirmedSince, lastProgressAt
    lastProgressSource := SnapshotSource.ofValue (payload.get "last_progress_source").textOr
    quietSince
    evidenceCursors := fun source ↦ (cursors.lookup source.value).map fun cursor ↦ .clip _ cursor.textOr
    unavailableSince := fun source ↦ stamps.lookup source.value
    basis := .clip (basis.map Json.textOr)
    reason := .clip _ (payload.get "reason").textOr
    recoveryRung, recoverySpanStartedAt, deterministicRefusals, activityEpoch, updatedAt, stallFrozenSince
    lastTurn, turnEndedAt, childProgressAt, childActivitySince
    lastChildKey := .clip _ (payload.get "last_child_key").textOr
    lastChildCommand := .clip _ (payload.get "last_child_command").textOr
    lastChildOutput := .clip _ (payload.get "last_child_output").textOr
    lastChildAt, idleTurnSince }

/-! ### What was written is read back -/

@[simp] theorem VitalityVerdict.ofValue_value (verdict : VitalityVerdict) : ofValue verdict.value = some verdict := by
  cases verdict <;> rfl

@[simp] theorem SnapshotSource.ofValue_value (source : Option SnapshotSource) :
    ofValue ((source.map SnapshotSource.value).getD "") = source := by
  rcases source with _ | source
  · rfl
  · cases source <;> rfl

@[simp] theorem RecordedTurn.ofValue_value (turn : RecordedTurn) : ofValue turn.value = some turn := by
  cases turn <;> rfl

@[simp] theorem RunId.ofText_text (run : RunId) : RunId.ofText run.text = some run := dif_pos run.bound

@[simp] theorem finiteTimestamp_numberJson (n : ℕ) (name : String) : finiteTimestamp (numberJson n) name = .ok n := by
  simp [finiteTimestamp, numberJson, orRaise]

@[simp] theorem count_numberJson (n : ℕ) (what : String) : count (numberJson n) what = .ok n := by
  simp [count, numberJson, orRaise]

theorem SnapshotSource.value_injective : Function.Injective SnapshotSource.value := by
  intro first second hvalue
  cases first <;> cases second <;> first | rfl | exact absurd hvalue (by decide)

section SourceMap

variable {α : Type} (value : SnapshotSource → Option α)

theorem lookup_filterMap (sources : List SnapshotSource) (source : SnapshotSource) :
    (sources.filterMap fun source ↦ (value source).map (source.value, ·)).lookup source.value =
      if source ∈ sources then value source else none := by
  induction sources with
  | nil => rfl
  | cons first _ ih =>
    by_cases hfst : source = first
    · subst hfst
      cases hvalue : value source <;> simp [hvalue, ih]
    · have hname : (source.value == first.value) = false :=
        beq_eq_false_iff_ne.mpr fun hsame ↦ hfst (SnapshotSource.value_injective hsame)
      cases hvalue : value first <;> simp [hvalue, ih, hfst, List.lookup_cons, hname]

theorem lookup_sourceEntries (source : SnapshotSource) : (sourceEntries value).lookup source.value = value source := by
  rw [sourceEntries, lookup_filterMap, if_pos source.mem_sorted]

end SourceMap

theorem lookup_map {α β : Type} (f : α → β) (entries : List (String × α)) (key : String) :
    (entries.map (Prod.map id f)).lookup key = (entries.lookup key).map f := by
  induction entries with
  | nil => rfl
  | cons entry _ ih =>
    rw [List.map_cons, Prod.map, id_eq, List.lookup_cons, List.lookup_cons, ih]
    cases key == entry.1 <;> rfl

theorem stampsOf_map (entries : List (String × ℕ)) :
    stampsOf (entries.map (Prod.map id numberJson)) = .ok entries := by
  induction entries with
  | nil => rfl
  | cons _ _ ih =>
    rw [List.map_cons, Prod.map, stampsOf, finiteTimestamp_numberJson, ih]
    rfl

theorem ok_bind {α β : Type} (a : α) (f : α → Except String β) : (Except.ok a >>= f) = f a := rfl

/-- Reading back what was written gives the episode as it was. -/
theorem fromJson_toJson (episode : VitalityEpisode) : VitalityEpisode.fromJson episode.toJson = .ok episode := by
  have hcursors : ∀ source : SnapshotSource,
      (((sourceEntries episode.evidenceCursors).map (Prod.map id fun cursor ↦ Json.str cursor.text)).lookup
        source.value).map (fun cursor ↦ BoundedText.clip cursorLimit cursor.textOr) =
        episode.evidenceCursors source := by
    intro source
    rw [lookup_map, lookup_sourceEntries, Option.map_map]
    simp [Function.comp_def]
  have hbasis : Basis.clip (episode.basis.tokens.map (Json.textOr ∘ fun token ↦ Json.str token.text)) =
      episode.basis := by
    obtain ⟨tokens, hlen⟩ := episode.basis
    simp [Basis.clip, Function.comp_def, List.take_of_length_le hlen]
  simp [VitalityEpisode.fromJson, VitalityEpisode.toJson, Json.get, Json.find, membersOf, itemsOf, require, orRaise,
    isText, sourceMap, stampsOf_map, lookup_sourceEntries, ok_bind, hcursors, hbasis]

/-! ### Restarts -/

/-- The record after a restart of the dispatcher. -/
def restart (stored : Option VitalityEpisode) : Except String (Option VitalityEpisode) :=
  match stored with
  | none => .ok none
  | some episode => (VitalityEpisode.fromJson episode.toJson).map some

/-- What a turn of the wait loop shows: the episode it reduced to, what it decided, and what it left on the record. -/
structure TurnReport where
  reduced : Option VitalityEpisode
  decision : Option RecoveryDecision
  stored : Option VitalityEpisode

def turnReport (stored : Option VitalityEpisode) (tick : WaitTick) : TurnReport :=
  ⟨reduceStored stored tick.toTick, waitDecision stored tick, waitStep stored tick⟩

/-- The turns of a wait loop whose dispatcher is restarted after those that say so. -/
def runRestarting (stored : Option VitalityEpisode) : List (WaitTick × Bool) → Except String (List TurnReport)
  | [] => .ok []
  | (tick, restarts) :: rest => do
    let next ← if restarts then restart (waitStep stored tick) else .ok (waitStep stored tick)
    let later ← runRestarting next rest
    .ok (turnReport stored tick :: later)

theorem restart_eq (stored : Option VitalityEpisode) : restart stored = .ok stored := by
  cases stored with
  | none => rfl
  | some _ => rw [restart, fromJson_toJson, Except.map]

/-- A dispatcher that is restarted after any of its ticks shows what it would have shown without the restarts. -/
theorem runRestarting_eq (stored : Option VitalityEpisode) (ticks : List (WaitTick × Bool)) :
    runRestarting stored ticks = .ok (emissions waitStep turnReport stored (ticks.map Prod.fst)) ∧
      ∀ episode : VitalityEpisode, VitalityEpisode.fromJson episode.toJson = .ok episode := by
  refine ⟨?_, fromJson_toJson⟩
  induction ticks generalizing stored with
  | nil => rfl
  | cons _ _ ih =>
    simp only [runRestarting, restart_eq, ite_self, ok_bind, ih, List.map_cons, emissions_cons]

end Ummanu.Vitality
