import Ummanu.Library.RunningTotals
import Ummanu.Usage.Attribution

/-!
# No token is charged to two phases

The phases of one provider session are accounted for one after another (`Accounted`), each from the
occurrences published before it, which are given in any order and among the card's other occurrences. The
predecessor that is found is the phase before (`causalPredecessor_eq_getLast`), so that what the phases own
in a dimension are the increments of the session's totals, as far as these are known.
-/

set_option autoImplicit false

namespace Ummanu.Usage

open Library

/-! ### The predecessor -/

theorem foldl_latest_spec (rest : List UsagePayload) (first : UsagePayload) :
    let best := rest.foldl (fun best other ↦ if best.key < other.key then other else best) first
    best ∈ first :: rest ∧ ∀ other ∈ first :: rest, other.key ≤ best.key := by
  induction rest generalizing first with
  | nil => simp
  | cons b rest ih =>
    obtain ⟨hmem, hmax⟩ := ih (if first.key < b.key then b else first)
    refine ⟨?_, fun other hoth ↦ ?_⟩
    · obtain hbest | hbest := List.mem_cons.mp hmem
      · rw [List.foldl_cons, hbest]
        split <;> simp
      · exact List.mem_cons_of_mem _ (List.mem_cons_of_mem _ hbest)
    · have hbound := hmax _ List.mem_cons_self
      rw [List.mem_cons, List.mem_cons] at hoth
      obtain rfl | rfl | hoth := hoth
      · refine le_trans ?_ hbound
        split
        · next hlt => exact hlt.le
        · exact le_rfl
      · refine le_trans ?_ hbound
        split
        · exact le_rfl
        · next hle => exact not_lt.mp hle
      · exact hmax other (List.mem_cons_of_mem _ hoth)

/-- The latest occurrence is one of them, and none is later. -/
theorem latest_eq_some {occurrences : List UsagePayload} {best : UsagePayload}
    (hlat : latest occurrences = some best) :
    best ∈ occurrences ∧ ∀ other ∈ occurrences, other.key ≤ best.key := by
  cases occurrences with
  | nil => cases hlat
  | cons a rest =>
    cases hlat
    exact foldl_latest_spec rest a

/-- The latest of the members of a sorted list is its last. -/
theorem latest_eq_getLast {occurrences sorted : List UsagePayload}
    (hord : sorted.Pairwise (·.key < ·.key)) (hmem : ∀ payload, payload ∈ occurrences ↔ payload ∈ sorted) :
    latest occurrences = sorted.getLast? := by
  cases hlat : latest occurrences with
  | none =>
    cases occurrences with
    | nil =>
      have hnil : sorted = [] := List.eq_nil_iff_forall_not_mem.mpr fun payload hload ↦
        nomatch (hmem payload).mpr hload
      rw [hnil, List.getLast?_nil]
    | cons _ _ => cases hlat
  | some best =>
    obtain ⟨hbest, hmax⟩ := latest_eq_some hlat
    rw [hmem] at hbest
    cases sorted using List.reverseRecOn with
    | nil => cases hbest
    | append_singleton _ last =>
      obtain hbest | hbest := List.mem_append.mp hbest
      · have hlt := (List.pairwise_append.mp hord).2.2 best hbest last (by simp)
        exact absurd hlt (not_lt.mpr (hmax last ((hmem last).mpr (by simp))))
      · simpa using hbest

/-! ### Sessions -/

/-- A provider session in one role of one kind of phase. -/
structure Session where
  adapter : String
  adapter_named : adapter ≠ ""
  id : String
  id_named : id ≠ ""
  phase : UsagePhase
  role : UsageRole

namespace Session

variable (session : Session)

/-- An occurrence of the session. -/
def owns (payload : UsagePayload) : Bool :=
  payload.adapter = session.adapter ∧ payload.sessionId = some session.id ∧
    payload.phase = session.phase ∧ payload.role = session.role

/-- A phase that the session served. -/
def Serves (read : PhaseRead) : Prop :=
  read.adapter = session.adapter ∧ read.sessionId = some session.id ∧ read.phase = session.phase ∧
    read.role = session.role

end Session

/-- What the phases of a session published, in the order of their keys. A phase is accounted for with the
occurrences before it in any order, and with whatever other occurrences the card has; one that is refused
publishes nothing. -/
inductive Accounted (session : Session) : List UsagePayload → Prop
  | none : Accounted session []
  | next {earlier given : List UsagePayload} {read : PhaseRead} {collection : UsageCollection}
      {payload : UsagePayload} (hearlier : Accounted session earlier)
      (hgiven : (given.filter session.owns).Perm earlier) (hserves : session.Serves read)
      (hlater : ∀ before ∈ earlier, before.key < read.key)
      (hpublished : account given read collection = .ok payload) : Accounted session (earlier ++ [payload])

/-! ### One phase -/

section Phase

variable {session : Session} {read : PhaseRead} {collection : UsageCollection}
  {predecessor : Option UsagePayload} {payload : UsagePayload} {given earlier : List UsagePayload}

theorem refuseIf_ok {refused : Bool} {message : String} :
    refuseIf refused message = .ok () ↔ refused = false := by
  cases refused <;> simp [refuseIf]

/-- What a published payload is. -/
theorem account_ok (hpub : account given read collection = .ok payload) :
    ∃ predecessor attributed, causalPredecessor read given = .ok predecessor ∧
      attributePhase collection predecessor = .ok attributed ∧ payload = usagePayload read attributed ∧
      checkPayload payload = .ok () := by
  simp only [account, bind, Except.bind] at hpub
  split at hpub
  · cases hpub
  · next predecessor hpred =>
    split at hpub
    · cases hpub
    · next attributed hattr =>
      iterate 3
        split at hpub
        · cases hpub
      split at hpub
      · cases hpub
      · next hcheck =>
        cases hpub
        exact ⟨predecessor, attributed, hpred, hattr, rfl, hcheck⟩

/-- The predecessor is the phase before. -/
theorem causalPredecessor_eq_getLast (hserve : session.Serves read)
    (hgiven : (given.filter session.owns).Perm earlier) (hord : earlier.Pairwise (·.key < ·.key))
    (hlater : ∀ before ∈ earlier, before.key < read.key)
    (hfnd : causalPredecessor read given = .ok predecessor) : predecessor = earlier.getLast? := by
  obtain ⟨hadap, hid, hphase, hrole⟩ := hserve
  have howns : ∀ payload, precedes read session.id payload =
      (session.owns payload && decide (payload.key < read.key)) := by
    intro payload
    rw [Bool.eq_iff_iff]
    simp only [precedes, sameKind, Session.owns, hadap, hphase, hrole, decide_eq_true_eq,
      Bool.and_eq_true, Bool.decide_and]
    tauto
  simp only [causalPredecessor, hid, if_neg session.id_named] at hfnd
  split at hfnd
  · cases hfnd
  · cases hfnd
    refine latest_eq_getLast hord fun payload ↦ ?_
    rw [List.mem_filter, howns, Bool.and_eq_true, ← and_assoc, ← List.mem_filter, hgiven.mem_iff, decide_eq_true_eq]
    exact ⟨fun hmem ↦ hmem.1, fun hmem ↦ ⟨hmem, hlater payload hmem⟩⟩

/-- The interval of a dimension that did not fall is what the session's total added. -/
theorem dimensionInterval_eq_added {baseline : Option TokenTotals} {current : Option ℕ}
    {dimension : Dimension} (hfell : dimensionFell baseline current dimension = false) :
    (dimensionInterval baseline current dimension).1 = added (baseline.map (·.get dimension)) current := by
  cases current with
  | none => cases baseline <;> simp [dimensionInterval, added]
  | some current =>
    cases baseline with
    | none => rfl
    | some baseline =>
      cases hprev : baseline.get dimension with
      | none => simp [dimensionInterval, added, hprev]
      | some previous =>
        have hle : ¬ current < previous := by simpa [dimensionFell, hprev] using hfell
        simp [dimensionInterval, added, hprev, hle]

/-- An attribution without a contradiction: no dimension fell, and reasoning is contained in output. -/
theorem phaseInterval_sound {totals : TokenTotals} {baseline : Option TokenTotals}
    (hsound : (phaseInterval totals baseline).contradiction = "") :
    (∀ dimension, (phaseInterval totals baseline).tokens.get dimension =
        added (baseline.map (·.get dimension)) (totals.get dimension)) ∧
      (phaseInterval totals baseline).tokens.Contained ∧
      (phaseInterval totals baseline).phaseBaseline.Contained ∧ totals.Contained ∧
      (phaseInterval totals baseline).sessionTotals = totals := by
  revert hsound
  rw [phaseInterval]
  split
  · next hnone =>
    intro hsound
    have hfell : ∀ dimension, dimensionFell baseline (totals.get dimension) dimension = false := by
      intro dimension
      have hnot := List.filter_eq_nil_iff.mp hnone dimension (mem_tokenDimensions dimension)
      simpa using hnot
    dsimp only [uncontainedReasoning] at hsound
    simp only [TokenTotals.contained_iff]
    split at hsound
    · exact absurd hsound (by decide)
    · next htok =>
      split at hsound
      · exact absurd hsound (by decide)
      · next hbase =>
        split at hsound
        · exact absurd hsound (by decide)
        · next htot =>
          refine ⟨fun dimension ↦ ?_, by simpa using htok, by simpa using hbase,
            by simpa using htot, trivial⟩
          rw [TokenTotals.get_of, dimensionInterval_eq_added (hfell dimension)]
  · intro hsound
    have hlist := congrArg String.toList hsound
    simp at hlist

/-- A degraded payload has no accounts. -/
theorem checkPayload_degraded (hcheck : checkPayload payload = .ok ()) (hdegraded : payload.outcome ≠ .collected)
    (dimension : Dimension) :
    payload.tokens.get dimension = none ∧ payload.sessionTotals.get dimension = none ∧
      payload.phaseBaseline.get dimension = none := by
  simp only [checkPayload, bind, Except.bind, if_neg hdegraded] at hcheck
  iterate 6
    split at hcheck
    · cases hcheck
  rw [refuseIf_ok] at hcheck
  simp only [Bool.or_eq_false_iff, Bool.not_eq_false'] at hcheck
  exact ⟨TokenTotals.get_of_empty hcheck.1.1 dimension, TokenTotals.get_of_empty hcheck.1.2 dimension,
    TokenTotals.get_of_empty hcheck.2 dimension⟩

/-- A collected attribution subtracts the predecessor's totals, and every account is contained. -/
theorem attributePhase_collected {attributed : UsageCollection}
    (hattr : attributePhase collection predecessor = .ok attributed)
    (hcoll : attributed.outcome = .collected) :
    (∀ dimension, attributed.tokens.get dimension =
        added (predecessor.map (·.sessionTotals.get dimension)) (attributed.sessionTotals.get dimension)) ∧
      attributed.tokens.Contained ∧ attributed.sessionTotals.Contained ∧ attributed.baseline.Contained := by
  by_cases hread : collection.outcome = .collected
  · simp only [attributePhase, hread, ne_eq, not_true_eq_false, if_false, bind, Except.bind] at hattr
    split at hattr
    · cases hattr
    · next baseline hbase =>
      have hboundary : baseline = predecessor.map (·.sessionTotals) := by
        cases predecessor with
        | none => cases hbase; rfl
        | some _ =>
          rw [predecessorBoundary] at hbase
          split at hbase
          · cases hbase
          · cases hbase; rfl
      cases hattr
      by_cases hsound : (phaseInterval collection.sessionTotals baseline).contradiction = ""
      · obtain ⟨htok, hcont, hstart, htot, hsame⟩ := phaseInterval_sound hsound
        simp only [applyPhaseBoundary, hread, hsound, ne_eq, not_true_eq_false, if_false]
        refine ⟨fun _ ↦ ?_, hcont, hsame.symm ▸ htot, hstart⟩
        rw [htok, hsame, hboundary, Option.map_map]
        rfl
      · simp [applyPhaseBoundary, hread, hsound] at hcoll
  · simp only [attributePhase, hread, ne_eq, not_false_eq_true, if_true, pure, Except.pure, Except.ok.injEq] at hattr
    exact absurd (hattr ▸ hcoll) hread

/-- An account of which nothing is known. -/
theorem contained_of_unknown {totals : TokenTotals} (hunk : ∀ dimension, totals.get dimension = none) :
    totals.Contained := by
  intro output hout
  have hnone : totals.output = none := hunk .output
  rw [hnone] at hout
  cases hout

/-- What a published phase owns, and that its accounts are contained. -/
theorem published_accounts (hpub : account given read collection = .ok payload) :
    ∃ predecessor, causalPredecessor read given = .ok predecessor ∧
      (∀ dimension, payload.tokens.get dimension =
        added (predecessor.map (·.sessionTotals.get dimension)) (payload.sessionTotals.get dimension)) ∧
      payload.tokens.Contained ∧ payload.sessionTotals.Contained ∧ payload.phaseBaseline.Contained := by
  obtain ⟨predecessor, attributed, hpred, hattr, rfl, hcheck⟩ := account_ok hpub
  refine ⟨predecessor, hpred, ?_⟩
  by_cases hcoll : attributed.outcome = .collected
  · exact attributePhase_collected hattr hcoll
  · have hunk := checkPayload_degraded hcheck hcoll
    refine ⟨fun dimension ↦ ?_, contained_of_unknown fun dimension ↦ (hunk dimension).1,
      contained_of_unknown fun dimension ↦ (hunk dimension).2.1,
      contained_of_unknown fun dimension ↦ (hunk dimension).2.2⟩
    rw [(hunk dimension).1, (hunk dimension).2.1, added_none]

end Phase

/-! ### The phases of a session -/

section Sessions

variable {session : Session} {payloads : List UsagePayload}

theorem account_key {given : List UsagePayload} {read : PhaseRead} {collection : UsageCollection}
    {payload : UsagePayload} (hpub : account given read collection = .ok payload) :
    payload.key = read.key := by
  obtain ⟨_, _, -, -, rfl, -⟩ := account_ok hpub
  rfl

theorem Accounted.sorted (hacct : Accounted session payloads) :
    payloads.Pairwise (·.key < ·.key) := by
  induction hacct with
  | none => exact List.Pairwise.nil
  | next _ _ _ hlater hpub ih =>
    rw [List.pairwise_append]
    refine ⟨ih, List.pairwise_singleton _ _, fun pre hbefore _ hlast ↦ ?_⟩
    rw [List.mem_singleton.mp hlast, account_key hpub]
    exact hlater pre hbefore

/-- What the phases own are the increments of the session's totals. -/
theorem Accounted.tokens_eq (hacct : Accounted session payloads) (dimension : Dimension) :
    payloads.map (·.tokens.get dimension) =
      increments (payloads.map (·.sessionTotals.get dimension)) := by
  induction hacct with
  | none => rfl
  | next hearl hgiven hserve hlater hpub ih =>
    obtain ⟨_, hpred, htok, -⟩ := published_accounts hpub
    rw [causalPredecessor_eq_getLast hserve hgiven hearl.sorted hlater hpred] at htok
    rw [List.map_append, List.map_append, List.map_singleton, List.map_singleton, increments_concat, ih,
      htok, List.getLast?_map]

theorem Accounted.contained (hacct : Accounted session payloads) :
    ∀ payload ∈ payloads,
      payload.tokens.Contained ∧ payload.sessionTotals.Contained ∧ payload.phaseBaseline.Contained := by
  induction hacct with
  | none => exact fun payload hload ↦ nomatch hload
  | next _ _ _ _ hpub ih =>
    obtain ⟨-, -, -, hcont⟩ := published_accounts hpub
    intro payload hload
    obtain hload | hload := List.mem_append.mp hload
    · exact ih payload hload
    · exact List.mem_singleton.mp hload ▸ hcont

/-- Each phase of a session owns what the session's total added since the phase before it, and no token is
owned twice: what the phases own is at most the last known total, and is it if every total is known. -/
theorem phases_chargedOnce (haccounted : Accounted session payloads)
    (hfalls : ∀ dimension, NeverFalls (payloads.map (·.sessionTotals.get dimension))) :
    payloads.Pairwise (·.key < ·.key) ∧
      (∀ dimension, payloads.map (·.tokens.get dimension) =
        increments (payloads.map (·.sessionTotals.get dimension))) ∧
      (∀ dimension, knownSum (payloads.map (·.tokens.get dimension)) ≤
        lastKnown (payloads.map (·.sessionTotals.get dimension))) ∧
      (∀ dimension, (∀ payload ∈ payloads, (payload.sessionTotals.get dimension).isSome = true) →
        knownSum (payloads.map (·.tokens.get dimension)) = lastKnown (payloads.map (·.sessionTotals.get dimension))) ∧
      ∀ payload ∈ payloads,
        payload.tokens.Contained ∧ payload.sessionTotals.Contained ∧ payload.phaseBaseline.Contained := by
  refine ⟨haccounted.sorted, haccounted.tokens_eq, fun dimension ↦ ?_, fun dimension hknown ↦ ?_,
    haccounted.contained⟩
  · rw [haccounted.tokens_eq]
    exact knownSum_increments_le (hfalls dimension)
  · rw [haccounted.tokens_eq]
    refine knownSum_increments_eq (hfalls dimension) fun _ htotal ↦ ?_
    obtain ⟨payload, hload, rfl⟩ := List.mem_map.mp htotal
    exact hknown payload hload

end Sessions

/-- A worker's second round on a Claude session, as the phase that is accepted. -/
def sampleRead (generation : ℕ) : PhaseRead where
  attempt := 1
  attemptId := "A-1"
  reportGeneration := generation
  phase := .worker
  role := .worker
  adapter := "claude"
  sessionId := some "s"
  sessionIdReason := ""

def sampleSession : Session := ⟨"claude", by decide, "s", by decide, .worker, .worker⟩

def sampleUsage (output reasoning : Option ℕ) : UsageCollection :=
  { outcome := .collected, sessionTotals := { output, reasoning } }

/-- What a round publishes that starts at a boundary of one dimension. -/
def sampleRound (generation : ℕ) (usage : UsageCollection) (owned start : ℕ) : UsagePayload :=
  usagePayload (sampleRead generation)
    { usage with tokens := { output := some owned }, baseline := { output := some start } }

/-- Two rounds of a retained worker: the second is charged for what it added. -/
theorem phases_chargedOnce_witness :
    ∃ first second, Accounted sampleSession [first, second] ∧
      first.tokens.get .output = some 10 ∧ second.tokens.get .output = some 15 ∧
      knownSum ([first, second].map (·.tokens.get .output)) = 25 := by
  have hfst : account [] (sampleRead 1) (sampleUsage (some 10) none) =
      .ok (sampleRound 1 (sampleUsage (some 10) none) 10 0) := rfl
  have hsnd : account [sampleRound 1 (sampleUsage (some 10) none) 10 0] (sampleRead 2)
      (sampleUsage (some 25) (some 4)) = .ok (sampleRound 2 (sampleUsage (some 25) (some 4)) 15 10) := rfl
  have hone : Accounted sampleSession [sampleRound 1 (sampleUsage (some 10) none) 10 0] :=
    .next .none (List.Perm.refl _) ⟨rfl, rfl, rfl, rfl⟩ (by simp) hfst
  have htwo : Accounted sampleSession [sampleRound 1 (sampleUsage (some 10) none) 10 0,
      sampleRound 2 (sampleUsage (some 25) (some 4)) 15 10] :=
    .next hone (List.Perm.refl _) ⟨rfl, rfl, rfl, rfl⟩ (by decide) hsnd
  refine ⟨_, _, htwo, rfl, rfl, ?_⟩
  rw [(phases_chargedOnce htwo fun dim ↦ by cases dim <;> decide).2.2.2.1 .output (by decide)]
  decide

end Ummanu.Usage
