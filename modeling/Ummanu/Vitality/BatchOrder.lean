import Ummanu.Vitality.Recording

/-!
# The order of a batch, and the runs it is not about

A reduction reads a batch through the readings it keeps, one per channel. Two collections with the same readings
answer every question of the reducer alike, but for one: the latest reading about progress is the first of the
latest ones, and its channel is named in the provenance of a quiet verdict (`OrderShows`). What other runs say in a
batch reaches the result only as the names of the runs that were dropped, which stand in front of everything else
in the provenance (`recordReadings_basis`). The provenance is cut after ten tokens, so that enough dropped runs
push out the tokens behind them.
-/

set_option autoImplicit false

namespace Ummanu.Vitality

open Library

/-! ### Selections from a permuted list -/

section Selections

variable {α β : Type} {items others : List α}

/-- A maximum that is attained once does not depend on the order of the list. -/
theorem argmax_eq_of_perm [LinearOrder β] {f : α → β} (hperm : items.Perm others)
    (hinj : ∀ a ∈ items.argmax f, ∀ b ∈ items, f a = f b → a = b) : items.argmax f = others.argmax f := by
  cases hmax : items.argmax f with
  | none =>
    rw [List.argmax_eq_none] at hmax
    rw [hmax] at hperm
    rw [List.nil_perm.mp hperm, List.argmax_nil]
  | some a =>
    have hmem := List.argmax_mem hmax
    cases hoth : others.argmax f with
    | none =>
      rw [List.argmax_eq_none] at hoth
      rw [hoth] at hperm
      rw [List.perm_nil.mp hperm] at hmem
      cases hmem
    | some b =>
      have hin := hperm.mem_iff.mpr (List.argmax_mem hoth)
      have hle := List.le_of_mem_argmax hin hmax
      have hge := List.le_of_mem_argmax (hperm.mem_iff.mp hmem) hoth
      rw [hinj a hmax b hin (le_antisymm hge hle)]

end Selections

/-! ### Collections with the same readings -/

namespace Readings

/-- The same readings, in any order. -/
def Same (owned other : Readings) : Prop := owned.entries.Perm other.entries

variable {owned other : Readings}

theorem Same.get_eq (hsame : Same owned other) (source : SnapshotSource) : owned.get source = other.get source := by
  ext snapshot
  rw [get_eq_some_iff, get_eq_some_iff, hsame.mem_iff]

theorem Same.any_eq (hsame : Same owned other) (p : VitalitySnapshot → Bool) : owned.any p = other.any p :=
  List.Perm.any_eq hsame

end Readings

/-- No reading decides before quiet is looked at: nothing is gone, stopped, advancing or at its prompt, and no child
holds the head. -/
structure QuietDecides (tick : Tick) (owned : Readings) (episode : VitalityEpisode) : Prop where
  alive : showsDead owned = false
  awake : showsSuspended owned = false
  still : latestAdvancing owned = none
  noIdleTurn : idleTurnJournal tick owned = none
  noChild : childHold tick.thresholds (childClaim owned episode) = none

section Same

variable {owned other : Readings} (hsame : Readings.Same owned other)

include hsame

theorem sortedEntries_eq : owned.sortedEntries = other.sortedEntries := by
  rw [Readings.sortedEntries, Readings.sortedEntries, funext hsame.get_eq]

theorem advisoryTurn_eq : advisoryTurn owned = advisoryTurn other := by
  rw [advisoryTurn_eq_get, advisoryTurn_eq_get, hsame.get_eq]

theorem advisoryBasis_eq : advisoryBasis owned = advisoryBasis other := by
  have hsrc : ∀ snap : VitalitySnapshot, (snap.advisory && snap.answered) = true →
      snap.source = .paneAdvisory := by
    intro snap hadv
    simp only [VitalitySnapshot.advisory, Bool.and_eq_true, decide_eq_true_eq] at hadv
    exact hadv.1
  rw [advisoryBasis, advisoryBasis, owned.filter_eq_toList hsrc, other.filter_eq_toList hsrc, hsame.get_eq]

theorem darkDiagnostic_eq : darkDiagnostic owned = darkDiagnostic other := by
  rw [darkDiagnostic, darkDiagnostic, sortedEntries_eq hsame]

theorem childReading_eq : childReading owned = childReading other := by
  rw [childReading, childReading, hsame.get_eq]

theorem childClaim_eq (episode : VitalityEpisode) : childClaim owned episode = childClaim other episode := by
  rw [childClaim, childClaim, childReading_eq hsame]

theorem strongReadings_perm : (strongReadings owned).Perm (strongReadings other) := List.Perm.filter _ hsame

theorem sortedSources_filter_eq (p : VitalitySnapshot → Bool) :
    sortedSources ((strongReadings owned).filter p) = sortedSources ((strongReadings other).filter p) := by
  have hperm := (strongReadings_perm hsame).filter p
  simp only [sortedSources, hperm.any_eq]

theorem progressEvidence_perm : (progressEvidence owned).Perm (progressEvidence other) :=
  (strongReadings_perm hsame).filter _

/-- The channel names break the ties between advancing readings. -/
theorem latestAdvancing_eq : latestAdvancing owned = latestAdvancing other := by
  refine argmax_eq_of_perm ((progressEvidence_perm hsame).filter _) fun a hmax b hsnd hkey ↦ ?_
  have hfst := List.argmax_mem hmax
  have hrank : a.source.rank = b.source.rank := congrArg (fun key ↦ (ofLex key).2) hkey
  have hsrc : a.source = b.source := by
    revert hrank
    cases a.source <;> cases b.source <;> decide
  have hin : ∀ snap ∈ (progressEvidence owned).filter (·.progress = .advancing), snap ∈ owned.entries :=
    fun snap hmem ↦ List.mem_of_mem_filter (List.mem_of_mem_filter (List.mem_of_mem_filter hmem))
  exact List.inj_on_of_nodup_map owned.sources_nodup (hin a hfst) (hin b hsnd) hsrc

/-! #### The reducer -/

theorem recordReadings_eq (tick : Tick) (opened : Draft) :
    recordReadings tick owned opened = recordReadings tick other opened := by
  have hresum : unfreezeIfResumed opened.episode owned tick.now = unfreezeIfResumed opened.episode other tick.now := by
    rw [unfreezeIfResumed, unfreezeIfResumed, stillSuspended, stillSuspended, hsame.any_eq]
  have habs : recordAbsence tick.now owned = recordAbsence tick.now other := by
    funext draft
    rw [recordAbsence, recordAbsence, hsame.get_eq]
  have hchild : recordChild owned = recordChild other := by
    funext episode
    rw [recordChild, recordChild, childReading_eq hsame]
  have hturn : recordTurn tick.now owned = recordTurn tick.now other := by
    funext episode
    rw [recordTurn, recordTurn, advisoryTurn_eq hsame]
  simp only [recordReadings, hresum, sortedEntries_eq hsame, habs, hchild, hturn, childClaim_eq hsame]

variable (tick : Tick) (episode : VitalityEpisode)

theorem selectArm_eq (hev : QuietDecides tick owned episode → latestEvidence owned = latestEvidence other) :
    selectArm tick owned episode = selectArm tick other episode := by
  have hstr := strongReadings_perm hsame
  have hall := sortedSources_filter_eq hsame fun _ ↦ true
  have hnil : (strongReadings owned).isEmpty = (strongReadings other).isEmpty := by
    rw [Bool.eq_iff_iff, List.isEmpty_iff_length_eq_zero, List.isEmpty_iff_length_eq_zero, hstr.length_eq]
  rw [List.filter_true, List.filter_true] at hall
  have hdead : showsDead owned = showsDead other := hstr.any_eq
  have hsusp : showsSuspended owned = showsSuspended other := hstr.any_eq
  have hjour : idleTurnJournal tick owned = idleTurnJournal tick other := by
    rw [idleTurnJournal, idleTurnJournal, hsame.get_eq]
  simp only [selectArm, hstr.any_eq, sortedSources_filter_eq hsame, ← hdead, ← hsusp, ← hjour,
    ← childClaim_eq hsame, ← latestAdvancing_eq hsame, hnil, hall]
  cases hd : showsDead owned with
  | true => rfl
  | false =>
    cases hs : showsSuspended owned with
    | true => rfl
    | false =>
      cases hadv : latestAdvancing owned with
      | some _ => rfl
      | none =>
        cases hidle : idleTurnJournal tick owned with
        | some _ => rfl
        | none =>
          cases hhold : childHold tick.thresholds (childClaim owned episode) with
          | some _ => rfl
          | none => rw [hev ⟨hd, hs, hadv, hidle, hhold⟩]

theorem concludeReadings_eq (hev : QuietDecides tick owned episode → latestEvidence owned = latestEvidence other) :
    concludeReadings tick owned episode = concludeReadings tick other episode := by
  rw [concludeReadings, concludeReadings, selectArm_eq hsame tick episode hev]
  congr 1
  cases selectArm tick other episode with
  | idleTurn _ => simp only [concludeArm, idleTurnStall, childClaim_eq hsame]
  | noProgressSource _ => simp only [concludeArm, noProgressSourceArm, darkDiagnostic_eq hsame]
  | dead | suspended | advancing | childHold | providerQuiet | allDark => rfl

/-- The quiet arm, on the same readings in another order. -/
theorem concludeReadings_quiet {latest : VitalitySnapshot} (hquiet : QuietDecides tick owned episode)
    (hlatest : latestEvidence other = some latest) :
    concludeReadings tick other episode = raiseOwedAnswer tick (providerQuietArm tick episode latest) := by
  have hstr := strongReadings_perm hsame
  have hdead : showsDead other = false := (hstr.any_eq).symm.trans hquiet.alive
  have hsusp : showsSuspended other = false := (hstr.any_eq).symm.trans hquiet.awake
  have hjour : idleTurnJournal tick other = none := by
    rw [← hquiet.noIdleTurn, idleTurnJournal, idleTurnJournal, hsame.get_eq]
  have hchild : childHold tick.thresholds (childClaim other episode) = none :=
    childClaim_eq hsame episode ▸ hquiet.noChild
  have hadv : latestAdvancing other = none := latestAdvancing_eq hsame ▸ hquiet.still
  rw [concludeReadings, selectArm]
  simp only [hdead, hsusp, hadv, hjour, hchild, hlatest, Bool.false_eq_true, if_false]
  rfl

theorem closeEpisode_eq (tick : Tick) (basis : List String) (ruling : Ruling) :
    closeEpisode tick owned basis ruling = closeEpisode tick other basis ruling := by
  rw [closeEpisode, closeEpisode, darkDiagnostic_eq hsame, advisoryBasis_eq hsame]

end Same

/-! ### A permuted batch -/

section Permuted

variable {snapshots others : List VitalitySnapshot}

/-- No two readings of a batch are of the same run and channel. -/
def OneReadingEach (snapshots : List VitalitySnapshot) : Prop :=
  (snapshots.map fun snapshot ↦ (snapshot.runId, snapshot.source)).Nodup

theorem entries_ownedReadings (heach : OneReadingEach snapshots) (run : RunId) :
    (ownedReadings run snapshots).entries = snapshots.filter (·.runId = run) := by
  refine entries_latestPerSource ?_
  have hpairs : ((snapshots.filter (·.runId = run)).map fun snap ↦ (snap.runId, snap.source)).Nodup :=
    heach.sublist (List.filter_sublist.map _)
  have hents := hpairs.of_map
  rw [List.nodup_map_iff_inj_on hents] at hpairs ⊢
  intro a hfst b hsnd hsrc
  have hruns := (List.mem_filter.mp hfst).2
  have hoth := (List.mem_filter.mp hsnd).2
  simp only [decide_eq_true_eq] at hruns hoth
  exact hpairs a hfst b hsnd (by rw [hruns, hoth, hsrc])

theorem same_ownedReadings (hperm : snapshots.Perm others) (heach : OneReadingEach snapshots) (run : RunId) :
    Readings.Same (ownedReadings run snapshots) (ownedReadings run others) := by
  have hoth : OneReadingEach others := (hperm.map _).nodup_iff.mp heach
  rw [Readings.Same, entries_ownedReadings heach, entries_ownedReadings hoth]
  exact hperm.filter _

theorem RunId.text_inj {first second : RunId} (htext : first.text = second.text) : first = second := by
  cases first
  cases second
  cases htext
  rfl

theorem runIdsOf_eq (hperm : snapshots.Perm others) : runIdsOf snapshots = runIdsOf others := by
  have : Std.Antisymm fun a b : RunId ↦ a.text ≤ b.text :=
    ⟨fun _ _ hab hba ↦ RunId.text_inj (le_antisymm hab hba)⟩
  refine List.Perm.eq_of_pairwise' (List.pairwise_insertionSort _ _) (List.pairwise_insertionSort _ _) ?_
  exact ((List.perm_insertionSort _ _).trans (hperm.map _).dedup).trans (List.perm_insertionSort _ _).symm

theorem resolveRunId_eq (previous : Option VitalityEpisode) {first other : VitalitySnapshot}
    {rest more : List VitalitySnapshot} (hperm : (first :: rest).Perm (other :: more)) :
    resolveRunId previous first rest = resolveRunId previous other more := by
  have hruns := runIdsOf_eq hperm
  have hnamed : other.runId ∈ runIdsOf (other :: more) := mem_runIdsOf.mpr ⟨other, List.mem_cons_self, rfl⟩
  have hhead : (runIdsOf (other :: more)).headD first.runId = (runIdsOf (other :: more)).headD other.runId := by
    cases hlist : runIdsOf (other :: more) with
    | nil => rw [hlist] at hnamed; cases hnamed
    | cons _ _ => rfl
  simp only [resolveRunId, hruns, hhead]

/-- The token of the quiet arm. -/
def quietToken (tick : Tick) (episode : VitalityEpisode) (source : SnapshotSource) : String :=
  "quiet:" ++ secondsText (tick.now - quietReference episode) ++ "@" ++ source.value

/-- The quiet arm uses the latest reading only for the name in its first token. -/
theorem quietRuling_eq (tick : Tick) (episode : VitalityEpisode) (latest other : VitalitySnapshot) :
    raiseOwedAnswer tick (providerQuietArm tick episode other) =
      { raiseOwedAnswer tick (providerQuietArm tick episode latest) with
        tokens := quietToken tick episode other.source ::
          (raiseOwedAnswer tick (providerQuietArm tick episode latest)).tokens.tail } := by
  simp only [raiseOwedAnswer, providerQuietArm, climbQuiet, quietToken]
  split_ifs <;> simp_all

/-- Instants at which the token of the quiet arm is not cut. -/
theorem quietToken_inj {tick : Tick} {episode : VitalityEpisode} (htime : wholeSeconds tick.now < 10 ^ 50)
    {source other : SnapshotSource}
    (hclip : BoundedText.clip basisTokenLimit (quietToken tick episode source) =
      BoundedText.clip basisTokenLimit (quietToken tick episode other)) : source = other := by
  have hquiet : wholeSeconds (tick.now - quietReference episode) < 10 ^ 50 :=
    (Nat.div_le_div_right (Nat.sub_le _ _)).trans_lt htime
  have hdigits : (toString (wholeSeconds (tick.now - quietReference episode))).toList.length ≤ 50 :=
    Nat.repr_length _ 50 (by decide) hquiet
  have hwords : "quiet:".toList.length = 6 ∧ "s".toList.length = 1 ∧ "@".toList.length = 1 := by decide
  have hchars := congrArg (fun text ↦ text.text.toList) hclip
  simp only [BoundedText.toList_clip, quietToken, secondsText, String.toList_append] at hchars
  have hfits (source : SnapshotSource) : source.value.toList.length ≤ 18 := by cases source <;> decide
  rw [List.take_of_length_le, List.take_of_length_le] at hchars
  · have hvalue := String.toList_inj.mp (List.append_cancel_left hchars)
    revert hvalue
    cases source <;> cases other <;> decide
  all_goals
    have hname := hfits source
    have hother := hfits other
    simp only [List.length_append, basisTokenLimit]
    omega

section Batch

variable (previous : Option VitalityEpisode) (tick : Tick) (first : VitalitySnapshot) (rest : List VitalitySnapshot)

/-- The readings that a reduction of a batch keeps. -/
def batchReadings : Readings := ownedReadings (resolveRunId previous first rest).1 (first :: rest)

/-- What a reduction of a batch has recorded before it looks for a verdict. -/
def batchDraft : Draft :=
  recordReadings tick (batchReadings previous first rest)
    ⟨openEpisode previous (resolveRunId previous first rest).1 tick.now,
      identityBasis previous (resolveRunId previous first rest)⟩

/-- The order of a batch shows: quiet decides, two readings about progress are the latest, and the token that names
the first of them is among the ten that are kept. -/
def OrderShows : Prop :=
  QuietDecides tick (batchReadings previous first rest) (batchDraft previous tick first rest).episode ∧
    (batchDraft previous tick first rest).basis.length < basisEntryLimit ∧
    ∃ one ∈ progressEvidence (batchReadings previous first rest),
      ∃ two ∈ progressEvidence (batchReadings previous first rest), one ≠ two ∧ one.observedAt = two.observedAt ∧
        ∀ reading ∈ progressEvidence (batchReadings previous first rest), reading.observedAt ≤ one.observedAt

variable {previous tick first rest}

variable (previous tick) in
/-- A permuted batch is recorded alike, and judged by the readings in its own order. -/
theorem reduceBatch_perm {other : VitalitySnapshot} {more : List VitalitySnapshot}
    (hperm : (first :: rest).Perm (other :: more)) (heach : OneReadingEach (first :: rest)) :
    Readings.Same (batchReadings previous first rest) (batchReadings previous other more) ∧
      reduceBatch previous tick other more =
        closeEpisode tick (batchReadings previous first rest) (batchDraft previous tick first rest).basis
          (concludeReadings tick (batchReadings previous other more) (batchDraft previous tick first rest).episode) := by
  have hsolved := resolveRunId_eq previous hperm
  have hsame : Readings.Same (batchReadings previous first rest) (batchReadings previous other more) := by
    rw [batchReadings, batchReadings, ← hsolved]
    exact same_ownedReadings hperm heach _
  refine ⟨hsame, ?_⟩
  rw [reduceBatch, batchDraft, recordReadings_eq hsame, closeEpisode_eq hsame, hsolved]
  rfl

/-- The quiet arm names the latest reading, at the place behind what was recorded. -/
theorem closeEpisode_quiet {latest : VitalitySnapshot} (owned : Readings) (episode : VitalityEpisode)
    (basis : List String) (hroom : basis.length < basisEntryLimit) :
    (closeEpisode tick owned basis (raiseOwedAnswer tick (providerQuietArm tick episode latest))).basis.tokens[basis.length]? =
      some (BoundedText.clip _ (quietToken tick episode latest.source)) := by
  rw [quietRuling_eq tick episode latest latest]
  simp [closeEpisode, Basis.clip, hroom]

/-- Behind ten tokens the one that names the latest reading is cut off. -/
theorem closeEpisode_quiet_full (owned : Readings) (episode : VitalityEpisode) {basis : List String}
    (hfull : basisEntryLimit ≤ basis.length) (one two : VitalitySnapshot) :
    closeEpisode tick owned basis (raiseOwedAnswer tick (providerQuietArm tick episode one)) =
      closeEpisode tick owned basis (raiseOwedAnswer tick (providerQuietArm tick episode two)) := by
  rw [quietRuling_eq tick episode two one]
  simp only [closeEpisode, Basis.clip, List.map_append, List.append_assoc]
  congr 2
  rw [List.take_append_of_le_length (by simpa using hfull), List.take_append_of_le_length (by simpa using hfull)]

/-- A batch with one of its latest readings in front names it. -/
theorem latestEvidence_front {reading : VitalitySnapshot} (heach : OneReadingEach (first :: rest))
    (hreading : reading ∈ progressEvidence (batchReadings previous first rest))
    (hlatest : ∀ o ∈ progressEvidence (batchReadings previous first rest), o.observedAt ≤ reading.observedAt) :
    ∃ more, (first :: rest).Perm (reading :: more) ∧
      latestEvidence (batchReadings previous reading more) = some reading := by
  obtain ⟨hstrong, hspeaks⟩ := List.mem_filter.mp hreading
  obtain ⟨hin, hstr⟩ := List.mem_filter.mp hstrong
  obtain ⟨hmem, hrun⟩ := mem_of_mem_ownedReadings hin
  have hperm := List.perm_cons_erase hmem
  refine ⟨_, hperm, ?_⟩
  have hsame := (reduceBatch_perm previous { snapshots := [], now := 0 } hperm heach).1
  have hoth : OneReadingEach (reading :: (first :: rest).erase reading) := (hperm.map _).nodup_iff.mp heach
  have hentries : (batchReadings previous reading ((first :: rest).erase reading)).entries =
      reading :: ((first :: rest).erase reading).filter (·.runId = (resolveRunId previous first rest).1) := by
    rw [batchReadings, entries_ownedReadings hoth, ← resolveRunId_eq previous hperm,
      List.filter_cons_of_pos (by simpa using hrun)]
  obtain ⟨others, hfront⟩ : ∃ others, progressEvidence (batchReadings previous reading ((first :: rest).erase reading)) =
      reading :: others := by
    rw [progressEvidence, strongReadings, hentries, List.filter_cons_of_pos hstr, List.filter_cons_of_pos hspeaks]
    exact ⟨_, rfl⟩
  rw [latestEvidence, hfront, List.argmax_cons]
  cases hmax : others.argmax (·.observedAt) with
  | none => rfl
  | some o =>
    have hle := hlatest o ((progressEvidence_perm hsame).mem_iff.mpr
      (hfront ▸ List.mem_cons_of_mem _ (List.argmax_mem hmax)))
    exact if_neg (Nat.not_lt.mpr hle)

/-- Every order of a batch with one reading per run and channel reduces alike, exactly if the order does not show. -/
theorem reduceBatch_perm_iff (heach : OneReadingEach (first :: rest)) (htime : wholeSeconds tick.now < 10 ^ 50) :
    (∀ other more, (first :: rest).Perm (other :: more) →
        reduceBatch previous tick other more = reduceBatch previous tick first rest) ↔
      ¬OrderShows previous tick first rest := by
  have hself := (reduceBatch_perm previous tick (.refl (first :: rest)) heach).2
  set owned := batchReadings previous first rest
  set draft := batchDraft previous tick first rest
  constructor
  · rintro hall ⟨hquiet, hroom, one, hone, two, htwo, hne, hinstant, hlatest⟩
    -- each of the two is named when it comes first
    have hnamed {reading : VitalitySnapshot} (hreading : reading ∈ progressEvidence owned)
        (hlast : ∀ o ∈ progressEvidence owned, o.observedAt ≤ reading.observedAt) :
        (reduceBatch previous tick first rest).basis.tokens[draft.basis.length]? =
          some (BoundedText.clip _
            (quietToken tick draft.episode reading.source)) := by
      obtain ⟨more, hperm, hfront⟩ := latestEvidence_front heach hreading hlast
      obtain ⟨hsame, hbatch⟩ := reduceBatch_perm previous tick hperm heach
      rw [← hall _ _ hperm, hbatch, concludeReadings_quiet hsame tick _ hquiet hfront]
      exact closeEpisode_quiet _ _ _ hroom
    have hclip := (hnamed hone hlatest).symm.trans (hnamed htwo (hinstant ▸ hlatest))
    have hsource := quietToken_inj htime (Option.some.inj hclip)
    have hin {reading : VitalitySnapshot} (hmem : reading ∈ progressEvidence owned) :
        reading ∈ owned.entries :=
      List.mem_of_mem_filter (List.mem_of_mem_filter hmem)
    exact hne (List.inj_on_of_nodup_map owned.sources_nodup (hin hone) (hin htwo) hsource)
  · intro hhidden other more hperm
    obtain ⟨hsame, hbatch⟩ := reduceBatch_perm previous tick hperm heach
    rw [hbatch, hself]
    by_cases hcut : QuietDecides tick owned draft.episode ∧ basisEntryLimit ≤ draft.basis.length
    · obtain ⟨hquiet, hfull⟩ := hcut
      cases hone : latestEvidence owned with
      | none =>
        rw [concludeReadings_eq hsame tick _ fun _ ↦ ?_]
        rw [latestEvidence, List.argmax_eq_none] at hone
        have hnil := hone ▸ progressEvidence_perm hsame
        rw [latestEvidence, latestEvidence, hone, List.nil_perm.mp hnil]
      | some one =>
        cases htwo : latestEvidence (batchReadings previous other more) with
        | none =>
          rw [latestEvidence, List.argmax_eq_none] at htwo
          have hmem := (progressEvidence_perm hsame).mem_iff.mp (List.argmax_mem hone)
          rw [htwo] at hmem
          cases hmem
        | some two =>
          rw [concludeReadings_quiet hsame tick _ hquiet htwo, concludeReadings_quiet (.refl _) tick _ hquiet hone]
          exact closeEpisode_quiet_full _ _ hfull two one
    · rw [concludeReadings_eq hsame tick _ fun hquiet ↦ ?_]
      refine argmax_eq_of_perm (progressEvidence_perm hsame) fun one hone two htwo hinstant ↦ ?_
      by_contra hne
      refine hhidden ⟨hquiet, Nat.not_le.mp fun hfull ↦ hcut ⟨hquiet, hfull⟩, one, List.argmax_mem hone, two, htwo, hne,
        hinstant, fun reading hreading ↦ List.le_of_mem_argmax hreading hone⟩

end Batch

end Permuted

/-! ### Other runs in a batch -/

section Foreign

/-- The tokens of the runs that a batch names besides one. -/
def droppedTokens (run : RunId) (snapshots : List VitalitySnapshot) : List String :=
  ((runIdsOf snapshots).filter (· ≠ run)).map fun foreign ↦ "dropped-foreign-run:" ++ foreign.text

/-- What a batch with readings of the stored run reduces to: the readings of that run decide everything but the
tokens of the runs that were dropped. -/
theorem reduceVitality_of_names {stored : VitalityEpisode} {tick : Tick} (hnames : tick.Names stored.runId) :
    let owned := tick.owned stored.runId
    let draft := recordReadings tick owned ⟨stored, []⟩
    reduceVitality (some stored) tick = .ok (closeEpisode tick owned
      (droppedTokens stored.runId tick.snapshots ++ draft.basis) (concludeReadings tick owned draft.episode)) := by
  have ⟨snapshot, hmem, _⟩ := hnames
  obtain ⟨a, rest, hcons⟩ := List.exists_cons_of_ne_nil (List.ne_nil_of_mem hmem)
  have hsol : (resolveRunId (some stored) a rest).1 = stored.runId := by
    refine (resolveRunId_spec (some stored) a rest).2 stored rfl ?_
    rw [← hcons]
    exact hnames
  have hfor : identityBasis (some stored) (resolveRunId (some stored) a rest) =
      droppedTokens stored.runId (a :: rest) := by
    have hsnd : (resolveRunId (some stored) a rest).2 =
        (runIdsOf (a :: rest)).filter (· ≠ (resolveRunId (some stored) a rest).1) := rfl
    simp [identityBasis, hsnd, hsol, droppedTokens]
  simp only [Tick.owned, reduceVitality, hcons, reduceBatch, hfor, hsol, openEpisode, if_true]
  rw [recordReadings_basis]

theorem concludeReadings_withSnapshots (tick : Tick) (others : List VitalitySnapshot) (owned : Readings)
    (episode : VitalityEpisode) :
    concludeReadings { tick with snapshots := others } owned episode = concludeReadings tick owned episode := by
  have harm : selectArm { tick with snapshots := others } owned episode = selectArm tick owned episode := rfl
  cases selectArm tick owned episode <;> rfl

/-- The kept ones of the tokens behind others. -/
theorem drop_tokens_clip (before own : List String) :
    (Basis.clip (before ++ own)).tokens.drop before.length =
      (own.map (BoundedText.clip basisTokenLimit)).take (basisEntryLimit - before.length) := by
  rw [Basis.clip, List.drop_take, List.map_append, List.drop_left' (List.length_map _)]

/-- A batch with one reading per run and channel reduces to the same episode in every order, exactly if its order
does not show. Readings of other runs beside those of the stored run change the tokens of the runs that were
dropped, and the tokens behind them exactly if not as many of them are kept. -/
theorem reduceVitality_batch_iff (previous : Option VitalityEpisode) {tick : Tick}
    (htime : wholeSeconds tick.now < 10 ^ 50) :
    (∀ first rest, tick.snapshots = first :: rest → OneReadingEach tick.snapshots →
      ((∀ others, tick.snapshots.Perm others →
          reduceVitality previous { tick with snapshots := others } = reduceVitality previous tick) ↔
        ¬OrderShows previous tick first rest)) ∧
      ∀ stored others, previous = some stored → tick.Names stored.runId →
        others.filter (·.runId = stored.runId) = tick.snapshots.filter (·.runId = stored.runId) →
        ∃ episode other own, reduceVitality previous tick = .ok episode ∧
          reduceVitality previous { tick with snapshots := others } = .ok other ∧
          other = { episode with basis := other.basis } ∧
          episode.basis = .clip (droppedTokens stored.runId tick.snapshots ++ own) ∧
          other.basis = .clip (droppedTokens stored.runId others ++ own) ∧
          (episode.basis.tokens.drop (droppedTokens stored.runId tick.snapshots).length =
              other.basis.tokens.drop (droppedTokens stored.runId others).length ↔
            min (basisEntryLimit - (droppedTokens stored.runId tick.snapshots).length) own.length =
              min (basisEntryLimit - (droppedTokens stored.runId others).length) own.length) := by
  refine ⟨fun first rest hsnaps heach ↦ ?_, fun stored others hdisk hnames hown ↦ ?_⟩
  · rw [hsnaps] at heach
    rw [← reduceBatch_perm_iff heach htime, hsnaps]
    have hbatch (other : VitalitySnapshot) (more : List VitalitySnapshot) :
        reduceVitality previous { tick with snapshots := other :: more } = reduceVitality previous tick ↔
          reduceBatch previous tick other more = reduceBatch previous tick first rest := by
      have hlater : reduceBatch previous { tick with snapshots := other :: more } other more =
          reduceBatch previous tick other more := by
        simp only [reduceBatch, concludeReadings_withSnapshots]
        rfl
      simp only [reduceVitality, hsnaps, hlater, Except.ok.injEq]
    constructor
    · exact fun hall other more hperm ↦ (hbatch other more).mp (hall _ hperm)
    · intro hall others hperm
      cases others with
      | nil => cases hperm.eq_nil
      | cons other more => exact (hbatch other more).mpr (hall other more hperm)
  · subst hdisk
    have hrest : Tick.Names { tick with snapshots := others } stored.runId := by
      obtain ⟨snap, hmem, hrun⟩ := hnames
      have hin : snap ∈ others.filter (·.runId = stored.runId) := by
        rw [hown]
        exact List.mem_filter.mpr ⟨hmem, by simpa using hrun⟩
      exact ⟨snap, (List.mem_filter.mp hin).1, hrun⟩
    have howned : Tick.owned { tick with snapshots := others } stored.runId = tick.owned stored.runId := by
      rw [Tick.owned, Tick.owned, ownedReadings, ownedReadings, hown]
    have hfst := reduceVitality_of_names hnames
    have hsnd := reduceVitality_of_names hrest
    have hrec : ∀ owned draft, recordReadings { tick with snapshots := others } owned draft =
        recordReadings tick owned draft := fun _ _ ↦ rfl
    simp only [howned, hrec, concludeReadings_withSnapshots] at hfst hsnd
    refine ⟨_, _, (recordReadings tick (tick.owned stored.runId) ⟨stored, []⟩).basis ++
      ((concludeReadings tick (tick.owned stored.runId)
        (recordReadings tick (tick.owned stored.runId) ⟨stored, []⟩).episode).tokens ++
          advisoryBasis (tick.owned stored.runId)), hfst, hsnd, rfl, ?_, ?_, ?_⟩
    · simp only [closeEpisode, List.append_assoc]
    · simp only [closeEpisode, List.append_assoc]
    · simp only [closeEpisode, List.append_assoc]
      rw [drop_tokens_clip, drop_tokens_clip, List.take_eq_take_iff, List.length_map]

/-- Two quiet channels read at one instant beside a dead process, the same readings the other way round, and with a
reading of another run in front. -/
theorem reduceVitality_batch_iff_witness :
    let stored : VitalityEpisode := { runId := sampleRun, startedAt := 1, updatedAt := 1 }
    let batch := [VitalitySnapshot.ofHeartbeat sampleRun 5 .dead, .ofProvider sampleRun 5 .quiet (.clip _ "p2"),
      .ofJournal sampleRun 5 .active 2 .quiet (.clip _ "j1:1")]
    let others := .ofHeartbeat ⟨"run-b", by decide⟩ 5 .running :: batch
    reduceVitality none { snapshots := batch.reverse, now := 5 } = reduceVitality none { snapshots := batch, now := 5 } ∧
      ∃ episode other, reduceVitality (some stored) { snapshots := batch, now := 5 } = .ok episode ∧
        reduceVitality (some stored) { snapshots := others, now := 5 } = .ok other ∧
        other = { episode with basis := other.basis } := by
  intro stored batch others
  have heach : OneReadingEach batch := by unfold OneReadingEach; decide
  have hhidden : ¬OrderShows none { snapshots := batch, now := 5 } (.ofHeartbeat sampleRun 5 .dead) batch.tail := by
    rintro ⟨hquiet, -⟩
    exact absurd hquiet.alive (by decide +kernel)
  have hnames : Tick.Names { snapshots := batch, now := 5 } stored.runId := ⟨_, List.mem_cons_self, rfl⟩
  have htime : wholeSeconds 5 < 10 ^ 50 := by decide
  obtain ⟨episode, other, _, hfst, hsnd, hsame, -⟩ :=
    (@reduceVitality_batch_iff (some stored) { snapshots := batch, now := 5 } htime).2 stored others rfl hnames (by decide)
  exact ⟨((@reduceVitality_batch_iff none { snapshots := batch, now := 5 } htime).1 _ _ rfl heach).mpr hhidden _
    (List.reverse_perm _).symm, episode, other, hfst, hsnd, hsame⟩

/-- Ten runs besides the sample run. -/
def otherRuns : List RunId :=
  [⟨"b0", by decide⟩, ⟨"b1", by decide⟩, ⟨"b2", by decide⟩, ⟨"b3", by decide⟩, ⟨"b4", by decide⟩, ⟨"b5", by decide⟩,
    ⟨"b6", by decide⟩, ⟨"b7", by decide⟩, ⟨"b8", by decide⟩, ⟨"b9", by decide⟩]

/-- Two quiet channels read at one instant: the order of the batch chooses the one that is named. With ten other
runs in the batch, the provenance of the verdict is gone. -/
theorem reduceVitality_batch_fails :
    let provider := VitalitySnapshot.ofProvider sampleRun 5 .quiet (.clip _ "p2")
    let journal := VitalitySnapshot.ofJournal sampleRun 5 .active 2 .quiet (.clip _ "j1:1")
    let basis := fun batch : List VitalitySnapshot ↦
      (reduceVitality (some { runId := sampleRun, startedAt := 1, updatedAt := 1 }) { snapshots := batch, now := 5 }).map
        fun episode ↦ episode.basis.tokens.map (·.text)
    basis [provider, journal] = .ok ["quiet:0s@provider_cursor"] ∧
      basis [journal, provider] = .ok ["quiet:0s@supervisor_journal"] ∧
      basis (provider :: otherRuns.map fun run ↦ .ofHeartbeat run 5 .running) =
        .ok (otherRuns.map fun run ↦ "dropped-foreign-run:" ++ run.text) := by
  decide +kernel

end Foreign

end Ummanu.Vitality
