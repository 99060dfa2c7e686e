import Ummanu.Continuation.Liveness

/-!
# What an episode keeps over observations, busy notes, ends and restarts

`Observed` says once what an observation can make of a record; everything about observations is read off
it. From it follow the three things an episode keeps, whatever evidence it is shown and wherever the
dispatcher restarts: a record whose source was rejected, or that a restart could not read back, is admitted
again by nothing but a new `begin` (`Fenced`); the source of an established baseline stays (`Sound`, which
every step keeps and which the reader of saved records accepts); and a busy note counts only after an
observation of the episode's own head run that found the cursor where it was (`SameCursor`).

Scope. The recovery rungs that the driver writes into the record are not among the events of this file;
they are part of the driver's model.
-/

set_option autoImplicit false

namespace Ummanu.Continuation

open Library Liveness

variable {evidence : Option Evidence} {answer : Observation} {after : Liveness} {now : ℕ}

variable {liveness : Liveness} {headRun : Option HeadBinding}

/-! ### Observations -/

/-- The evidence shows, for this head run, the source of the baseline and the cursor already known. -/
structure SameCursor (liveness : Liveness) (evidence : Option Evidence) (headRun : Option HeadBinding)
    (seen : Evidence) : Prop where
  shown : evidence = some seen
  established : liveness.baselineEstablished = true
  unrejected : liveness.sourceRejected = false
  own : liveness.bindsTo headRun = true
  admits : liveness.admits seen = true
  source : BoundedText.clip 80 seen.source = liveness.providerSource
  fingerprint : BoundedText.clip 64 seen.sourceFingerprint = liveness.providerSourceFingerprint
  cursor : BoundedText.clip 240 seen.cursor = liveness.providerCursor

/-- The evidence names a source, its fingerprint and a cursor. -/
structure Complete (seen : Evidence) : Prop where
  source : (BoundedText.clip 80 seen.source).isPresent = true
  fingerprint : isFingerprint (BoundedText.clip 64 seen.sourceFingerprint).text = true
  cursor : (BoundedText.clip 240 seen.cursor).isPresent = true

/-- What an observation can make of a record, and what it answers. -/
inductive Observed (liveness : Liveness) (evidence : Option Evidence) (now : ℕ)
    (headRun : Option HeadBinding) : Liveness → Observation → Prop
  | fenced (hrej : liveness.sourceRejected = true) :
      Observed liveness evidence now headRun liveness .unknown
  | foreign (reason : String) (hforeign : liveness.bindsTo headRun = false)
      (hreason : (BoundedText.clip 240 reason).isPresent = true) :
      Observed liveness evidence now headRun (liveness.rejectAsUnknown reason) .unknown
  | mismatched (reason : String) (hown : liveness.bindsTo headRun = true) :
      Observed liveness evidence now headRun
        { (liveness.stamped now).rejectAsUnknown reason with lastProviderObservedAt := now } .unknown
  | refused (reason : String) (hown : liveness.bindsTo headRun = true) :
      Observed liveness evidence now headRun ((liveness.stamped now).rejectAsUnknown reason) .unknown
  | withdrawn (reason : String) (answer : Observation) (hown : liveness.bindsTo headRun = true)
      (hrej : liveness.sourceRejected = false)
      (hanswer : answer = .unavailable ∨ answer = .legacyUnbound) :
      Observed liveness evidence now headRun ((liveness.stamped now).withdrawn reason now) answer
  | baseline (seen : Evidence) (hown : liveness.bindsTo headRun = true)
      (hrej : liveness.sourceRejected = false)
      (hpend : liveness.state = .baselinePending) (hcomplete : Complete seen)
      (hest : liveness.baselineEstablished = false) :
      Observed liveness evidence now headRun ((liveness.stamped now).baselined seen now) .baseline
  | stalled (seen : Evidence) (hsame : SameCursor liveness evidence headRun seen) :
      Observed liveness evidence now headRun
        { liveness.stamped now with
          lastProviderObservedAt := now
          state := .stalled
          reason := .clip 240 "provider cursor has not advanced" } .stalled
  | progressed (cursor : BoundedText 240) (hown : liveness.bindsTo headRun = true)
      (hrej : liveness.sourceRejected = false)
      (hest : liveness.baselineEstablished = true) (hcursor : cursor.isPresent = true) :
      Observed liveness evidence now headRun ((liveness.stamped now).advanced cursor now) .progressed

/-- Stamping the first observation changes that stamp alone. -/
theorem stamped_eq (liveness : Liveness) (now : ℕ) :
    ∃ first, liveness.stamped now = { liveness with firstObservedAt := first } := by
  unfold Liveness.stamped
  split
  · exact ⟨now, rfl⟩
  · exact ⟨liveness.firstObservedAt, rfl⟩

theorem observeAdmitted_observed {seen : Evidence} (hrej : liveness.sourceRejected = false)
    (hown : liveness.bindsTo headRun = true) (hadmits : liveness.admits seen = true) :
    Observed liveness (some seen) now headRun ((liveness.stamped now).observeAdmitted seen now).1
      ((liveness.stamped now).observeAdmitted seen now).2 := by
  obtain ⟨_, hstamp⟩ := stamped_eq liveness now
  have hest : (liveness.stamped now).baselineEstablished = liveness.baselineEstablished := by
    rw [hstamp]
  unfold Liveness.observeAdmitted
  dsimp only
  split_ifs with hpart hnone hstate hoth hcursor
  · exact .withdrawn _ .unavailable hown hrej (.inl rfl)
  · exact .refused _ hown
  · simp only [Bool.or_eq_true, Bool.not_eq_true', not_or, Bool.not_eq_false] at hpart
    rw [not_not, hstamp] at hstate
    exact .baseline seen hown hrej hstate ⟨hpart.1.1, hpart.1.2, hpart.2⟩ (hest ▸ hnone)
  · exact .refused _ hown
  · rw [Bool.not_eq_false, hest] at hnone
    rw [not_or, not_not, not_not, hstamp] at hoth
    rw [hstamp] at hcursor
    exact .stalled seen ⟨rfl, hnone, hrej, hown, hadmits, hoth.1, hoth.2, hcursor⟩
  · simp only [Bool.or_eq_true, Bool.not_eq_true', not_or, Bool.not_eq_false] at hpart
    rw [Bool.not_eq_false, hest] at hnone
    exact .progressed _ hown hrej hnone hpart.2

/-- Every observation is one of the cases. -/
theorem observeProvider_observed (liveness : Liveness) (evidence : Option Evidence) (now : ℕ)
    (headRun : Option HeadBinding) :
    Observed liveness evidence now headRun (liveness.observeProvider evidence now headRun).1
      (liveness.observeProvider evidence now headRun).2 := by
  unfold observeProvider
  split_ifs with hrej hfor
  · exact .fenced hrej
  · exact .foreign _ hfor (by decide)
  rw [Bool.not_eq_true] at hrej
  rw [Bool.not_eq_false] at hfor
  match evidence with
  | none => exact .withdrawn _ .unavailable hfor hrej (.inl rfl)
  | some seen =>
    unfold Liveness.observeOwn
    dsimp only
    split_ifs with hlegacy hunadm hmismatch
    · exact .withdrawn _ .legacyUnbound hfor hrej (.inr rfl)
    · exact .mismatched _ hfor
    · exact .mismatched _ hfor
    · exact .withdrawn _ .unavailable hfor hrej (.inl rfl)
    · exact .withdrawn _ .unavailable hfor hrej (.inl rfl)
    · have hadmits : liveness.admits seen = true := by
        obtain ⟨_, hstamp⟩ := stamped_eq liveness now
        rw [Bool.not_eq_false, hstamp] at hunadm
        exact hunadm
      exact observeAdmitted_observed hrej hfor hadmits

/-! ### Well-formed records -/

/-- What every transition keeps of a record. -/
structure WellFormed (liveness : Liveness) : Prop where
  binding : liveness.headRunId = "" ∧ liveness.headRunFingerprint = "" ∨
    liveness.headRunId ≠ "" ∧ isFingerprint liveness.headRunFingerprint = true
  rejected : liveness.sourceRejected = true → liveness.state = .unknown
  unknown : liveness.bound = true → liveness.state = .unknown → liveness.sourceRejected = true
  unbound : liveness.bound = false → liveness.state = .unknown
  untraced : liveness.baselineEstablished = false → liveness.traced = false
  pending : liveness.baselineEstablished = false →
    (liveness.state = .baselinePending ∨ liveness.state = .unavailable ∨ liveness.state = .unknown) ∧
      (liveness.recoveryRung = .none ∨ liveness.recoveryRung = .terminal)
  established : liveness.baselineEstablished = true →
    liveness.bound = true ∧ liveness.sourced = true ∧ liveness.state ≠ .baselinePending
  terminal : liveness.recoveryRung = .terminal ↔ liveness.terminalOutcome.isPresent = true
  rung : liveness.state = .baselined → liveness.recoveryRung = .none ∨ liveness.recoveryRung = .terminal

theorem isFingerprint_empty : isFingerprint "" = false := by decide

/-- A bound record is bound to a head run of the right shape. -/
theorem WellFormed.shape (hwf : WellFormed liveness) (hbound : liveness.bound = true) :
    liveness.headRunId ≠ "" ∧ isFingerprint liveness.headRunFingerprint = true := by
  rcases hwf.binding with ⟨hid, -⟩ | hshape
  · simp [bound, hid] at hbound
  · exact hshape

theorem bound_of_bindsTo (hown : liveness.bindsTo headRun = true) : liveness.bound = true := by
  match headRun with
  | none => simp [bindsTo] at hown
  | some _ =>
    simp only [bindsTo, decide_eq_true_eq] at hown
    exact hown.1

theorem unknown_wellFormed (reason : String) (legacyBusyAttempts : ℕ) :
    WellFormed (Liveness.unknown reason legacyBusyAttempts) where
  binding := .inl ⟨rfl, rfl⟩
  rejected := nofun
  unknown := nofun
  unbound := fun _ ↦ rfl
  untraced := fun _ ↦ rfl
  pending := fun _ ↦ ⟨.inr (.inr rfl), .inl rfl⟩
  established := nofun
  terminal := ⟨nofun, nofun⟩
  rung := nofun

theorem begin_wellFormed (headRun : Option HeadBinding) : WellFormed (begin headRun) := by
  match headRun with
  | none => exact unknown_wellFormed _ _
  | some binding =>
    have hprint : binding.fingerprint ≠ "" := by
      intro hnil
      have hok := binding.fingerprint_ok
      rw [hnil, isFingerprint_empty] at hok
      exact nomatch hok
    exact {
      binding := .inr ⟨binding.runId_ne, binding.fingerprint_ok⟩
      rejected := nofun
      unknown := fun _ ↦ nofun
      unbound := by simp [bound, begin, binding.runId_ne, hprint]
      untraced := fun _ ↦ rfl
      pending := fun _ ↦ ⟨.inl rfl, .inl rfl⟩
      established := nofun
      terminal := ⟨nofun, nofun⟩
      rung := nofun }

section

variable (hwf : WellFormed liveness)
include hwf

/-- Times that are written for the record's reader alone. -/
theorem WellFormed.timed (first seen : ℕ) :
    WellFormed { liveness with firstObservedAt := first, lastProviderObservedAt := seen } :=
  { hwf with }

theorem WellFormed.stamped (now : ℕ) : WellFormed (liveness.stamped now) := by
  obtain ⟨a, hstamp⟩ := stamped_eq liveness now
  rw [hstamp]
  exact hwf.timed a liveness.lastProviderObservedAt

theorem WellFormed.rejectAsUnknown (reason : String) : WellFormed (liveness.rejectAsUnknown reason) :=
  { hwf with
    rejected := fun _ ↦ rfl
    unknown := fun _ _ ↦ rfl
    unbound := fun _ ↦ rfl
    pending := fun hpend ↦ ⟨.inr (.inr rfl), (hwf.pending hpend).2⟩
    established := fun hest ↦
      ⟨(hwf.established hest).1, (hwf.established hest).2.1, nofun⟩
    rung := nofun }

section

variable (hrej : liveness.sourceRejected = false)
include hrej

theorem WellFormed.withdrawn (hbound : liveness.bound = true) (reason : String) (now : ℕ) :
    WellFormed (liveness.withdrawn reason now) :=
  { hwf with
    rejected := fun hdeny ↦ nomatch hrej.symm.trans hdeny
    unknown := fun _ ↦ nofun
    unbound := fun hfree ↦ nomatch hbound.symm.trans hfree
    pending := fun hpend ↦ ⟨.inr (.inl rfl), (hwf.pending hpend).2⟩
    established := fun hest ↦
      ⟨(hwf.established hest).1, (hwf.established hest).2.1, nofun⟩
    rung := nofun }

theorem WellFormed.baselined (hbound : liveness.bound = true)
    (hest : liveness.baselineEstablished = false) {seen : Evidence} (hcomplete : Complete seen)
    (now : ℕ) : WellFormed (liveness.baselined seen now) :=
  { hwf with
    rejected := fun hdeny ↦ nomatch hrej.symm.trans hdeny
    unknown := fun _ ↦ nofun
    unbound := fun hfree ↦ nomatch hbound.symm.trans hfree
    untraced := nofun
    pending := nofun
    established := fun _ ↦ ⟨hbound, by
      simp [sourced, Liveness.baselined, hcomplete.source, hcomplete.fingerprint, hcomplete.cursor],
      nofun⟩
    rung := fun _ ↦ (hwf.pending hest).2 }

/-- An admitted observation of the known cursor. -/
theorem WellFormed.halted (hest : liveness.baselineEstablished = true) (reason : BoundedText 240) (now : ℕ) :
    WellFormed { liveness with lastProviderObservedAt := now, state := .stalled, reason := reason } :=
  { hwf with
    rejected := fun hdeny ↦ nomatch hrej.symm.trans hdeny
    unknown := fun _ ↦ nofun
    unbound := fun hfree ↦ nomatch (hwf.established hest).1.symm.trans hfree
    pending := fun hnone ↦ nomatch hest.symm.trans hnone
    established := fun _ ↦
      ⟨(hwf.established hest).1, (hwf.established hest).2.1, nofun⟩
    rung := nofun }

theorem WellFormed.advanced (hest : liveness.baselineEstablished = true) {cursor : BoundedText 240}
    (hcursor : cursor.isPresent = true) (now : ℕ) : WellFormed (liveness.advanced cursor now) := by
  obtain ⟨hbound, hsrc, -⟩ := hwf.established hest
  have hsourced' : (liveness.advanced cursor now).sourced = true := by
    rw [sourced, decide_eq_true_eq] at hsrc ⊢
    exact ⟨hsrc.1, hcursor, hsrc.2.2⟩
  exact {
    binding := hwf.binding
    rejected := fun hdeny ↦ nomatch hrej.symm.trans hdeny
    unknown := fun _ ↦ nofun
    unbound := fun hfree ↦ nomatch hbound.symm.trans hfree
    untraced := fun hnone ↦ nomatch hest.symm.trans hnone
    pending := fun hnone ↦ nomatch hest.symm.trans hnone
    established := fun _ ↦ ⟨hbound, hsourced', nofun⟩
    terminal := by
      -- the outcome is wiped, and so is every rung but the response window
      simp only [Liveness.advanced]
      split <;> exact ⟨nofun, nofun⟩
    rung := nofun }

end

/-- Observations keep records well formed. -/
theorem WellFormed.observed (hobs : Observed liveness evidence now headRun after answer) :
    WellFormed after := by
  obtain ⟨_, hstamp⟩ := stamped_eq liveness now
  have hstampOk := hwf.stamped now
  rw [hstamp] at hstampOk
  cases hobs with
  | fenced _ => exact hwf
  | foreign why _ _ => exact hwf.rejectAsUnknown why
  | mismatched why _ => exact ((hwf.stamped now).rejectAsUnknown why).timed _ now
  | refused why _ => exact (hwf.stamped now).rejectAsUnknown why
  | withdrawn why _ hown hrej _ =>
    rw [hstamp]
    exact hstampOk.withdrawn hrej (bound_of_bindsTo hown) why now
  | baseline seen hown hrej _ hcomplete hest =>
    rw [hstamp]
    exact hstampOk.baselined hrej (bound_of_bindsTo hown) hest hcomplete now
  | stalled seen hsame =>
    rw [hstamp]
    exact hstampOk.halted hsame.unrejected hsame.established _ now
  | progressed _ _ hrej hest hcursor =>
    rw [hstamp]
    exact hstampOk.advanced hrej hest hcursor now

end

/-! ### What a restart makes of a well-formed record -/

/-- The rung of an unrejected record agrees with its attempts and times. -/
def Liveness.rungKept (liveness : Liveness) : Prop :=
  (liveness.recoveryRung = .responseWindow →
      liveness.recoveryAttempts = 1 ∧ liveness.recoveryAttemptedAt < liveness.recoveryResponseDeadline) ∧
    (liveness.recoveryRung = .resumeOnce → liveness.recoveryAttempts = 1)

/-- What the reader asks of a bound record, beyond what every transition keeps. -/
def Liveness.readable (liveness : Liveness) : Prop :=
  if liveness.sourceRejected = true ∨ liveness.state = .baselinePending then
    liveness.baselineEstablished = true ∨ liveness.recoveryRung = .none
  else liveness.rungKept

/-- A record that waits for its first observation has no time of one. -/
def Liveness.unobserved (liveness : Liveness) : Prop :=
  liveness.state = .baselinePending → liveness.firstObservedAt = 0 ∧ liveness.lastProviderObservedAt = 0

theorem rungIncoherence_eq_none_iff (hwf : WellFormed liveness)
    (hstate : liveness.state ≠ .unknown ∧ liveness.state ≠ .baselinePending) :
    liveness.rungIncoherence = none ↔ liveness.rungKept := by
  have hterm := hwf.terminal
  have hrung := hwf.rung
  unfold rungIncoherence rungKept
  cases hcase : liveness.recoveryRung with
  | terminal => simp [hterm.mp hcase]
  | none => simpa [hcase] using hterm
  | pending | unavailable | responseWindow | resumeOnce =>
    have hblank : liveness.terminalOutcome.isPresent = false := by
      simpa [hcase] using hterm
    -- such a rung stands only beside a state that an observation of the baseline leaves
    have hver : ¬ (liveness.state ≠ .stalled ∧ liveness.state ≠ .progressed ∧
        liveness.state ≠ .unavailable) := by
      cases hstateCase : liveness.state <;> simp_all
    simp [hblank, hver]

theorem incoherence_eq_none_iff (hwf : WellFormed liveness) (hbound : liveness.bound = true)
    (hunobs : liveness.unobserved) : liveness.incoherence = none ↔ liveness.readable := by
  have hrung := rungIncoherence_eq_none_iff hwf
  have hrej := hwf.rejected
  have hest := hwf.established
  have huntr := hwf.untraced
  have hlow := hwf.pending
  have hblank : liveness.recoveryRung = .none → liveness.terminalOutcome.isPresent = false := by
    intro hnone
    simpa [hnone] using hwf.terminal
  unfold incoherence readable
  cases hstate : liveness.state with
  | baselinePending =>
    have hbase : liveness.baselineEstablished = false := by
      by_contra hopen
      exact (hest (Bool.not_eq_false _ ▸ hopen)).2.2 hstate
    obtain ⟨hfst, hlast⟩ := hunobs hstate
    rcases (hlow hbase).2 with hnone | hend
    · simp [hbase, huntr hbase, hnone, hblank hnone, hfst, hlast, rungIncoherence]
    · simp [hbase, hend]
  | unknown =>
    have hfence := hwf.unknown hbound hstate
    cases hbase : liveness.baselineEstablished with
    | true => simp [hfence, (hest hbase).2.1]
    | false =>
      rcases (hlow hbase).2 with hnone | hend
      · simp [hfence, huntr hbase, hnone, hblank hnone]
      · simp [hfence, hend]
  | unavailable =>
    have hopen : liveness.sourceRejected = false := by
      simpa [hstate] using hrej
    cases hbase : liveness.baselineEstablished with
    | true => simpa [hopen, (hest hbase).2.1, hstate] using hrung
    | false =>
      have hrungs : ¬ (liveness.recoveryRung ≠ .none ∧ liveness.recoveryRung ≠ .terminal) := by
        rcases (hlow hbase).2 with hnone | hend
        · exact fun hboth ↦ hboth.1 hnone
        · exact fun hboth ↦ hboth.2 hend
      simpa [hopen, huntr hbase, hrungs, hstate] using hrung
  | baselined | stalled | progressed =>
    have hopen : liveness.sourceRejected = false := by
      simpa [hstate] using hrej
    have hbase : liveness.baselineEstablished = true := by
      by_contra hnone
      have hstates := (hlow (Bool.not_eq_true _ ▸ hnone)).1
      simp [hstate] at hstates
    simpa [hopen, hbase, (hest hbase).2.1, hstate] using hrung

/-- A restart keeps a bound record exactly when it is readable, and otherwise loses the binding. -/
theorem reload_eq_iff (hwf : WellFormed liveness) (hbound : liveness.bound = true)
    (hunobs : liveness.unobserved) : liveness.reload = liveness ↔ liveness.readable := by
  obtain ⟨hid, hprint⟩ := hwf.shape hbound
  have hexp : liveness.explicitUnknown = false := by
    simp [Liveness.explicitUnknown, hid]
  rw [← incoherence_eq_none_iff hwf hbound hunobs, reload_eq_checked, checked]
  simp only [hexp, Bool.false_eq_true, false_and, if_false, hid, hprint, false_or, reduceCtorEq]
  cases hincoh : liveness.incoherence with
  | some _ =>
    simp only [reduceCtorEq, iff_false]
    intro hsame
    rw [← hsame] at hbound
    exact nomatch hbound
  | none =>
    simp only [iff_true]
    have hsrc : decide (liveness.state = .unknown) = liveness.sourceRejected := by
      cases hrej : liveness.sourceRejected with
      | true => simpa using hwf.rejected hrej
      | false =>
        simp only [decide_eq_false_iff_not]
        intro hunk
        exact nomatch hrej.symm.trans (hwf.unknown hbound hunk)
    rw [hsrc]

theorem rungIncoherence_isPresent {reason : String} (hwhy : liveness.rungIncoherence = some reason) :
    (BoundedText.clip 240 reason).isPresent = true := by
  unfold rungIncoherence at hwhy
  split_ifs at hwhy <;> cases hwhy <;> decide

theorem incoherence_isPresent {reason : String} (hwhy : liveness.incoherence = some reason) :
    (BoundedText.clip 240 reason).isPresent = true := by
  unfold incoherence at hwhy
  split at hwhy <;> split_ifs at hwhy <;> first | exact rungIncoherence_isPresent hwhy | (cases hwhy; decide)

/-- A record that a restart does not keep becomes one of an unknown, unbound episode, with a reason. -/
theorem reload_cases (liveness : Liveness) :
    (∃ reason legacy, liveness.reload = .unknown reason legacy ∧ (BoundedText.clip 240 reason).isPresent = true) ∨
      liveness.reload = { liveness with sourceRejected := liveness.state = .unknown } ∧
        liveness.headRunId ≠ "" ∧ isFingerprint liveness.headRunFingerprint = true := by
  rw [reload_eq_checked, checked]
  split_ifs with hexp hwhy hbind
  · exact .inl ⟨_, _, rfl, by rwa [BoundedText.clip_text]⟩
  · exact .inl ⟨_, _, rfl, by decide⟩
  · exact .inl ⟨_, _, rfl, by decide⟩
  · rw [not_or, Bool.not_eq_false] at hbind
    cases hincoh : liveness.incoherence with
    | some _ => exact .inl ⟨_, _, rfl, incoherence_isPresent hincoh⟩
    | none => exact .inr ⟨rfl, hbind⟩

/-! ### Runs of one episode -/

/-- What happens to an episode between two `begin`s. -/
inductive EpisodeEvent
  | observe (evidence : Option Evidence) (now : ℕ) (headRun : Option HeadBinding)
  | busy (now : ℕ)
  | terminalize (outcome : TerminalOutcome) (reason : String)
  | reload

def Liveness.step (liveness : Liveness) : EpisodeEvent → Liveness
  | .observe evidence now headRun => (liveness.observeProvider evidence now headRun).1
  | .busy now => liveness.noteBusy now
  | .terminalize outcome reason => liveness.terminalize outcome reason
  | .reload => liveness.reload

def Liveness.play (liveness : Liveness) (events : List EpisodeEvent) : Liveness :=
  events.foldl Liveness.step liveness

/-- A busy note counts for an admitted, stalled episode and changes nothing otherwise. -/
theorem noteBusy_cases (liveness : Liveness) (now : ℕ) :
    liveness.noteBusy now = liveness ∨
      liveness.admitted = true ∧ liveness.state = .stalled ∧ ∃ first, liveness.noteBusy now =
        { liveness with firstBusyAt := first, busyAttempts := liveness.busyAttempts + 1 } := by
  unfold Liveness.noteBusy
  by_cases hidle : liveness.admitted = false ∨ liveness.state ≠ .stalled
  · exact .inl (if_pos hidle)
  · rw [if_neg hidle]
    rw [not_or, Bool.not_eq_false, not_not] at hidle
    exact .inr ⟨hidle.1, hidle.2, _, rfl⟩

theorem admitted_iff (liveness : Liveness) : liveness.admitted = true ↔
    liveness.bound = true ∧ liveness.baselineEstablished = true ∧ liveness.state ≠ .unknown ∧
      liveness.state ≠ .unavailable := by
  rw [Liveness.admitted, decide_eq_true_eq]

theorem WellFormed.noteBusy (hwf : WellFormed liveness) (now : ℕ) :
    WellFormed (liveness.noteBusy now) := by
  rcases noteBusy_cases liveness now with hidle | ⟨hadm, -, _, hnoted⟩
  · rw [hidle]
    exact hwf
  · have hest := ((admitted_iff liveness).mp hadm).2.1
    rw [hnoted]
    exact { hwf with untraced := fun hnone ↦ nomatch hest.symm.trans hnone }

theorem outcome_isPresent (outcome : TerminalOutcome) :
    (BoundedText.clip 80 outcome.value).isPresent = true := by
  cases outcome <;> decide

theorem WellFormed.terminalize (hwf : WellFormed liveness) (outcome : TerminalOutcome) (reason : String) :
    WellFormed (liveness.terminalize outcome reason) :=
  { hwf with
    pending := fun hpend ↦ ⟨(hwf.pending hpend).1, .inr rfl⟩
    terminal := ⟨fun _ ↦ outcome_isPresent outcome, fun _ ↦ rfl⟩
    rung := fun _ ↦ .inr rfl }

theorem WellFormed.reload (hwf : WellFormed liveness) : WellFormed liveness.reload := by
  rcases reload_cases liveness with ⟨why, legacy, hunk, -⟩ | ⟨hkept, -⟩
  · rw [hunk]
    exact unknown_wellFormed why legacy
  · rw [hkept]
    exact { hwf with
      rejected := fun hrej ↦ of_decide_eq_true hrej
      unknown := fun _ hunk ↦ decide_eq_true hunk }

theorem WellFormed.step (hwf : WellFormed liveness) (event : EpisodeEvent) :
    WellFormed (liveness.step event) := by
  cases event with
  | observe evidence now headRun =>
    exact hwf.observed (observeProvider_observed liveness evidence now headRun)
  | busy now => exact hwf.noteBusy now
  | terminalize out why => exact hwf.terminalize out why
  | reload => exact hwf.reload

/-- The only rungs of an episode whose recovery was never tried. -/
def Untried (liveness : Liveness) : Prop :=
  liveness.recoveryRung = .none ∨ liveness.recoveryRung = .terminal

theorem Untried.observed (hnew : Untried liveness)
    (hobs : Observed liveness evidence now headRun after answer) : Untried after := by
  obtain ⟨a, hstamp⟩ := stamped_eq liveness now
  cases hobs with
  | progressed _ _ _ _ _ =>
    left
    rw [hstamp]
    rcases hnew with hrung | hrung <;> simp [Liveness.advanced, hrung]
  | fenced _ | foreign _ _ _ => exact hnew
  | mismatched _ _ | refused _ _ | withdrawn _ _ _ _ _ | baseline _ _ _ _ _ _ | stalled _ _ =>
    rw [hstamp]
    exact hnew

theorem Untried.step (hnew : Untried liveness) (event : EpisodeEvent) : Untried (liveness.step event) := by
  cases event with
  | observe evidence now headRun =>
    exact hnew.observed (observeProvider_observed liveness evidence now headRun)
  | busy now =>
    show Untried (liveness.noteBusy now)
    rcases noteBusy_cases liveness now with hidle | ⟨-, -, _, hnoted⟩
    · rwa [hidle]
    · rw [hnoted]
      exact hnew
  | terminalize _ why => exact .inr rfl
  | reload =>
    rcases reload_cases liveness with ⟨why, _, hunk, -⟩ | ⟨hkept, -⟩
    · exact .inl (by rw [Liveness.step, hunk]; rfl)
    · show Untried liveness.reload
      rw [hkept]
      exact hnew

/-- A well-formed episode with a baseline and no recovery is kept by a restart. -/
theorem reload_eq_self (hwf : WellFormed liveness) (hnew : Untried liveness)
    (hest : liveness.baselineEstablished = true) : liveness.reload = liveness := by
  obtain ⟨hbound, -, hpend⟩ := hwf.established hest
  rw [reload_eq_iff hwf hbound fun hstate ↦ absurd hstate hpend, readable]
  split_ifs
  · exact .inl hest
  · rcases hnew with hrung | hrung <;> simp [rungKept, hrung]

/-- Nothing but a new `begin` admits the episode again. -/
def Fenced (liveness : Liveness) : Prop :=
  liveness.state = .unknown ∧ (liveness.sourceRejected = true ∨ liveness.bound = false)

theorem Fenced.not_admitted (hfence : Fenced liveness) : liveness.admitted = false := by
  by_contra hadm
  rw [Bool.not_eq_false, admitted_iff] at hadm
  exact hadm.2.2.1 hfence.1

theorem fenced_of_reload_unknown (hunk : liveness.reload.state = .unknown) : Fenced liveness.reload := by
  refine ⟨hunk, ?_⟩
  rcases reload_cases liveness with ⟨_, _, hlost, -⟩ | ⟨hkept, -⟩
  · right
    rw [hlost]
    rfl
  · left
    rw [hkept] at hunk ⊢
    exact decide_eq_true hunk

theorem Fenced.step (hfenced : Fenced liveness) (event : EpisodeEvent) : Fenced (liveness.step event) := by
  obtain ⟨hunk, hfence⟩ := hfenced
  cases event with
  | observe evidence now headRun =>
    show Fenced (liveness.observeProvider evidence now headRun).1
    rcases hfence with hrej | hfree
    · rw [observeProvider, if_pos hrej]
      exact ⟨hunk, .inl hrej⟩
    · have hfor : liveness.bindsTo headRun = false := by
        by_contra hown
        exact nomatch hfree.symm.trans (bound_of_bindsTo (Bool.not_eq_false _ ▸ hown))
      rw [observeProvider]
      split_ifs
      · exact ⟨hunk, .inr hfree⟩
      · exact ⟨rfl, .inl rfl⟩
  | busy now =>
    rcases noteBusy_cases liveness now with hidle | ⟨-, hstall, -⟩
    · show Fenced (liveness.noteBusy now)
      rw [hidle]
      exact ⟨hunk, hfence⟩
    · exact nomatch hunk.symm.trans hstall
  | terminalize _ why => exact ⟨hunk, hfence⟩
  | reload =>
    apply fenced_of_reload_unknown
    rcases reload_cases liveness with ⟨why, _, hlost, -⟩ | ⟨hkept, -⟩
    · rw [hlost]
      rfl
    · rw [hkept]
      exact hunk

theorem Fenced.play (hfence : Fenced liveness) (events : List EpisodeEvent) : Fenced (liveness.play events) :=
  List.foldlRecOn events _ hfence fun _ hfence ev _ ↦ hfence.step ev

/-- The episode has a baseline of the same source. -/
def SameSource (before after : Liveness) : Prop :=
  after.baselineEstablished = true ∧ after.providerSource = before.providerSource ∧
    after.providerSourceFingerprint = before.providerSourceFingerprint

theorem Observed.sameSource (hest : liveness.baselineEstablished = true)
    (hobs : Observed liveness evidence now headRun after answer) : SameSource liveness after := by
  obtain ⟨_, hstamp⟩ := stamped_eq liveness now
  cases hobs with
  | baseline _ _ _ _ _ hnone => exact nomatch hest.symm.trans hnone
  | fenced _ | foreign _ _ _ => exact ⟨hest, rfl, rfl⟩
  | mismatched _ _ | refused _ _ | withdrawn _ _ _ _ _ | stalled _ _ | progressed _ _ _ _ _ =>
    rw [hstamp]
    exact ⟨hest, rfl, rfl⟩

/-- An event of an episode with a baseline leaves the baseline's source where it is. -/
theorem step_sameSource (hwf : WellFormed liveness) (hnew : Untried liveness)
    (hest : liveness.baselineEstablished = true) (event : EpisodeEvent) :
    SameSource liveness (liveness.step event) := by
  cases event with
  | observe evidence now headRun =>
    exact (observeProvider_observed liveness evidence now headRun).sameSource hest
  | busy now =>
    show SameSource liveness (liveness.noteBusy now)
    rcases noteBusy_cases liveness now with hsame | ⟨-, -, _, hsame⟩
    all_goals
      rw [hsame]
      exact ⟨hest, rfl, rfl⟩
  | terminalize _ _ => exact ⟨hest, rfl, rfl⟩
  | reload =>
    rw [Liveness.step, reload_eq_self hwf hnew hest]
    exact ⟨hest, rfl, rfl⟩

theorem play_sameSource (hwf : WellFormed liveness) (hnew : Untried liveness)
    (hest : liveness.baselineEstablished = true) (events : List EpisodeEvent) :
    SameSource liveness (liveness.play events) := by
  induction events generalizing liveness with
  | nil => exact ⟨hest, rfl, rfl⟩
  | cons ev _ ih =>
    have hstep := step_sameSource hwf hnew hest ev
    have hrest := ih (hwf.step ev) (hnew.step ev) hstep.1
    exact ⟨hrest.1, hrest.2.1.trans hstep.2.1, hrest.2.2.trans hstep.2.2⟩

theorem play_wellFormed (hwf : WellFormed liveness) (events : List EpisodeEvent) :
    WellFormed (liveness.play events) :=
  List.foldlRecOn events _ hwf fun _ hwf ev _ ↦ hwf.step ev

theorem play_untried (hnew : Untried liveness) (events : List EpisodeEvent) :
    Untried (liveness.play events) :=
  List.foldlRecOn events _ hnew fun _ hnew ev _ ↦ hnew.step ev

/-! ### The head run of an episode -/

/-- A bound record names this head run. -/
def Owned (headRun : Option HeadBinding) (liveness : Liveness) : Prop :=
  liveness.bound = true → ∃ binding, headRun = some binding ∧ liveness.headRunId = binding.runId ∧
    liveness.headRunFingerprint = binding.fingerprint

theorem begin_owned (headRun : Option HeadBinding) : Owned headRun (begin headRun) := by
  match headRun with
  | none => exact nofun
  | some bind => exact fun _ ↦ ⟨bind, rfl, rfl, rfl⟩

theorem Observed.headRun_eq (hobs : Observed liveness evidence now headRun after answer) :
    after.headRunId = liveness.headRunId ∧ after.headRunFingerprint = liveness.headRunFingerprint := by
  obtain ⟨_, hstamp⟩ := stamped_eq liveness now
  cases hobs with
  | fenced _ | foreign _ _ _ => exact ⟨rfl, rfl⟩
  | mismatched _ _ | refused _ _ | withdrawn _ _ _ _ _ | baseline _ _ _ _ _ _ | stalled _ _
  | progressed _ _ _ _ _ =>
    rw [hstamp]
    exact ⟨rfl, rfl⟩

section

variable (howned : Owned headRun liveness) (events : List EpisodeEvent)
include howned

theorem Owned.of_same
    (hsame : after.headRunId = liveness.headRunId ∧ after.headRunFingerprint = liveness.headRunFingerprint) :
    Owned headRun after := by
  intro hbound
  rw [bound, hsame.1, hsame.2] at hbound
  rw [hsame.1, hsame.2]
  exact howned hbound

theorem Owned.step (event : EpisodeEvent) : Owned headRun (liveness.step event) := by
  cases event with
  | observe evidence now observedRun =>
    exact howned.of_same (observeProvider_observed liveness evidence now observedRun).headRun_eq
  | busy now =>
    show Owned headRun (liveness.noteBusy now)
    rcases noteBusy_cases liveness now with hidle | ⟨-, -, _, hnoted⟩
    · rwa [hidle]
    · rw [hnoted]
      exact howned
  | terminalize _ why => exact howned
  | reload =>
    show Owned headRun liveness.reload
    rcases reload_cases liveness with ⟨why, _, hlost, -⟩ | ⟨hkept, -⟩
    · rw [hlost]
      exact nofun
    · rw [hkept]
      exact howned

theorem play_owned : Owned headRun (liveness.play events) :=
  List.foldlRecOn events _ howned fun _ howned ev _ ↦ howned.step ev

/-- An episode takes as its own the one head run it was opened for. -/
theorem Owned.eq_of_bindsTo {observedRun : Option HeadBinding} (hown : liveness.bindsTo observedRun = true) :
    observedRun = headRun := by
  obtain ⟨bind, rfl, _, _⟩ := howned (bound_of_bindsTo hown)
  match observedRun with
  | none => simp [bindsTo] at hown
  | some observed =>
    simp only [bindsTo, decide_eq_true_eq] at hown
    cases observed
    cases bind
    simp_all

end

/-! ### Busy notes -/

/-- The last observation of a history found the cursor of the episode's own run where it was. -/
def LastUnchanged (headRun : Option HeadBinding) (history : List EpisodeEvent) : Prop :=
  ∃ earlier evidence now seen later, history = earlier ++ .observe evidence now headRun :: later ∧
    (∀ event ∈ later, ∀ evidence' now' run', event ≠ .observe evidence' now' run') ∧
    SameCursor ((Liveness.begin headRun).play earlier) evidence headRun seen

theorem Observed.sameCursor_of_stalled (hobs : Observed liveness evidence now headRun after answer)
    (hunk : liveness.sourceRejected = true → liveness.state = .unknown)
    (hstall : after.state = .stalled) : ∃ seen, SameCursor liveness evidence headRun seen := by
  cases hobs with
  | stalled seen hsame => exact ⟨seen, hsame⟩
  | fenced hrej => exact nomatch (hunk hrej).symm.trans hstall
  | foreign _ _ _ | mismatched _ _ | refused _ _ | withdrawn _ _ _ _ _ | baseline _ _ _ _ _ _
  | progressed _ _ _ _ _ => exact nomatch hstall

/-- Only an observation leaves an episode stalled. -/
theorem stalled_of_step_stalled {event : EpisodeEvent}
    (hevent : ∀ evidence now run, event ≠ .observe evidence now run)
    (hstall : (liveness.step event).state = .stalled) : liveness.state = .stalled := by
  cases event with
  | observe evidence now run => exact absurd rfl (hevent evidence now run)
  | busy now =>
    rcases noteBusy_cases liveness now with hidle | ⟨-, hstate, -⟩
    · rwa [Liveness.step, hidle] at hstall
    · exact hstate
  | terminalize _ why => exact hstall
  | reload =>
    rcases reload_cases liveness with ⟨why, _, hlost, -⟩ | ⟨hkept, -⟩
    · rw [Liveness.step, hlost] at hstall
      exact nomatch hstall
    · rwa [Liveness.step, hkept] at hstall

theorem play_concat (liveness : Liveness) (history : List EpisodeEvent) (event : EpisodeEvent) :
    liveness.play (history ++ [event]) = (liveness.play history).step event := by
  simp [Liveness.play]

/-- An episode that is stalled was last observed to be. -/
theorem lastUnchanged_of_stalled (headRun : Option HeadBinding) (history : List EpisodeEvent)
    (hstall : ((begin headRun).play history).state = .stalled) :
    LastUnchanged headRun history := by
  induction history using List.reverseRecOn with
  | nil => cases headRun <;> exact nomatch hstall
  | append_singleton earlier ev ih =>
    rw [play_concat] at hstall
    by_cases hevent : ∀ evidence now run, ev ≠ .observe evidence now run
    · obtain ⟨pre, evidence, now, seen, l, hsplit, hlater, hsame⟩ :=
        ih (stalled_of_step_stalled hevent hstall)
      refine ⟨pre, evidence, now, seen, l ++ [ev], by simp [hsplit], ?_, hsame⟩
      intro o hoth
      rcases List.mem_append.mp hoth with hold | hlast
      · exact hlater o hold
      · rw [List.mem_singleton] at hlast
        exact hlast ▸ hevent
    · push Not at hevent
      obtain ⟨evidence, now, run, rfl⟩ := hevent
      have hwf := play_wellFormed (begin_wellFormed headRun) earlier
      have hobs := observeProvider_observed ((begin headRun).play earlier) evidence now run
      obtain ⟨seen, hsame⟩ := hobs.sameCursor_of_stalled hwf.rejected hstall
      have hrun := (play_owned (begin_owned headRun) earlier).eq_of_bindsTo hsame.own
      subst hrun
      exact ⟨earlier, evidence, now, seen, [], rfl, by simp, hsame⟩

theorem Observed.busyAttempts_le (hobs : Observed liveness evidence now headRun after answer) :
    after.busyAttempts ≤ liveness.busyAttempts := by
  obtain ⟨_, hstamp⟩ := stamped_eq liveness now
  have hcount : (liveness.stamped now).busyAttempts = liveness.busyAttempts := by rw [hstamp]
  cases hobs with
  | fenced _ | foreign _ _ _ => exact le_rfl
  | progressed _ _ _ _ _ => exact Nat.zero_le _
  | mismatched _ _ | refused _ _ | withdrawn _ _ _ _ _ | baseline _ _ _ _ _ _ | stalled _ _ =>
    exact hcount.le

/-- The busy count grows by a busy note of a stalled episode and by nothing else. -/
theorem busy_of_busyAttempts_lt {event : EpisodeEvent}
    (hgrown : liveness.busyAttempts < (liveness.step event).busyAttempts) :
    (∃ now, event = .busy now) ∧ liveness.state = .stalled := by
  cases event with
  | observe evidence now run =>
    exact absurd hgrown (observeProvider_observed liveness evidence now run).busyAttempts_le.not_gt
  | busy now =>
    rcases noteBusy_cases liveness now with hidle | ⟨-, hstall, -⟩
    · rw [Liveness.step, hidle] at hgrown
      exact absurd hgrown (lt_irrefl _)
    · exact ⟨⟨now, rfl⟩, hstall⟩
  | terminalize _ why => exact absurd hgrown (lt_irrefl _)
  | reload =>
    rcases reload_cases liveness with ⟨why, _, hlost, -⟩ | ⟨hkept, -⟩
    · rw [Liveness.step, hlost] at hgrown
      exact absurd hgrown (Nat.not_lt_zero _)
    · rw [Liveness.step, hkept] at hgrown
      exact absurd hgrown (lt_irrefl _)

/-- Over every history of an episode: a source that was rejected, or a record that a restart read as
unknown, is not admitted by anything that follows; the source of a baseline stays; and the busy count grows
only by a busy note after an unchanged observation of the episode's own head run. -/
theorem episode_neverReadmits (headRun : Option HeadBinding) (history later : List EpisodeEvent)
    (event : EpisodeEvent) :
    let liveness := (Liveness.begin headRun).play history
    (liveness.sourceRejected = true → (liveness.play later).admitted = false) ∧
    (liveness.reload.state = .unknown → (liveness.reload.play later).admitted = false) ∧
    (liveness.baselineEstablished = true → SameSource liveness (liveness.play later)) ∧
    (liveness.busyAttempts < (liveness.step event).busyAttempts →
      (∃ now, event = .busy now) ∧ LastUnchanged headRun history) := by
  intro liveness
  have hwf : WellFormed liveness := play_wellFormed (begin_wellFormed headRun) history
  have hnew : Untried liveness := by
    refine play_untried ?_ history
    cases headRun <;> exact .inl rfl
  refine ⟨?_, ?_, ?_, ?_⟩
  · intro hrej
    have hfence : Fenced liveness := ⟨hwf.rejected hrej, .inl hrej⟩
    exact (hfence.play later).not_admitted
  · intro hunk
    exact ((fenced_of_reload_unknown hunk).play later).not_admitted
  · intro hest
    exact play_sameSource hwf hnew hest later
  · intro hgrown
    obtain ⟨hbusy, hstall⟩ := busy_of_busyAttempts_lt hgrown
    exact ⟨hbusy, lastUnchanged_of_stalled headRun history hstall⟩

end Ummanu.Continuation
