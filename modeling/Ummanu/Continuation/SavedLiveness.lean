import Ummanu.Continuation.EpisodeLaw

/-!
# The liveness records a driver saves

The driver climbs the recovery ladder on top of the observations: it records the one safe recovery before the
call, opens a response window after it, allows one resume, and ends the episode. `Driven` is what all of
these keep of a record, from `begin` on, whatever the evidence and the clocks. For a driven record the reader
of saved records has only a handful of conditions left (`Liveness.survives`), and a restart keeps the record
exactly when they hold: `reload_eq_self_iff`.
-/

set_option autoImplicit false

namespace Ummanu.Continuation

open Library Liveness

variable {liveness : Liveness} {headRun : Option HeadBinding}

/-- What the driver keeps of a liveness record. -/
structure Driven (liveness : Liveness) : Prop where
  formed : WellFormed liveness
  unobserved : liveness.unobserved
  unbound : liveness.bound = false → liveness.recoveryRung = .none ∧ liveness.reason.isPresent = true ∧
    liveness.noProgressEvidence = .blank ∧ liveness.firstObservedAt = 0 ∧ liveness.lastProviderObservedAt = 0
  resumed : liveness.recoveryRung = .resumeOnce → liveness.recoveryAttempts = 0

/-- A rung that was climbed belongs to a bound episode. -/
theorem Driven.bound_of_rung (hdriven : Driven liveness) (hrung : liveness.recoveryRung ≠ .none) :
    liveness.bound = true := by
  by_contra hfree
  exact hrung (hdriven.unbound (Bool.not_eq_true _ ▸ hfree)).1

theorem Driven.bound_of_state (hdriven : Driven liveness) (hstate : liveness.state ≠ .unknown) :
    liveness.bound = true := by
  by_contra hfree
  exact hstate (hdriven.formed.unbound (Bool.not_eq_true _ ▸ hfree))

theorem Driven.not_terminal (hdriven : Driven liveness) (hrung : liveness.recoveryRung ≠ .terminal) :
    liveness.terminal = false := by
  have hblank : ¬ liveness.terminalOutcome.isPresent = true := fun hout ↦
    hrung (hdriven.formed.terminal.mpr hout)
  simp [terminal, hblank, hrung]

/-! ### Transitions -/

theorem unknown_driven {reason : String} (hwhy : (BoundedText.clip 240 reason).isPresent = true)
    (legacyBusyAttempts : ℕ) : Driven (unknown reason legacyBusyAttempts) where
  formed := unknown_wellFormed reason legacyBusyAttempts
  unobserved := nofun
  unbound := fun _ ↦ ⟨rfl, hwhy, rfl, rfl, rfl⟩
  resumed := nofun

theorem begin_driven (headRun : Option HeadBinding) : Driven (begin headRun) := by
  match headRun with
  | none => exact unknown_driven (by decide) 0
  | some binding =>
    have hwf := begin_wellFormed (some binding)
    exact {
      formed := hwf
      unobserved := fun _ ↦ ⟨rfl, rfl⟩
      unbound := fun hfree ↦ nomatch hwf.unbound hfree
      resumed := nofun }

theorem Driven.reload (hdriven : Driven liveness) : Driven liveness.reload := by
  rcases reload_cases liveness with ⟨_, legacy, hlost, hwhy⟩ | ⟨hkept, -⟩
  · rw [hlost]
    exact unknown_driven hwhy legacy
  · have hwf := hdriven.formed.reload
    rw [hkept] at hwf ⊢
    exact ⟨hwf, hdriven.unobserved, hdriven.unbound, hdriven.resumed⟩

section

variable {evidence : Option Evidence} {now : ℕ} {after : Liveness} {answer : Observation}
  (hobs : Observed liveness evidence now headRun after answer)
include hobs

theorem Driven.observed (hdriven : Driven liveness) : Driven after := by
  have hwf := hdriven.formed.observed hobs
  obtain ⟨first, hstamp⟩ := stamped_eq liveness now
  cases hobs with
  | fenced _ => exact hdriven
  | foreign _ _ hwhy =>
    exact {
      formed := hwf
      unobserved := nofun
      unbound := fun hfree ↦
        ⟨(hdriven.unbound hfree).1, hwhy, (hdriven.unbound hfree).2.2⟩
      resumed := hdriven.resumed }
  | mismatched _ hown | refused _ hown | withdrawn _ _ hown _ _ | baseline _ hown _ _ _ _
  | progressed _ hown _ _ _ =>
    have hbound := bound_of_bindsTo hown
    rw [hstamp] at hwf ⊢
    refine ⟨hwf, nofun, fun hfree ↦ (nomatch hbound.symm.trans hfree), ?_⟩
    first | exact hdriven.resumed | exact fun _ ↦ rfl
  | stalled _ hsame =>
    have hbound := bound_of_bindsTo hsame.own
    rw [hstamp] at hwf ⊢
    exact ⟨hwf, nofun, fun hfree ↦ (nomatch hbound.symm.trans hfree), hdriven.resumed⟩

/-- Only progress moves the rung, and it forgets the attempts. -/
theorem Observed.rung :
    (answer ≠ .progressed → after.recoveryRung = liveness.recoveryRung) ∧
      (answer = .progressed → after.recoveryAttempts = 0) := by
  obtain ⟨_, hstamp⟩ := stamped_eq liveness now
  cases hobs with
  | fenced _ | foreign _ _ _ => exact ⟨fun _ ↦ rfl, nofun⟩
  | progressed _ _ _ _ _ => exact ⟨fun hoth ↦ absurd rfl hoth, fun _ ↦ rfl⟩
  | withdrawn _ _ _ _ hans =>
    rw [hstamp]
    exact ⟨fun _ ↦ rfl, fun hprog ↦ by rcases hans with rfl | rfl <;> exact nomatch hprog⟩
  | mismatched _ _ | refused _ _ | baseline _ _ _ _ _ _ | stalled _ _ =>
    rw [hstamp]
    exact ⟨fun _ ↦ rfl, nofun⟩

end

section

variable (hdriven : Driven liveness)
include hdriven

/-- Only a bound episode is ended. -/
theorem Driven.terminalize (hbound : liveness.bound = true) (outcome : TerminalOutcome) (reason : String) :
    Driven (liveness.terminalize outcome reason) where
  formed := hdriven.formed.terminalize outcome reason
  unobserved := hdriven.unobserved
  unbound := fun hfree ↦ nomatch hbound.symm.trans hfree
  resumed := nofun

theorem Driven.noteBusy (now : ℕ) : Driven (liveness.noteBusy now) := by
  have hwf := hdriven.formed.noteBusy now
  rcases noteBusy_cases liveness now with hidle | ⟨-, -, _, hnoted⟩
  · rw [hidle]
    exact hdriven
  · rw [hnoted] at hwf ⊢
    exact ⟨hwf, hdriven.unobserved, hdriven.unbound, hdriven.resumed⟩

theorem Driven.noProgressEvidence (hbound : liveness.bound = true) (evidence : BoundedText 80) :
    Driven { liveness with noProgressEvidence := evidence } := { hdriven with
  formed := { hdriven.formed with }
  unbound := fun hfree ↦ nomatch hbound.symm.trans hfree }

theorem Driven.legacyBusyAttempts (attempts : ℕ) :
    Driven { liveness with legacyBusyAttempts := attempts } := { hdriven with
  formed := { hdriven.formed with } }

/-- Changes of the ladder's rung and times, on a stalled or progressed episode with a baseline. -/
theorem Driven.climb (hest : liveness.baselineEstablished = true)
    (hstate : liveness.state ≠ .baselined) (hopen : liveness.recoveryRung ≠ .terminal) (rung : RecoveryRung)
    (hrung : rung ≠ .terminal) (attemptedAt deadline attempts : ℕ) (used : Bool)
    (hresum : rung = .resumeOnce → attempts = 0) :
    Driven { liveness with
      recoveryRung := rung
      recoveryAttemptedAt := attemptedAt
      recoveryResponseDeadline := deadline
      recoveryAttempts := attempts
      recoveryResumeUsed := used } where
  formed := { hdriven.formed with
    untraced := fun hnone ↦ nomatch hest.symm.trans hnone
    pending := fun hnone ↦ nomatch hest.symm.trans hnone
    terminal := ⟨fun hend ↦ absurd hend hrung, fun hend ↦ absurd (hdriven.formed.terminal.mpr hend) hopen⟩
    rung := fun hbase ↦ absurd hbase hstate }
  unobserved := hdriven.unobserved
  unbound := fun hfree ↦ nomatch (hdriven.formed.established hest).1.symm.trans hfree
  resumed := hresum

/-- A rung between the first and the last belongs to an episode with a baseline. -/
theorem Driven.established_of_rung (hfst : liveness.recoveryRung ≠ .none)
    (hlast : liveness.recoveryRung ≠ .terminal) :
    liveness.baselineEstablished = true ∧ liveness.state ≠ .baselined := by
  constructor
  · by_contra hnone
    rcases (hdriven.formed.pending (Bool.not_eq_true _ ▸ hnone)).2 with hrung | hrung
    · exact hfst hrung
    · exact hlast hrung
  · intro hbase
    rcases hdriven.formed.rung hbase with hrung | hrung
    · exact hfst hrung
    · exact hlast hrung

/-- A later rung of the same ladder. -/
theorem Driven.setRung (hfst : liveness.recoveryRung ≠ .none) (hlast : liveness.recoveryRung ≠ .terminal)
    (rung : RecoveryRung) (hrung : rung ≠ .terminal) (deadline : ℕ) (used : Bool)
    (hresum : rung = .resumeOnce → liveness.recoveryAttempts = 0) :
    Driven { liveness with
      recoveryRung := rung
      recoveryResponseDeadline := deadline
      recoveryResumeUsed := used } :=
  hdriven.climb (hdriven.established_of_rung hfst hlast).1 (hdriven.established_of_rung hfst hlast).2
    hlast rung hrung _ deadline _ used hresum

end

/-! ### What a restart keeps -/

/-- What a restart asks of a record that the driver saved: a rejected or unobserved one is bound, and was
not ended before it had a baseline; another is not at the single resume, and its response window opened
after the one attempt that it answers. -/
def Liveness.survives (liveness : Liveness) : Prop :=
  if liveness.sourceRejected = true ∨ liveness.state = .baselinePending then
    liveness.bound = true ∧ (liveness.baselineEstablished = true ∨ liveness.recoveryRung = .none)
  else
    liveness.recoveryRung ≠ .resumeOnce ∧
      (liveness.recoveryRung = .responseWindow →
        liveness.recoveryAttempts = 1 ∧ liveness.recoveryAttemptedAt < liveness.recoveryResponseDeadline)

instance (liveness : Liveness) : Decidable liveness.survives := by
  unfold Liveness.survives
  infer_instance

theorem eq_blank_of_not_isPresent {limit : ℕ} {bounded : BoundedText limit}
    (habs : bounded.isPresent = false) : bounded = .blank := by
  obtain ⟨_, _⟩ := bounded
  simp only [BoundedText.isPresent, Bool.not_eq_false', List.isEmpty_iff, String.toList_eq_nil_iff] at habs
  subst habs
  rfl

/-- An unbound record that was never rejected reads back as it is. -/
theorem reload_eq_self_of_unbound (hdriven : Driven liveness) (hfree : liveness.bound = false)
    (hrej : liveness.sourceRejected = false) : liveness.reload = liveness := by
  obtain ⟨hrung, hwhy, _, hfst, hlast⟩ := hdriven.unbound hfree
  have hest : liveness.baselineEstablished = false := by
    by_contra hopen
    exact nomatch hfree.symm.trans (hdriven.formed.established (Bool.not_eq_false _ ▸ hopen)).1
  have huntr := hdriven.formed.untraced hest
  have hout : liveness.terminalOutcome.isPresent = false := by
    simpa [hrung] using hdriven.formed.terminal
  have hstate := hdriven.formed.unbound hfree
  have hids : liveness.headRunId = "" ∧ liveness.headRunFingerprint = "" := by
    rcases hdriven.formed.binding with hids | ⟨hid, hprint⟩
    · exact hids
    · have hne : liveness.headRunFingerprint ≠ "" := by
        intro hnil
        rw [hnil, isFingerprint_empty] at hprint
        exact nomatch hprint
      simp [bound, hid, hne] at hfree
  simp only [traced, decide_eq_false_iff_not, not_or, Bool.not_eq_true, not_not] at huntr
  obtain ⟨hsrc, hspr, hcursor, hbusy, hbusyAt, hprog, hattempted, hdeadline, _, hused⟩ := huntr
  have hexp : liveness.explicitUnknown = true := by
    simp [explicitUnknown, hstate, hids, hsrc, hspr, hcursor, hest, hbusy,
      hrung, hout, hfst, hbusyAt, hprog, hlast, hattempted, hdeadline]
  rw [reload_eq_checked, checked, if_pos ⟨hexp, hrej⟩, if_pos hwhy, unknown, BoundedText.clip_text]
  cases liveness
  simp only at *
  simp [*, eq_blank_of_not_isPresent hout, eq_blank_of_not_isPresent hsrc,
    eq_blank_of_not_isPresent hspr, eq_blank_of_not_isPresent hcursor]

/-- A restart keeps a record the driver saved exactly when it survives. -/
theorem reload_eq_self_iff (hdriven : Driven liveness) :
    liveness.reload = liveness ↔ liveness.survives := by
  cases hbound : liveness.bound with
  | false =>
    have hstate := hdriven.formed.unbound hbound
    have hrung := (hdriven.unbound hbound).1
    cases hrej : liveness.sourceRejected with
    | false =>
      simp [reload_eq_self_of_unbound hdriven hbound hrej, survives, hrej, hstate, hrung]
    | true =>
      have hlost : liveness.reload ≠ liveness := by
        intro hsame
        rcases reload_cases liveness with ⟨_, _, hunk, -⟩ | ⟨-, hid, hprint⟩
        · rw [hunk] at hsame
          rw [← hsame] at hrej
          exact nomatch hrej
        · have hne : liveness.headRunFingerprint ≠ "" := by
            intro hnil
            rw [hnil, isFingerprint_empty] at hprint
            exact nomatch hprint
          simp [bound, hid, hne] at hbound
      simp [hlost, survives, hrej, hbound]
  | true =>
    rw [reload_eq_iff hdriven.formed hbound hdriven.unobserved, readable, survives]
    split_ifs
    · simp [hbound]
    · have hresum := hdriven.resumed
      constructor
      · rintro ⟨hwin, honce⟩
        refine ⟨fun hwake ↦ ?_, hwin⟩
        have := (hresum hwake).symm.trans (honce hwake)
        omega
      · rintro ⟨honce, hwin⟩
        exact ⟨hwin, fun hwake ↦ absurd hwake honce⟩

end Ummanu.Continuation
