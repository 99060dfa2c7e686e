import Ummanu.Continuation.DriverLaw

/-!
# Histories of one continuation

A history is a list of ticks on the record of one card, from its claim on. Every tick gets arbitrary
answers, and a crash may cut it short after any of its writes; the next tick reads back what was saved. The
step law of `DriverLaw` says what one tick keeps through each write. Here it is carried to whole histories,
and the laws of the three histories are read off it: what a restart keeps of the saved liveness record, how
often the safe recovery is called, and what becomes of a red transition.
-/

set_option autoImplicit false

namespace Ummanu.Continuation

open Library

/-- The record of a card that was just claimed. -/
def claimed (card : Card) : CardWorld where
  card := { card with continuation := {}, liveness := .unknown "missing", transition := 0 }

/-- The durable states of a history. -/
def history (name : CardName) (card : Card) (attempts : List ((Entry × Answers) × Option ℕ)) : List CardWorld :=
  visited (cardTick name) loadCard (claimed card) attempts

section Histories

variable {name : CardName} {card : Card} {attempts : List ((Entry × Answers) × Option ℕ)} {world : CardWorld}

theorem claimed_not_held : ¬ (claimed card).card.view.held := clear_not_held rfl

theorem claimed_worldOk : WorldOk name (claimed card) where
  driven := unknown_driven rfl _
  armed := fun hspend ↦ nomatch hspend.1
  calls := fun earlier later hsplit ↦ by simp [claimed] at hsplit
  rounds := nofun
  moves := nofun
  accounts := {
    rounds_le := nofun
    moves_le := nofun
    closed := fun _ ↦ nofun
    reserved := fun hheld ↦ absurd hheld claimed_not_held
    earlier := fun hheld ↦ absurd hheld claimed_not_held
    current := fun hheld ↦ absurd hheld claimed_not_held
    request := fun _ ↦ nofun
    delivered := fun hsend ↦ absurd (.inr hsend) claimed_not_held }

/-- Every write of a history is a step of the driver. -/
theorem history_isChain (name : CardName) (card : Card) (attempts : List ((Entry × Answers) × Option ℕ)) :
    (claimed card :: history name card attempts).IsChain (CardStep name) :=
  visited_isChain (WorldOk name) attempts claimed_worldOk (fun _ input hworld ↦ cardTick_isChain hworld input)
    fun _ _ _ hstep ↦ hstep.2

/-- The invariant holds of every durable state. -/
theorem history_worldOk (hworld : world ∈ history name card attempts) : WorldOk name world :=
  (isChain_invariant (WorldOk name) claimed_worldOk (history_isChain name card attempts)
    fun _ _ _ hstep ↦ hstep.2).1 world hworld

/-! ### The saved liveness record -/

/-- A restart keeps a saved record exactly when it survives. -/
theorem savedLiveness_reload_iff (hworld : world ∈ history name card attempts) :
    world.card.liveness.reload = world.card.liveness ↔ world.card.liveness.survives :=
  reload_eq_self_iff (history_worldOk hworld).driven

end Histories

/-! A history in which the recovered worker answers: the session is kept, the red verdict is deferred by a
busy pane, three stalled ticks lead to the safe recovery, and the next tick sees a new cursor. -/

def recoveredRun : HeadBinding where
  runId := "run-1"
  runId_ne := by decide
  fingerprint := "0123456789abcdef0123456789abcdef"
  fingerprint_ok := by decide

def recoveredCursor (cursor : String) : Evidence where
  state := "observed"
  source := "codex-session"
  admission := "accepted"
  headRunId := recoveredRun.runId
  headRunFingerprint := recoveredRun.fingerprint
  sourceFingerprint := "fedcba9876543210fedcba9876543210"
  cursor := cursor

def recoveredAnswers (now : ℕ) (cursor : String) : Answers where
  clock := fun _ ↦ now
  evidence := fun _ ↦ some (recoveredCursor cursor)
  refuses := fun _ ↦ none
  rebinds := fun _ ↦ none
  flushes := fun _ ↦ false
  raises := fun _ ↦ none
  comments := 0
  retainedRefused := none
  stopRefused := none
  resume := .busy
  deliveryEvidence := {}
  recovery := .mapping "recovered" true recoveredRun.runId ""
  preflightRefused := none
  preflightRun := none
  bringUp := .aborted
  retainRefused := false

def recoveredAttempts : List ((Entry × Answers) × Option ℕ) :=
  [((.relaunch (some recoveredRun) none 1, recoveredAnswers 0 "a"), none),
    ((.advance .done, recoveredAnswers 100 "a"), none),
    ((.verdict ⟨"gate", 0, "", "red", "", "", []⟩, recoveredAnswers 200 "a"), none),
    ((.advance .none, recoveredAnswers 300 "a"), none),
    ((.advance .none, recoveredAnswers 400 "a"), none),
    ((.advance .none, recoveredAnswers 600 "a"), none),
    ((.advance .none, recoveredAnswers 610 "b"), none)]

theorem deferredHistory_ne_nil : history ⟨"attempt-1", "SEC-1"⟩ {} (recoveredAttempts.take 3) ≠ [] := by
  decide +kernel

/-- The record that the deferred verdict leaves survives. -/
theorem savedLiveness_reload_iff_witness :
    ∃ world ∈ history ⟨"attempt-1", "SEC-1"⟩ {} (recoveredAttempts.take 3),
      world.card.liveness.admitted = true ∧ world.card.liveness.survives ∧
        (world.card.liveness.reload = world.card.liveness ↔ world.card.liveness.survives) :=
  ⟨_, List.getLast_mem deferredHistory_ne_nil, by decide +kernel, by decide +kernel,
    savedLiveness_reload_iff (List.getLast_mem deferredHistory_ne_nil)⟩

theorem recoveredHistory_ne_nil : history ⟨"attempt-1", "SEC-1"⟩ {} recoveredAttempts ≠ [] := by
  decide +kernel

/-- The saved record is bound and admitted, and a restart reads it back unbound. -/
theorem savedLiveness_lost :
    ∃ world ∈ history ⟨"attempt-1", "SEC-1"⟩ {} recoveredAttempts,
      world.card.liveness.admitted = true ∧ world.card.liveness.reload.bound = false := by
  exact ⟨_, List.getLast_mem recoveredHistory_ne_nil, by decide +kernel⟩

/-! ### The safe recovery -/

/-- Between two calls of the safe recovery, and between the save of a terminal record and a call, an episode
began or progress was observed. -/
def RecoveredOnce (trail : List Mark) : Prop :=
  ∀ earlier middle later event, event = .recovered ∨ event = .ended →
    trail = earlier ++ event :: middle ++ .recovered :: later → .began ∈ middle ∨ .progressed ∈ middle

theorem CallsArmed.recoveredOnce {trail : List Mark} (hcalls : CallsArmed trail) : RecoveredOnce trail := by
  intro pre middle l ev hevent htrail
  have harmed := hcalls (pre ++ ev :: middle) l htrail
  rcases List.eq_nil_or_concat middle with rfl | ⟨_, _, rfl⟩
  · rw [Armed, List.getLast?_concat] at harmed
    rcases hevent with rfl | rfl <;> simp at harmed
  · rw [Armed, List.concat_eq_append, ← List.cons_append, ← List.append_assoc, List.getLast?_concat] at harmed
    rcases harmed with hbegan | hprog
    · exact .inl (by simp [Option.some.inj hbegan])
    · exact .inr (by simp [Option.some.inj hprog])

/-- In every history the safe recovery is called at most once per episode without progress. -/
theorem safeRecovery_calledOnce (name : CardName) (card : Card) (attempts : List ((Entry × Answers) × Option ℕ)) :
    ∀ world ∈ history name card attempts, RecoveredOnce world.trail :=
  fun _ hworld ↦ (history_worldOk hworld).calls.recoveredOnce

/-- The recovered worker's history makes the call. -/
theorem safeRecovery_calledOnce_witness :
    ∃ world ∈ history ⟨"attempt-1", "SEC-1"⟩ {} recoveredAttempts,
      world.trail = [.began, .recovered, .progressed] ∧ RecoveredOnce world.trail :=
  ⟨_, List.getLast_mem recoveredHistory_ne_nil, by decide +kernel,
    safeRecovery_calledOnce _ _ _ _ (List.getLast_mem recoveredHistory_ne_nil)⟩

/-! ### Red transitions -/

/-- Dropping the session leaves an open transition as it is. -/
theorem dropSession_view {card : Card} (hheld : card.view.held) :
    { card with continuation := card.continuation.dropSession }.view = card.view := by
  have hstage : card.continuation.stage ≠ .validationMovePending ∧ card.continuation.stage ≠ .retained := by
    rcases hheld with hred | hpend | hconf <;> simp_all [Card.view]
  rw [dropSession_eq _ hstage]
  rfl

/-- A hand-over whose intent cannot be written leaves the transition as it is. -/
theorem handOver_unwritten (answers : Answers) (world : CardWorld) (card : Card)
    (hdeny : answers.preflightRefused ≠ none ∨ answers.refuses .intent ≠ none) :
    (handOver answers world card).writes = [] ∧ (handOver answers world card).memory.view = card.view := by
  -- a program whose writes are all impossible writes nothing
  have hmeets : Meets (fun _ _ ↦ False) (handOver answers) (fun _ _ after ↦ after.view = card.view)
      world card := by
    simp only [handOver, editContinuation, writeWorkerRelaunchIntent, save, meets_bind, meets_remembered,
      meets_remember]
    cases hpre : answers.preflightRefused with
    | some _ => simp [Card.view]
    | none =>
      have hint : answers.refuses .intent ≠ none := hdeny.resolve_left (· hpre)
      simp only [meets_pure, meets_bind, meets_remembered, meets_remember, meets_tryCatch, meets_attempt]
      exact ⟨fun hwrote ↦ absurd hwrote hint, fun _ _ ↦ rfl⟩
  refine ⟨?_, hmeets.2⟩
  have hnone := hmeets.1
  cases hwrite : (handOver answers world card).writes with
  | nil => rfl
  | cons _ _ =>
    rw [hwrite, List.isChain_cons_cons] at hnone
    exact hnone.1.elim

/-- In every history all completions of one red transition assign one round and move the board by one
request, later transitions open later rounds, and an open transition is cleared only by its hand-over. -/
theorem redTransition_opensOneRound (name : CardName) (card : Card) (attempts : List ((Entry × Answers) × Option ℕ)) :
    (∀ world ∈ history name card attempts, RoundsAgree world.rounds ∧ MovesAgree world.moves) ∧
      (claimed card :: history name card attempts).IsChain
        (fun before after ↦ HandedOn before.card.view after.card.view) ∧
      (∀ card : Card, card.view.held → { card with continuation := card.continuation.dropSession }.view = card.view) ∧
      ∀ (answers : Answers) (world : CardWorld) (card : Card),
        answers.preflightRefused ≠ none ∨ answers.refuses .intent ≠ none →
        (handOver answers world card).writes = [] ∧ (handOver answers world card).memory.view = card.view :=
  ⟨fun _ hworld ↦ ⟨(history_worldOk hworld).rounds, (history_worldOk hworld).moves⟩,
    (history_isChain name card attempts).imp fun _ _ hstep ↦ hstep.1,
    fun _ ↦ dropSession_view, handOver_unwritten⟩

end Ummanu.Continuation
