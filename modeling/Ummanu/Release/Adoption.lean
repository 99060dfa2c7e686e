import Ummanu.Library.Runs
import Ummanu.Release.Readiness

/-!
# The reviewed commit across the loss of a record

The dispatcher pins the commit a reviewer is pointed at on its own record of the card, re-pins it
when the green verdict parks the card, and compares it with the checkout before a release merges.
The record can be lost at any point. The next tick then adopts the card: it rebuilds a record from
the board, and the rebuilt record has no reviewed commit.

`cardStep` is the history of one code card: moves of its checkout, the loss of its record, the
reviewer's green verdict, the observer's release decision, a new report, and the dispatcher's
ticks in Validate and in Assessment. A tick that reaches the merge emits the commit it merges.

A drift check reads an empty pin as agreement, so a card adopted off the reviewed commit is
released as it stands (`adoptedCard_releases_drift`). `releases_reviewed` says that this is the only
way: in every history in which the checkout is on the reviewed commit whenever no record holds it,
every release merges the commit the parked verdict's reviewer was pointed at, or one the base-move
check accepts from it.

Scope. The card has a candidate and a review. Which of its other ends a tick takes that does not
merge (it waits, sends the card back or blocks it) is an answer of the tick. The reviewer's
watchdog, red verdicts and rework and reslice decisions are left out.
-/

set_option autoImplicit false

namespace Ummanu.Release

open Library

/-! ### The card and its record -/

/-- The commit a checkout is on. `head_commit` always answers it, so it is not empty. -/
abbrev CommitName := { name : String // name ≠ "" }

/-- The states of a record that the ticks of Validate and Assessment tell apart. -/
inductive RecordState
  | claimed
  | adopted
  | reviewStarting
  | reviewing
  | assessment
  deriving DecidableEq

/-- The fields of a dispatcher record these ticks read: the pinned commit, the state, whether the
gate is green, and whether the continuation is parked. -/
structure ReviewRecord where
  reviewCommit : String
  state : RecordState
  gateGreen : Bool
  parked : Bool
  deriving DecidableEq

/-- The board states of the card. -/
inductive CardStage
  | inProgress
  | validate
  | assessment
  | blocked
  | done
  deriving DecidableEq

/-- One card: its board state, its record if there is one, its checkout, whether a review launch is
on the board, the commit its reviewer was pointed at, whether that reviewer's green verdict is on
the card, and whether a release is decided. -/
structure ReviewCard where
  stage : CardStage
  record : Option ReviewRecord
  checkout : CommitName
  launchRecorded : Bool
  pointedAt : Option CommitName
  green : Bool
  decided : Bool
  deriving DecidableEq

/-- How a tick that does not merge leaves the card. -/
inductive Ending
  | wait
  | rework
  | block
  deriving DecidableEq

/-- What the host and the board answer one tick: whether the workspace of a lost record is restored,
the base-move check at the two drift checks, the gate and the commit it may move the checkout to,
whether the e2e stage proceeds, how a tick that may not go on ends, whether a reviewer is live, a
launch succeeds and a stop is confirmed, whether the card parks for a decision, whether the board
move commits, and whether the merge lands. -/
structure TickAnswers where
  restores : Bool
  reconcileFirst : String → String → Option BaseMove
  reconcileSecond : String → String → Option BaseMove
  gate : GateAnswer
  refreshed : Option CommitName
  proceeds : Bool
  ending : Ending
  reviewerLive : Bool
  launches : Bool
  stops : Bool
  parks : Bool
  commits : Bool
  lands : Bool

/-- What can happen to the card. -/
inductive CardEvent
  | move (commit : CommitName)
  | lose
  | verdict
  | decide
  | report
  | tick (answers : TickAnswers)

/-- The gate of the card's project and the flattening of remote texts. -/
structure GatePolicy where
  gateMode : GateMode
  safeOneLine : String → String

/-- A card, and the commit that reached the merge in this step. -/
abbrev Outcome := ReviewCard × Option CommitName

/-! ### Ticks -/

section Ticks

variable (policy : GatePolicy) (card : ReviewCard) (record : ReviewRecord) (answers : TickAnswers)

/-- `_adopt`: the record of a card that lost its own. -/
def ReviewCard.adopt : ReviewRecord :=
  let launched := card.stage = .validate && card.launchRecorded
  { reviewCommit := ""
    state := if card.stage = .assessment then .assessment
      else if launched then .reviewStarting else .adopted
    gateGreen := launched
    parked := false }

/-- The checkout after the gate was asked. -/
def ReviewCard.afterGate : CommitName :=
  answers.refreshed.getD card.checkout

/-- The two readings of the checkout around the gate. -/
def ReviewCard.firstReading : Reading :=
  ⟨card.checkout.1, answers.reconcileFirst⟩

def ReviewCard.secondReading : Reading :=
  ⟨(card.afterGate answers).1, answers.reconcileSecond⟩

/-- The checkout after a readiness read, which asks the gate only when the first reading is clear. -/
def ReviewCard.afterRead : CommitName :=
  if (reviewDrift record.reviewCommit (card.firstReading answers)).1 = none then
    card.afterGate answers
  else card.checkout

/-- The gate's result is accepted for the checkout it left. -/
def ReviewCard.accepts (result : GateResult) : Bool :=
  (AcceptedGreenGate.accept policy.safeOneLine result.attestation (card.afterGate answers).1
    policy.gateMode false).policyValid

/-- The checkout is ready, the e2e stage proceeds and the green gate is accepted. -/
def ReviewCard.passes : Bool :=
  match mergeReadiness record.reviewCommit (card.firstReading answers) answers.gate
      (card.secondReading answers) with
  | .green result => answers.proceeds && card.accepts policy answers result
  | _ => false

/-- The end of a tick that does not go on: it leaves the record, opens a new round, or gives up. -/
def ReviewCard.endWith : ReviewCard :=
  match answers.ending with
  | .wait => { card with record := some record }
  | .rework =>
    { card with
      stage := .inProgress
      record := some ⟨"", .claimed, false, false⟩
      launchRecorded := false
      pointedAt := none
      green := false
      decided := false }
  | .block => { card with stage := .blocked, record := none, pointedAt := none, green := false }

/-- `release_effect`: the merge is reached with the checkout as it is. -/
def ReviewCard.releaseEffect : Outcome :=
  ({ card with
      stage := if answers.lands then .done else .blocked
      record := none
      pointedAt := none
      green := false }, some card.checkout)

/-- `complete_park`: the card moves to Assessment, if the board takes the move. -/
def ReviewCard.completePark : ReviewCard :=
  if answers.commits then
    { card with stage := .assessment, record := some { record with state := .assessment } }
  else { card with record := some record }

/-- `park_green_verdict`: the gate is read again and the reviewed commit is pinned for the park. -/
def ReviewCard.parkGreenVerdict : Outcome :=
  let read := { card with checkout := card.afterRead record answers }
  if ¬ card.passes policy record answers then (read.endWith record answers, none)
  else if ¬ answers.parks then read.releaseEffect answers
  else if ¬ answers.stops then ({ read with record := some record }, none)
  else
    let pinned := if record.reviewCommit = "" then read.checkout.1 else record.reviewCommit
    (read.completePark { record with reviewCommit := pinned, parked := true } answers, none)

/-- `start_review`: the reviewer is pointed at the commit the checkout is on. -/
def ReviewCard.startReview : ReviewCard :=
  if answers.launches then
    { card with
      pointedAt := some card.checkout
      record := some { record with reviewCommit := card.checkout.1, state := .reviewing } }
  else { card with record := some { record with state := .reviewStarting } }

/-- `recover_review_launch`: a live reviewer is kept, an absent one is replaced. -/
def ReviewCard.recoverReviewLaunch : ReviewCard :=
  if answers.reviewerLive then { card with record := some { record with state := .reviewing } }
  else card.startReview record answers

/-- The review part of a tick in Validate, once the gate is green. -/
def ReviewCard.advanceReviewer : ReviewCard :=
  if record.state = .reviewing then { card with record := some record }
  else if record.state = .reviewStarting ∨ card.launchRecorded then
    card.recoverReviewLaunch record answers
  else { card with launchRecorded := true }.startReview record answers

/-- `run_gate`, then the reviewer: the gate is asked once before a reviewer starts. -/
def ReviewCard.runGate : ReviewCard :=
  if record.state = .reviewStarting ∨ record.state = .reviewing ∨ record.gateGreen then
    card.advanceReviewer record answers
  else
    let read := { card with checkout := card.afterGate answers }
    match answers.gate with
    | .result result =>
      if result.status = .green ∧ card.accepts policy answers result then
        read.advanceReviewer { record with gateGreen := true } answers
      else read.endWith record answers
    | _ => read.endWith record answers

/-- `_advance_review`, with the record at hand: an open park is finished first, then a verdict is
read, then a reviewer is brought up. -/
def ReviewCard.advanceReview : Outcome :=
  if record.parked then (card.completePark record answers, none)
  else if card.green then card.parkGreenVerdict policy record answers
  else (card.runGate policy record answers, none)

/-- `advance_assessment`, with the record at hand: a record that is not parked is parked, and a
release decision is performed by `release_parked`. -/
def ReviewCard.advanceAssessment : Outcome :=
  let parked := { record with parked := true, state := .assessment }
  if ¬ card.decided then ({ card with record := some parked }, none)
  else
    let read := { card with checkout := card.afterRead parked answers }
    if card.passes policy parked answers then read.releaseEffect answers
    else (read.endWith parked answers, none)

/-- One tick. A card without a record is adopted, or blocked when its workspace is gone. -/
def ReviewCard.tick : Outcome :=
  let record := card.record.getD card.adopt
  if card.record = none ∧ ¬ answers.restores then
    ({ card with stage := .blocked, pointedAt := none, green := false }, none)
  else
    match card.stage with
    | .validate => card.advanceReview policy record answers
    | .assessment => card.advanceAssessment policy record answers
    | _ => (card, none)

end Ticks

/-- One step of the card's history, and the commit that reached the merge in it. -/
def cardOutcome (policy : GatePolicy) (card : ReviewCard) : CardEvent → Outcome
  | .move commit => ({ card with checkout := commit }, none)
  | .lose => ({ card with record := none }, none)
  | .verdict =>
    (if card.stage = .validate ∧ card.pointedAt ≠ none then { card with green := true } else card, none)
  | .decide => (if card.stage = .assessment then { card with decided := true } else card, none)
  | .report =>
    (if card.stage = .inProgress then
      { card with
        stage := .validate
        record := card.record.map fun record ↦ { record with gateGreen := false } }
    else card, none)
  | .tick answers => card.tick policy answers

/-- The card after a step. -/
def cardStep (policy : GatePolicy) (card : ReviewCard) (event : CardEvent) : ReviewCard :=
  (cardOutcome policy card event).1

/-- A card on its way into Validate for the first time. -/
def ReviewCard.start (checkout : CommitName) : ReviewCard :=
  ⟨.inProgress, some ⟨"", .claimed, false, false⟩, checkout, false, none, false, false⟩

/-! ### The reviewed commit is held or the checkout is on it -/

/-- A record knows the reviewed commit of a card, or has no pin and the checkout is on that commit.
A verdict has a reviewer, and a parked card has a verdict. -/
structure Bound (card : ReviewCard) (record : ReviewRecord) : Prop where
  pinned : ∀ reviewed ∈ card.pointedAt, record.reviewCommit = reviewed.1 ∨
    (record.reviewCommit = "" ∧ card.checkout = reviewed)
  judged : card.green = true → ∃ reviewed, card.pointedAt = some reviewed
  parked : card.stage = .assessment ∨ record.parked = true → card.green = true

/-- The card is bound to its record, or to the one it would be adopted with. -/
def ReviewInvariant (card : ReviewCard) : Prop :=
  Bound card (card.record.getD card.adopt)

/-- The record holds the reviewed commit. -/
def ReviewCard.Holds (card : ReviewCard) (reviewed : CommitName) : Prop :=
  card.record.map ReviewRecord.reviewCommit = some reviewed.1

/-- Whenever no record holds the reviewed commit, the checkout is on it: a record is lost only while
it is, and without one neither another process nor the gate moves the checkout elsewhere. -/
def KeepsReviewed (card : ReviewCard) : CardEvent → Prop
  | .lose => ∀ reviewed ∈ card.pointedAt, card.checkout = reviewed
  | .move commit => ∀ reviewed ∈ card.pointedAt, card.Holds reviewed ∨ commit = reviewed
  | .tick answers => ∀ reviewed ∈ card.pointedAt, card.Holds reviewed ∨
      ∀ commit ∈ answers.refreshed, commit = reviewed
  | _ => True

instance KeepsReviewed.decidable (card : ReviewCard) :
    ∀ event, Decidable (KeepsReviewed card event)
  | .lose => inferInstanceAs (Decidable (∀ reviewed ∈ card.pointedAt, card.checkout = reviewed))
  | .move commit => inferInstanceAs (Decidable (∀ reviewed ∈ card.pointedAt,
      card.record.map ReviewRecord.reviewCommit = some reviewed.1 ∨ commit = reviewed))
  | .tick answers => inferInstanceAs (Decidable (∀ reviewed ∈ card.pointedAt,
      card.record.map ReviewRecord.reviewCommit = some reviewed.1 ∨ ∀ commit ∈ answers.refreshed, commit = reviewed))
  | .verdict => .isTrue trivial
  | .decide => .isTrue trivial
  | .report => .isTrue trivial

/-- The base-move check of a tick accepts a move. -/
def CardEvent.Reconciles : CardEvent → CommitName → CommitName → Prop
  | .tick answers, reviewed, commit => (answers.reconcileSecond reviewed.1 commit.1).isSome = true
  | _, _, _ => False

/-- A commit reaches the merge only when it is the one the reviewer of the verdict was pointed at,
or the base-move check accepts the move from there. -/
def ReleasesReviewed (policy : GatePolicy) (card : ReviewCard) (event : CardEvent) : Prop :=
  ∀ commit, (cardOutcome policy card event).2 = some commit →
    ∃ reviewed, card.pointedAt = some reviewed ∧ (commit = reviewed ∨ event.Reconciles reviewed commit)

section Steps

variable {policy : GatePolicy} {card : ReviewCard} {record : ReviewRecord} {answers : TickAnswers}

/-- A card whose round is over is bound to any record that is not parked. -/
theorem ReviewInvariant.of_closed (hpoint : card.pointedAt = none) (hgreen : card.green = false)
    (hstage : card.stage ≠ .assessment) (hrec : (card.record.getD card.adopt).parked = false) :
    ReviewInvariant card where
  pinned reviewed hrev := by
    rw [hpoint] at hrev
    cases hrev
  judged h := by
    rw [hgreen] at h
    cases h
  parked h := by
    rcases h with h | h
    · exact absurd h hstage
    · rw [hrec] at h
      cases h

/-- Saving a record with the same pin and the same park keeps the card bound. -/
theorem Bound.saved (hbound : Bound card record) {other : ReviewRecord}
    (hpin : other.reviewCommit = record.reviewCommit) (hpark : other.parked = record.parked) :
    ReviewInvariant { card with record := some other } := by
  refine ⟨?_, hbound.judged, ?_⟩
  · show ∀ reviewed ∈ card.pointedAt, other.reviewCommit = reviewed.1 ∨
      (other.reviewCommit = "" ∧ card.checkout = reviewed)
    rw [hpin]
    exact hbound.pinned
  · show card.stage = .assessment ∨ other.parked = true → card.green = true
    rw [hpark]
    exact hbound.parked

open ReviewCard

theorem ReviewCard.endWith_invariant (hbound : Bound card record) :
    ReviewInvariant (card.endWith record answers) := by
  unfold endWith
  cases answers.ending with
  | wait => exact hbound.saved rfl rfl
  | rework => exact .of_closed rfl rfl nofun rfl
  | block => exact .of_closed rfl rfl nofun rfl

theorem ReviewCard.releaseEffect_invariant : ReviewInvariant (card.releaseEffect answers).1 := by
  refine .of_closed rfl rfl ?_ rfl
  cases hlands : answers.lands <;> simp [releaseEffect, hlands]

theorem ReviewCard.completePark_invariant (hbound : Bound card record)
    (hpark : record.parked = true) : ReviewInvariant (card.completePark record answers) := by
  unfold completePark
  split_ifs
  · exact ⟨hbound.pinned, hbound.judged, fun _ ↦ hbound.parked (.inr hpark)⟩
  · exact hbound.saved rfl rfl

theorem ReviewCard.startReview_invariant (hbound : Bound card record) :
    ReviewInvariant (card.startReview record answers) := by
  unfold startReview
  split_ifs
  · refine ⟨?_, fun _ ↦ ⟨card.checkout, rfl⟩, hbound.parked⟩
    intro _ hrev
    obtain rfl := Option.some.inj hrev
    exact .inl rfl
  · exact hbound.saved rfl rfl

theorem ReviewCard.advanceReviewer_invariant (hbound : Bound card record) :
    ReviewInvariant (card.advanceReviewer record answers) := by
  unfold advanceReviewer recoverReviewLaunch
  split_ifs
  · exact hbound.saved rfl rfl
  · exact hbound.saved rfl rfl
  · exact card.startReview_invariant hbound
  · exact startReview_invariant ⟨hbound.pinned, hbound.judged, hbound.parked⟩

/-- The record at hand in a tick knows the reviewed commit, or has no pin and the checkout is on
that commit before and after the gate. -/
def Moored (card : ReviewCard) (record : ReviewRecord) (answers : TickAnswers) : Prop :=
  ∀ reviewed ∈ card.pointedAt, record.reviewCommit = reviewed.1 ∨
    (record.reviewCommit = "" ∧ card.checkout = reviewed ∧ card.afterGate answers = reviewed)

theorem ReviewInvariant.moored (hinv : ReviewInvariant card) (hkeeps : KeepsReviewed card (.tick answers)) :
    Moored card (card.record.getD card.adopt) answers := by
  intro reviewed hrev
  rcases hkeeps reviewed hrev with hholds | hgate
  · obtain ⟨_, hheld, hcom⟩ := Option.map_eq_some_iff.mp hholds
    rw [hheld]
    exact .inl hcom
  · rcases hinv.pinned reviewed hrev with hpin | ⟨hpin, hcheck⟩
    · exact .inl hpin
    · refine .inr ⟨hpin, hcheck, ?_⟩
      unfold afterGate
      cases hrefreshed : answers.refreshed with
      | none => exact hcheck
      | some commit => exact hgate commit hrefreshed

/-- Reading the gate keeps a moored card bound to its record. -/
theorem Bound.read (hbound : Bound card record) (hmoored : Moored card record answers) :
    Bound { card with checkout := card.afterRead record answers } record := { hbound with
  pinned reviewed hrev := by
    rcases hmoored reviewed hrev with hpin | ⟨hpin, -, hgate⟩
    · exact .inl hpin
    · refine .inr ⟨hpin, ?_⟩
      have hclear : (reviewDrift record.reviewCommit (card.firstReading answers)).1 = none :=
        reviewDrift_eq_none_iff.mpr (.inl hpin)
      rw [afterRead, if_pos hclear, hgate] }

/-- A tick that passes read the checkout twice without drift. -/
theorem ReviewCard.clear_of_passes (hpass : card.passes policy record answers = true) :
    (reviewDrift record.reviewCommit (card.firstReading answers)).1 = none ∧
      (reviewDrift record.reviewCommit (card.secondReading answers)).1 = none := by
  unfold passes at hpass
  cases hready : mergeReadiness record.reviewCommit (card.firstReading answers) answers.gate
      (card.secondReading answers) with
  | green _ =>
    obtain ⟨hfst, -, -, hsnd⟩ := mergeReadiness_eq_green_iff.mp hready
    exact ⟨hfst, hsnd⟩
  | _ => simp [hready] at hpass

/-- A commit that may reach the merge: the reviewed one, or one the base-move check accepts. -/
def Released (card : ReviewCard) (answers : TickAnswers) (commit : CommitName) : Prop :=
  ∃ reviewed, card.pointedAt = some reviewed ∧
    (commit = reviewed ∨ (answers.reconcileSecond reviewed.1 commit.1).isSome = true)

/-- A moored card that passes with a verdict is on a commit that may reach the merge. -/
theorem Released.of_passes (hbound : Bound card record) (hmoored : Moored card record answers)
    (hgreen : card.green = true) (hpass : card.passes policy record answers = true) :
    Released card answers (card.afterRead record answers) := by
  obtain ⟨hfst, hsnd⟩ := clear_of_passes hpass
  obtain ⟨reviewed, hrev⟩ := hbound.judged hgreen
  have hread : card.afterRead record answers = card.afterGate answers := if_pos hfst
  rw [hread]
  refine ⟨reviewed, hrev, ?_⟩
  rcases hmoored reviewed hrev with hpin | ⟨-, -, hgate⟩
  · rw [hpin] at hsnd
    rcases reviewDrift_eq_none_iff.mp hsnd with hnil | hnil | hsame | hmove
    · exact absurd hnil reviewed.2
    · exact absurd hnil (card.afterGate answers).2
    · exact .inl (Subtype.ext hsame)
    · exact .inr hmove
  · exact .inl hgate

/-- A step leaves the card bound, and merges only what may be merged. -/
def Sound (card : ReviewCard) (answers : TickAnswers) (outcome : Outcome) : Prop :=
  ReviewInvariant outcome.1 ∧ ∀ commit, outcome.2 = some commit → Released card answers commit

theorem Sound.of_none {next : ReviewCard} (hnext : ReviewInvariant next) :
    Sound card answers (next, none) :=
  ⟨hnext, nofun⟩

section

variable (hbound : Bound card record) (hmoored : Moored card record answers)
include hbound hmoored

/-- A passing tick that goes on to the merge is sound. -/
theorem ReviewCard.releaseEffect_sound (hgreen : card.green = true)
    (hpass : card.passes policy record answers = true) :
    Sound card answers
      ({ card with checkout := card.afterRead record answers }.releaseEffect answers) := by
  refine ⟨releaseEffect_invariant, fun _ hcom ↦ ?_⟩
  obtain rfl := Option.some.inj hcom
  exact Released.of_passes hbound hmoored hgreen hpass

theorem ReviewCard.parkGreenVerdict_sound (hgreen : card.green = true) :
    Sound card answers (card.parkGreenVerdict policy record answers) := by
  have hread := hbound.read hmoored
  unfold parkGreenVerdict
  split
  · exact .of_none (endWith_invariant hread)
  next hpass =>
  split
  · exact releaseEffect_sound hbound hmoored hgreen (not_not.mp hpass)
  split
  · exact .of_none (hread.saved rfl rfl)
  refine .of_none (completePark_invariant ⟨?_, hread.judged, fun _ ↦ hgreen⟩ rfl)
  intro reviewed hrev
  apply Or.inl
  rcases hread.pinned reviewed hrev with hpin | ⟨hpin, hcheck⟩
  · have hset : record.reviewCommit ≠ "" := by
      rw [hpin]
      exact reviewed.2
    exact (if_neg hset).trans hpin
  · exact (if_pos hpin).trans (congrArg Subtype.val hcheck)

theorem ReviewCard.runGate_invariant : ReviewInvariant (card.runGate policy record answers) := by
  have hread : Bound { card with checkout := card.afterGate answers } record := by
    refine ⟨fun reviewed hrev ↦ ?_, hbound.judged, hbound.parked⟩
    rcases hmoored reviewed hrev with hpin | ⟨hpin, -, hgate⟩
    · exact .inl hpin
    · exact .inr ⟨hpin, hgate⟩
  unfold runGate
  split_ifs
  · exact advanceReviewer_invariant hbound
  cases answers.gate with
  | result result =>
    dsimp only
    split_ifs
    · exact advanceReviewer_invariant ⟨hread.pinned, hread.judged, hread.parked⟩
    · exact endWith_invariant hread
  | transport detail => exact endWith_invariant hread
  | failed detail => exact endWith_invariant hread

theorem ReviewCard.advanceReview_sound :
    Sound card answers (card.advanceReview policy record answers) := by
  unfold advanceReview
  split_ifs with hpark hgreen
  · exact .of_none (completePark_invariant hbound hpark)
  · exact parkGreenVerdict_sound hbound hmoored hgreen
  · exact .of_none (runGate_invariant hbound hmoored)

theorem ReviewCard.advanceAssessment_sound (hstage : card.stage = .assessment) :
    Sound card answers (card.advanceAssessment policy record answers) := by
  have hgreen : card.green = true := hbound.parked (.inl hstage)
  have hheld : Bound card { record with parked := true, state := .assessment } :=
    ⟨hbound.pinned, hbound.judged, fun _ ↦ hgreen⟩
  unfold advanceAssessment
  split
  · exact .of_none (hheld.saved rfl rfl)
  dsimp only
  split
  · next hpass => exact releaseEffect_sound hheld hmoored hgreen hpass
  · exact .of_none (endWith_invariant (hheld.read hmoored))

end

section

variable (hinv : ReviewInvariant card)
include hinv

/-- Every tick of a card that keeps the reviewed commit is sound. -/
theorem ReviewInvariant.tick_sound (hkeeps : KeepsReviewed card (.tick answers)) :
    Sound card answers (card.tick policy answers) := by
  have hmoored := hinv.moored hkeeps
  unfold tick
  split_ifs with hgone
  · refine .of_none (.of_closed rfl rfl nofun ?_)
    rw [hgone.1]
    rfl
  cases hstage : card.stage with
  | validate => exact advanceReview_sound hinv hmoored
  | assessment => exact advanceAssessment_sound hinv hmoored hstage
  | inProgress => exact .of_none hinv
  | blocked => exact .of_none hinv
  | done => exact .of_none hinv

/-- A move of the checkout keeps the card bound, if a record holds the reviewed commit or the move
goes back to it. -/
theorem ReviewInvariant.move {commit : CommitName} (hkeeps : KeepsReviewed card (.move commit)) :
    ReviewInvariant { card with checkout := commit } := by
  refine ⟨fun reviewed hrev ↦ ?_, hinv.judged, hinv.parked⟩
  rcases hkeeps reviewed hrev with hholds | hback
  · obtain ⟨_, hheld, hcom⟩ := Option.map_eq_some_iff.mp hholds
    rw [hheld]
    exact .inl hcom
  · exact (hinv.pinned reviewed hrev).imp_right fun hpin ↦ ⟨hpin.1, hback⟩

/-- Losing the record keeps the card bound while the checkout is on the reviewed commit. -/
theorem ReviewInvariant.lose (hkeeps : KeepsReviewed card .lose) :
    ReviewInvariant { card with record := none } where
  pinned reviewed hrev := Or.inr ⟨rfl, hkeeps reviewed hrev⟩
  judged := hinv.judged
  parked hparked := by
    rcases hparked with hstage | hadopted
    · exact hinv.parked (.inl hstage)
    · cases hadopted

/-- A new report opens Validate with the pin as it is. -/
theorem ReviewInvariant.report :
    ReviewInvariant
      { card with
        stage := .validate
        record := card.record.map fun record ↦ { record with gateGreen := false } } := by
  unfold ReviewInvariant at hinv
  cases hrec : card.record with
  | none =>
    rw [hrec] at hinv
    exact ⟨hinv.pinned, hinv.judged, nofun⟩
  | some record =>
    rw [hrec] at hinv
    refine ⟨hinv.pinned, hinv.judged, ?_⟩
    rintro (hstage | hpark)
    · cases hstage
    · exact hinv.parked (.inr hpark)

/-- Every step that keeps the reviewed commit leaves the card bound and merges only what may be
merged. -/
theorem ReviewInvariant.step {event : CardEvent} (hkeeps : KeepsReviewed card event) :
    ReviewInvariant (cardStep policy card event) ∧ ReleasesReviewed policy card event := by
  cases event with
  | move _ => exact ⟨hinv.move hkeeps, nofun⟩
  | lose => exact ⟨hinv.lose hkeeps, nofun⟩
  | verdict =>
    refine ⟨?_, nofun⟩
    show ReviewInvariant (if _ then _ else _)
    split_ifs with hpost
    · exact ⟨hinv.pinned, fun _ ↦ Option.ne_none_iff_exists'.mp hpost.2, fun _ ↦ rfl⟩
    · exact hinv
  | decide =>
    refine ⟨?_, nofun⟩
    show ReviewInvariant (if _ then _ else _)
    split_ifs
    · exact ⟨hinv.pinned, hinv.judged, hinv.parked⟩
    · exact hinv
  | report =>
    refine ⟨?_, nofun⟩
    show ReviewInvariant (if _ then _ else _)
    split_ifs
    · exact hinv.report
    · exact hinv
  | tick _ => exact hinv.tick_sound hkeeps

end

end Steps

/-- In every history in which the checkout is on the reviewed commit whenever no record holds it, a
release reaches the merge only with the commit the reviewer of the parked verdict was pointed at,
or with one the base-move check accepts from there. -/
theorem releases_reviewed (policy : GatePolicy) (checkout : CommitName) (events : List CardEvent)
    (hkeeps : EachStep (cardStep policy) KeepsReviewed (.start checkout) events) :
    EachStep (cardStep policy) (ReleasesReviewed policy) (.start checkout) events :=
  hkeeps.of_invariant ReviewInvariant (.of_closed rfl rfl nofun rfl) fun _ _ hinv hgood ↦ hinv.step hgood

/-! ### A card adopted off its reviewed commit -/

/-- A commit named by one hexadecimal digit. -/
def sampleCommit (digit : Char) : CommitName :=
  ⟨sampleSha digit, fun hnil ↦ by simpa [sampleSha] using congrArg String.toList hnil⟩

/-- A project whose gate is its pull request's checks. -/
def samplePolicy : GatePolicy :=
  ⟨.github, id⟩

/-- A tick whose gate is green for a commit, with no reviewer live and no base move accepted. -/
def greenTick (commit : CommitName) : CardEvent :=
  .tick
    { restores := true
      reconcileFirst := fun _ _ ↦ none
      reconcileSecond := fun _ _ ↦ none
      gate := .result (sampleGreen .github commit.1)
      refreshed := none
      proceeds := true
      ending := .wait
      reviewerLive := false
      launches := true
      stops := true
      parks := true
      commits := true
      lands := true }

/-- A report, a review of the checkout, its green verdict and the park. -/
def parkedHistory : List CardEvent :=
  [.report, greenTick (sampleCommit 'c'), .verdict, greenTick (sampleCommit 'c')]

/-- The record of a parked card is lost and its checkout moves: the release merges a commit that the
reviewer was not pointed at and that no base-move check accepts. -/
theorem adoptedCard_releases_drift :
    ¬ EachStep (cardStep samplePolicy) (ReleasesReviewed samplePolicy) (.start (sampleCommit 'c'))
      (parkedHistory ++
        [.lose, .move (sampleCommit 'd'), .decide, greenTick (sampleCommit 'd')]) := by
  intro hrun
  have hlast := ((eachStep_append _ _ _ _ _).mp hrun).2.2.2.2.1
  obtain ⟨reviewed, hrev, hrel⟩ :=
    hlast (sampleCommit 'd') (by decide +kernel)
  have hpoint : some (sampleCommit 'c') = some reviewed := by
    rw [← hrev]
    decide +kernel
  rw [← Option.some.inj hpoint] at hrel
  rcases hrel with hsame | hmove
  · exact absurd hsame (by decide +kernel)
  · cases hmove

/-- The record of a parked card is lost while the checkout stays: the adopted card releases the
reviewed commit. -/
theorem releases_reviewed_witness :
    (cardOutcome samplePolicy ((parkedHistory ++ [CardEvent.lose, CardEvent.decide]).foldl
        (cardStep samplePolicy) (.start (sampleCommit 'c'))) (greenTick (sampleCommit 'c'))).2 =
          some (sampleCommit 'c') ∧
      EachStep (cardStep samplePolicy) (ReleasesReviewed samplePolicy) (.start (sampleCommit 'c'))
        (parkedHistory ++ [.lose, .decide, greenTick (sampleCommit 'c')]) :=
  ⟨by decide +kernel, releases_reviewed _ _ _ (by decide +kernel)⟩

end Ummanu.Release
