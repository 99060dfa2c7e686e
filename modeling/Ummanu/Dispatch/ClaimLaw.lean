import Ummanu.Dispatch.Claim

/-!
# The workspace of a card that comes back

Until a card is handed off, a claim commits nothing but the claim itself, a comment on the heads and the refusal
of a preflight, and leaves no record: `NeverHandedOff`. Request ids are joined with the dash that also stands
inside attempts and actions, so that ids of different attempts may coincide; those of a retry action and of an
action of a claim coincide only if the actions do. A card that was never handed off and never adopted therefore
demands its workspace only where the refusal of a preflight counts as a block to come back from.
-/

set_option autoImplicit false

namespace Ummanu.Dispatch

open Library Ledger

/-! ### Request ids that coincide -/

/-- The action of a request id is what stands before the reference. -/
theorem toList_attemptRequestId (attemptId action reference : String) :
    ∃ front, (attemptRequestId attemptId action reference "").toList =
      front ++ '-' :: (requestToken action).toList ++ '-' :: (requestToken reference).toList := by
  refine ⟨("dispatcher" ++ "-" ++
    requestToken (requestToken (if attemptId = "" then "attempt-missing" else attemptId))).toList, ?_⟩
  have hdisp : requestToken "dispatcher" = "dispatcher" := by decide +kernel
  simp [attemptRequestId, joinedTokens, hdisp]

/-- Of the actions of two ids that coincide, one ends in the other. -/
theorem suffix_of_attemptRequestId_eq {attemptId otherId action other reference : String}
    (hsame : attemptRequestId attemptId action reference "" = attemptRequestId otherId other reference "") :
    '-' :: (requestToken action).toList <:+ '-' :: (requestToken other).toList ∨
      '-' :: (requestToken other).toList <:+ '-' :: (requestToken action).toList := by
  obtain ⟨front, hfront⟩ := toList_attemptRequestId attemptId action reference
  obtain ⟨back, hback⟩ := toList_attemptRequestId otherId other reference
  rw [hsame, hback] at hfront
  have hcut := List.append_cancel_right hfront
  exact List.suffix_or_suffix_of_suffix ⟨front, hcut.symm⟩ ⟨back, rfl⟩

/-- What a claim commits before the card is handed off. -/
def claimActions : List String :=
  ["claim", "head-failover-comment"] ++
    [Preflight.sprintReservation, .liveRootProject, .contract, .gitAccess].map fun preflight ↦
      bringUpBlockedAction preflight.action true

/-- The refusals of a preflight that count as a block to come back from. -/
def retriedPreflights : List Preflight := [.contract, .gitAccess]

theorem retryActions_suffix : ∀ action ∈ blockedActionsAndTwins retryActions, ∀ other ∈ claimActions,
    ('-' :: (requestToken action).toList <:+ '-' :: (requestToken other).toList ∨
      '-' :: (requestToken other).toList <:+ '-' :: (requestToken action).toList) →
    ∃ preflight ∈ retriedPreflights, action = bringUpBlockedAction preflight.action true := by
  decide +kernel

/-! ### Cards that were never handed off -/

/-- The card has no record, and everything that is committed for it was committed by a claim. -/
structure NeverHandedOff (ref : String) (world : World) : Prop where
  record : world.record = none
  committed : ∀ requestId ∈ world.committed, ∃ attemptId, ∃ action ∈ claimActions,
    requestId = attemptRequestId attemptId action ref ""

section Histories

variable {ref : String} {world : World}

theorem NeverHandedOff.write (hnever : NeverHandedOff ref world) (attemptId : String) {action : String}
    (hact : action ∈ claimActions) (state : CardState) :
    NeverHandedOff ref (world.write (attemptRequestId attemptId action ref "") state) := by
  unfold World.write
  split_ifs
  · exact hnever
  · refine ⟨hnever.record, fun rid hmem ↦ ?_⟩
    rcases List.mem_cons.mp hmem with rfl | hold
    · exact ⟨attemptId, action, hact, rfl⟩
    · exact hnever.committed rid hold

theorem preflight_mem_claimActions (preflight : Preflight) : bringUpBlockedAction preflight.action true ∈ claimActions := by
  cases preflight <;> decide +kernel

section

variable (hnever : NeverHandedOff ref world)
include hnever

theorem NeverHandedOff.preflightBlock (attemptId : String) (preflight : Preflight) :
    NeverHandedOff ref (world.preflightBlock ref attemptId preflight) :=
  ⟨rfl, (hnever.write attemptId (preflight_mem_claimActions preflight) .blocked).committed⟩

theorem NeverHandedOff.commentFailover (attemptId : String) (substituted : Bool) :
    NeverHandedOff ref (world.commentFailover ref attemptId substituted) := by
  unfold World.commentFailover
  split_ifs
  · exact hnever.write attemptId (by decide +kernel) world.state
  · exact hnever

/-- A claim hands the card off, or leaves it as one that never was. -/
theorem NeverHandedOff.claimUnder (readings : Readings) (attemptId : String) (contractStops requireExisting : Bool) :
    (claimUnder ref world readings attemptId contractStops requireExisting).2.isHandoff = true ∨
      NeverHandedOff ref (claimUnder ref world readings attemptId contractStops requireExisting).1 := by
  have hclaim := hnever.write attemptId (show "claim" ∈ claimActions by decide +kernel) .inProgress
  unfold Dispatch.claimUnder
  cases readings.claimError with
  | some _ => exact .inr hnever
  | none =>
    dsimp only
    cases readings.refusal contractStops with
    | some preflight => exact .inr (hclaim.preflightBlock attemptId preflight)
    | none =>
      dsimp only
      split_ifs
      · exact .inl rfl
      · exact .inr (hclaim.commentFailover attemptId readings.substituted)

theorem NeverHandedOff.prepareClaim (readings : Readings) (attemptId freshId : String) (resumeWorkspace : Bool) :
    (prepareClaim ref world readings attemptId freshId resumeWorkspace).2.isHandoff = true ∨
      NeverHandedOff ref (prepareClaim ref world readings attemptId freshId resumeWorkspace).1 := by
  unfold Dispatch.prepareClaim
  split
  · exact .inr hnever
  · split
    · exact .inr hnever
    · split
      · exact .inr hnever
      · exact hnever.claimUnder readings _ _ _

/-- One event. -/
theorem NeverHandedOff.apply {event : Event} (hown : event.isAdoption = false) :
    (∃ outcome ∈ (event.apply ref world).2, outcome.isHandoff = true) ∨ NeverHandedOff ref (event.apply ref world).1 := by
  cases event with
  | claim attemptId freshId readings =>
    rcases hnever.prepareClaim readings attemptId freshId false with hhand | hafter
    · exact .inl ⟨_, rfl, hhand⟩
    · exact .inr hafter
  | adopt => cases hown
  | block | advance =>
    -- A later stage works under a record, and there is none.
    simp only [Event.apply, hnever.record]
    exact .inr hnever
  | drop => exact .inr ⟨rfl, hnever.committed⟩
  | move => exact .inr ⟨hnever.record, hnever.committed⟩

/-- A whole history. -/
theorem NeverHandedOff.worldAfter {history : List Event} (hown : ∀ event ∈ history, event.isAdoption = false) :
    (∃ outcome ∈ outcomes ref world history, outcome.isHandoff = true) ∨
      NeverHandedOff ref (worldAfter ref world history) := by
  induction history generalizing world with
  | nil => exact .inr hnever
  | cons ev _ ih =>
    simp only [outcomes, List.mem_append, Option.mem_toList]
    rw [List.forall_mem_cons] at hown
    rcases hnever.apply hown.1 with ⟨outcome, hmem, hhand⟩ | hnext
    · exact .inl ⟨outcome, .inl hmem, hhand⟩
    · rcases ih hnext hown.2 with ⟨outcome, hmem, hhand⟩ | hafter
      · exact .inl ⟨outcome, .inr hmem, hhand⟩
      · exact .inr hafter

end

/-- The flag of a hand-off is the retry after a block. -/
theorem prepareClaim_handoff {readings : Readings} {attemptId freshId : String} {resumeWorkspace flag : Bool}
    {record : Record}
    (hhand : (prepareClaim ref world readings attemptId freshId resumeWorkspace).2 = .handoff record flag) :
    flag = world.retryAfterBlock ref attemptId resumeWorkspace := by
  unfold Dispatch.prepareClaim at hhand
  split at hhand
  · cases hhand
  · split at hhand
    · cases hhand
    · split at hhand
      · cases hhand
      · unfold Dispatch.claimUnder at hhand
        split at hhand
        · cases hhand
        · split at hhand
          · cases hhand
          · split_ifs at hhand
            cases hhand
            rfl

/-- A card that was never handed off comes back only from the refusal of a preflight. -/
theorem NeverHandedOff.retryAfterBlock (hnever : NeverHandedOff ref world) {attemptId : String}
    (hretry : world.retryAfterBlock ref attemptId false = true) : ∃ preflight ∈ retriedPreflights,
      attemptRequestId attemptId (bringUpBlockedAction preflight.action true) ref "" ∈ world.committed := by
  simp only [World.retryAfterBlock, World.committedAny, Bool.false_or, List.any_eq_true, decide_eq_true_eq] at hretry
  obtain ⟨action, hact, hcom⟩ := hretry
  obtain ⟨otherId, o, hoth, hsame⟩ := hnever.committed _ hcom
  obtain ⟨preflight, hpre, rfl⟩ :=
    retryActions_suffix action hact o hoth (suffix_of_attemptRequestId_eq hsame)
  exact ⟨preflight, hpre, hcom⟩

/-- A claim under an attempt that has no refusal of the contract or of Git access on record demands a workspace
only if an earlier claim of the card was handed off, where no stage adopted the card. -/
theorem prepareClaim_requireExisting (state : CardState) {history : List Event} {readings : Readings}
    {attemptId freshId : String} {record : Record} (hown : ∀ event ∈ history, event.isAdoption = false)
    (hunrefused : ∀ preflight ∈ retriedPreflights, attemptRequestId attemptId
      (bringUpBlockedAction preflight.action true) ref "" ∉ (worldAfter ref { state } history).committed)
    (hhandoff : (prepareClaim ref (worldAfter ref { state } history) readings attemptId freshId false).2 =
      .handoff record true) :
    ∃ outcome ∈ outcomes ref { state } history, outcome.isHandoff = true := by
  have hstart : NeverHandedOff ref { state } := ⟨rfl, fun _ hmem ↦ absurd hmem List.not_mem_nil⟩
  refine (hstart.worldAfter hown).resolve_right fun hnever ↦ ?_
  obtain ⟨preflight, hpre, hcom⟩ := hnever.retryAfterBlock (prepareClaim_handoff hhandoff).symm
  exact hunrefused preflight hpre hcom

end Histories

/-! ### A refusal that counts as a block -/

/-- A worker is brought up and then blocked, and the card comes back under the same attempt. -/
theorem prepareClaim_requireExisting_witness :
    let history := [.claim "a-1" "a-2" {}, .block "worker-blocked" "" false false, .move .ready]
    (prepareClaim "demo-1" (worldAfter "demo-1" { state := .ready } history) {} "a-1" "a-3" false).2 =
        .handoff { attemptId := "a-3" } true ∧
      ∃ outcome ∈ outcomes "demo-1" { state := .ready } history, outcome.isHandoff = true := by
  intro history
  have hhand : (prepareClaim "demo-1" (worldAfter "demo-1" { state := .ready } history) {} "a-1" "a-3" false).2 =
      .handoff { attemptId := "a-3" } true := by decide +kernel
  exact ⟨hhand, prepareClaim_requireExisting .ready (by decide +kernel) (by decide +kernel) hhand⟩

/-- The contract refuses a card, which comes back when the contract is fit: it was never handed off, and demands
a workspace. -/
theorem prepareClaim_requireExisting_refused :
    let attemptId := productionAdoptAttemptId "demo-1"
    let history := [.claim attemptId "a-1" { contractVerdict := .refused }, .move .ready]
    outcomes "demo-1" { state := .ready } history = [.blocked "contract-preflight" attemptId] ∧
      (prepareClaim "demo-1" (worldAfter "demo-1" { state := .ready } history) {} attemptId "a-2" false).2 =
        .handoff { attemptId := "a-2" } true := by
  decide +kernel

end Ummanu.Dispatch
