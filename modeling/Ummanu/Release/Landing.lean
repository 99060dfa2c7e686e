import Ummanu.Library.Runs
import Ummanu.Release.Readiness

/-!
# The commit that lands

One release reads the checkout, asks the gate, reads the checkout again, runs the e2e stage, accepts
the gate's receipt for the commit the checkout is on, and lands the card's branch: by `gh pr merge`,
which merges the head the pull request has at that moment, or by `git push`, which pushes the local
branch's commit at that moment. Other processes may move the checkout's HEAD, the local branch and
the remote branch between any two of these calls.

`releaseStep` takes one such step: a host call with the host's answer, or a move. The readiness
steps are those of `mergeReadiness` (`foldl_readiness_iff`).

The receipt binds HEAD, and the landing commands name a branch. `branchMove_lands_unaccepted` is the
run on which the two differ, for each landing path. `landed_eq_accepted` says when they cannot: in
every run in which the branch the landing command names is where HEAD is when the gate is accepted,
and stays there until the landing, what lands is what was accepted.

Scope. A release is followed up to its end; a later tick's retry is another run. After the landing
the host only reads and refreshes checkouts, which is left out.
-/

set_option autoImplicit false

namespace Ummanu.Release

open Library

/-! ### One release -/

/-- The commits the three references of a card stand on. -/
structure Refs where
  head : String
  localBranch : String
  remoteBranch : String
  deriving DecidableEq

/-- What a release reads of the card, the record and the host and does not change: the record's
review commit, the project's gate, the host's mode, the record's workspace, the automerge switch,
whether the project is refused a landing, the integration base (`none` when the catalog refuses
it), and how remote texts are flattened. -/
structure ReleaseContext where
  reviewCommit : String
  gateMode : GateMode
  noop : Bool
  workspace : String
  automerge : Bool
  liveRootRefused : Bool
  integrationBase : Option String
  safeOneLine : String → String

/-- Where a release stands: before each host call it makes, or over. -/
inductive Phase
  | firstDrift
  | gate
  | secondDrift (result : GateResult)
  | e2eStage (result : GateResult)
  | acceptGate (result : GateResult)
  | completeGreen
  | requirePrBase (base : String)
  | mergePr
  | push
  | over
  deriving DecidableEq

/-- A release: the references, where it stands, the receipt on the record, and what landed. -/
structure ReleaseState where
  refs : Refs
  phase : Phase
  receipt : Option GateReceipt
  landed : Option String
  deriving DecidableEq

/-- A host call with its answer. `head_commit` may be unreadable, the gate may move the references,
the e2e stage proceeds or ends the tick, and a command fails or prints a text. -/
inductive HostCall
  | headCommit (readable : Bool) (reconcile : String → String → Option BaseMove)
  | gateCheck (answer : GateAnswer) (after : Refs)
  | runStage (proceeds : Bool)
  | command (output : Option String)

/-- What happens next: another process moves the references, or the release makes its next call. -/
inductive ReleaseEvent
  | move (refs : Refs)
  | host (call : HostCall)

section

variable (context : ReleaseContext) (release : ReleaseState)

/-- The reading of a drift check. -/
def ReleaseState.reading (readable : Bool) (reconcile : String → String → Option BaseMove) : Reading :=
  ⟨if readable then release.refs.head else "", reconcile⟩

/-- The phase of `complete_green` once it decided that something may land. -/
def landingPhase : Phase :=
  if context.noop = true ∨ context.workspace = "" then .over
  else if ¬ context.automerge then .over
  else if context.liveRootRefused then .over
  else
    match context.integrationBase with
    | none => .over
    | some base => if context.gateMode = .github then .requirePrBase base else .push

/-- The next phase after the gate answered. -/
def gatePhase : GateAnswer → Phase
  | .transport _ => .over
  | .failed _ => .over
  | .result result => if result.status = .green then .secondDrift result else .over

/-- One host call of a release. A call the release does not make now changes nothing. -/
def hostStep (call : HostCall) :
    ReleaseState :=
  match release.phase, call with
  | .firstDrift, .headCommit readable reconcile =>
    match (reviewDrift context.reviewCommit (release.reading readable reconcile)).1 with
    | some _ => { release with phase := .over }
    | none => { release with phase := .gate }
  | .gate, .gateCheck answer after => { release with refs := after, phase := gatePhase answer }
  | .secondDrift result, .headCommit readable reconcile =>
    match (reviewDrift context.reviewCommit (release.reading readable reconcile)).1 with
    | some _ => { release with phase := .over }
    | none => { release with phase := .e2eStage result }
  | .e2eStage result, .runStage proceeds =>
    { release with phase := if proceeds then .acceptGate result else .over }
  | .acceptGate result, .headCommit readable reconcile =>
    let accepted := AcceptedGreenGate.accept context.safeOneLine result.attestation
      (release.reading readable reconcile).head context.gateMode context.noop
    if accepted.policyValid then
      { release with phase := .completeGreen, receipt := accepted.receipt }
    else { release with phase := .over }
  | .completeGreen, .command (some _) => { release with phase := landingPhase context }
  | .completeGreen, .command none => { release with phase := .over }
  | .requirePrBase base, .command observed =>
    { release with phase := if observed = some base then .mergePr else .over }
  | .mergePr, .command (some _) =>
    { release with phase := .over, landed := some release.refs.remoteBranch }
  | .mergePr, .command none => { release with phase := .over }
  | .push, .command (some _) =>
    { release with phase := .over, landed := some release.refs.localBranch }
  | .push, .command none => { release with phase := .over }
  | _, _ => release

/-- One step of the interleaving. -/
def releaseStep : ReleaseEvent → ReleaseState
  | .move refs => { release with refs }
  | .host call => hostStep context release call

end

/-- A release that has not made a call yet. -/
def ReleaseState.start (refs : Refs) : ReleaseState :=
  ⟨refs, .firstDrift, none, none⟩

/-! ### The readiness steps -/

section Readiness

variable (context : ReleaseContext)

/-- Moves of other processes change nothing but the references. -/
theorem foldl_moves (moves : List Refs) (release : ReleaseState) :
    (moves.map ReleaseEvent.move).foldl (releaseStep context) release =
      { release with refs := moves.getLastD release.refs } := by
  induction moves generalizing release with
  | nil => rfl
  | cons _ _ ih =>
    rw [List.map_cons, List.foldl_cons, ih, List.getLastD_cons]
    rfl

section

variable (refs : Refs) (first second : Bool × (String → String → Option BaseMove)) (answer : GateAnswer)
  (after : Refs)

/-- The calls of `merge_readiness` with moves of other processes between them. -/
def readinessRun (before between : List Refs) : List ReleaseEvent :=
  .host (.headCommit first.1 first.2) :: before.map .move ++
    .host (.gateCheck answer after) :: between.map .move ++ [.host (.headCommit second.1 second.2)]

/-- The readiness steps of a release get past the second drift check exactly when `mergeReadiness`
is green on what the host answered. -/
theorem foldl_readiness_iff (before between : List Refs) (result : GateResult) :
    ((readinessRun first second answer after before between).foldl (releaseStep context)
        (.start refs)).phase = .e2eStage result ↔
      mergeReadiness context.reviewCommit ⟨if first.1 then refs.head else "", first.2⟩ answer
        ⟨if second.1 then (between.getLastD after).head else "", second.2⟩ = .green result := by
  rw [mergeReadiness_eq_green_iff]
  simp only [readinessRun, List.cons_append, List.foldl_cons, List.foldl_append, List.foldl_nil,
    foldl_moves, releaseStep, ReleaseState.start, hostStep, ReleaseState.reading]
  cases (reviewDrift context.reviewCommit ⟨if first.1 then refs.head else "", first.2⟩).1 with
  | some _ => simp
  | none =>
    cases answer with
    | transport _ => simp [gatePhase]
    | failed _ => simp [gatePhase]
    | result answered =>
      by_cases hgreen : answered.status = .green
      · simp only [gatePhase, if_pos hgreen]
        cases (reviewDrift context.reviewCommit
          ⟨if second.1 then (between.getLastD after).head else "", second.2⟩).1 with
        | some _ => simp
        | none =>
          simp only [Phase.e2eStage.injEq, GateAnswer.result.injEq, true_and, and_true]
          exact ⟨fun hsame ↦ ⟨hsame, hsame ▸ hgreen⟩, And.left⟩
      · simp only [gatePhase, if_neg hgreen]
        refine iff_of_false (by simp) ?_
        rintro ⟨-, hsame, hstatus, -⟩
        cases hsame
        exact hgreen hstatus

end

end Readiness

/-! ### What lands -/

/-- The commit the landing command would land: the pull request's head, or the local branch. -/
def ReleaseContext.landingBranch (context : ReleaseContext) (refs : Refs) : String :=
  if context.gateMode = .github then refs.remoteBranch else refs.localBranch

/-- The gate is accepted and the landing command has not run. -/
def Phase.lands : Phase → Bool
  | .completeGreen => true
  | .requirePrBase _ => true
  | .mergePr => true
  | .push => true
  | _ => false

/-- The next call accepts the gate. -/
def Phase.accepts : Phase → Bool
  | .acceptGate _ => true
  | _ => false

/-- Whatever landed is the commit whose receipt the release accepted. A project without a gate has
no receipts. -/
def LandsAccepted (context : ReleaseContext) (release : ReleaseState) : Prop :=
  ∀ sha, release.landed = some sha →
    context.gateMode = .none ∨ ∃ receipt, release.receipt = some receipt ∧ receipt.validatedSha = sha

/-- The branch the landing command names is where HEAD is when the gate is accepted, and no other
process moves it from then on. -/
def BranchStands (context : ReleaseContext) (release : ReleaseState) : ReleaseEvent → Prop
  | .move refs => context.gateMode ≠ .none → release.phase.lands = true →
      context.landingBranch refs = context.landingBranch release.refs
  | .host _ => context.gateMode ≠ .none → release.phase.accepts = true →
      context.landingBranch release.refs = release.refs.head

instance BranchStands.decidable (context : ReleaseContext) (release : ReleaseState) :
    ∀ event, Decidable (BranchStands context release event)
  | .move refs => inferInstanceAs (Decidable (context.gateMode ≠ .none →
      release.phase.lands = true → context.landingBranch refs = context.landingBranch release.refs))
  | .host _ => inferInstanceAs (Decidable (context.gateMode ≠ .none →
      release.phase.accepts = true → context.landingBranch release.refs = release.refs.head))

/-- The landing paths are entered only outside noop mode, each for its gate. -/
def Phase.Fits (context : ReleaseContext) : Phase → Prop
  | .requirePrBase _ => context.noop = false ∧ context.gateMode = .github
  | .mergePr => context.noop = false ∧ context.gateMode = .github
  | .push => context.noop = false ∧ context.gateMode ≠ .github
  | _ => True

/-- What every step of a release keeps: nothing has landed before the end, the landing branch stands
on the accepted commit until the landing, and what landed was accepted. -/
structure LandingInvariant (context : ReleaseContext) (release : ReleaseState) : Prop where
  unlanded : release.phase ≠ .over → release.landed = none
  fits : release.phase.Fits context
  bound : release.phase.lands = true → context.noop = true ∨ context.gateMode = .none ∨
    ∃ receipt, release.receipt = some receipt ∧ receipt.validatedSha = context.landingBranch release.refs
  accepted : LandsAccepted context release

section Landing

variable {context : ReleaseContext} {release : ReleaseState}

theorem LandingInvariant.start (context : ReleaseContext) (refs : Refs) :
    LandingInvariant context (.start refs) :=
  ⟨fun _ ↦ rfl, trivial, nofun, nofun⟩

/-- Nothing landed yet, and the release goes on to a phase before the landing, or ends. -/
theorem LandingInvariant.of_unlanded (hland : release.landed = none)
    (hphase : release.phase.lands = false) : LandingInvariant context release where
  unlanded _ := hland
  fits := by
    cases hcase : release.phase <;> simp_all [Phase.Fits, Phase.lands]
  bound hlands := by
    rw [hphase] at hlands
    cases hlands
  accepted sha hsha := by
    rw [hland] at hsha
    cases hsha

theorem landingPhase_fits (context : ReleaseContext) : (landingPhase context).Fits context := by
  unfold landingPhase
  cases context.integrationBase <;> split_ifs with hoff _ _ hmode <;>
    first | trivial | exact ⟨Bool.eq_false_iff.mpr fun hon ↦ hoff (.inl hon), hmode⟩

/-- A move that leaves the landing branch alone keeps the invariant. -/
theorem LandingInvariant.move (hinv : LandingInvariant context release) {refs : Refs}
    (hstand : BranchStands context release (.move refs)) :
    LandingInvariant context { release with refs } := { hinv with
  bound hlands := by
    by_cases hmode : context.gateMode = .none
    · exact .inr (.inl hmode)
    · rw [hstand hmode hlands]
      exact hinv.bound hlands }

/-- Accepting the gate binds the branch that stands where HEAD is. -/
theorem LandingInvariant.acceptGate {result : GateResult} {readable : Bool}
    {reconcile : String → String → Option BaseMove}
    (hinv : LandingInvariant context release) (hphase : release.phase = .acceptGate result)
    (hstand : context.gateMode ≠ .none → context.landingBranch release.refs = release.refs.head) :
    LandingInvariant context (hostStep context release (.headCommit readable reconcile)) := by
  have hland : release.landed = none := hinv.unlanded (by rw [hphase]; nofun)
  unfold hostStep
  rw [hphase]
  dsimp only
  split_ifs with hvalid
  · refine ⟨fun _ ↦ hland, trivial, fun _ ↦ ?_, fun _ hsha ↦ ?_⟩
    · by_cases hoff : context.noop = true ∨ context.gateMode = .none
      · exact hoff.imp_right Or.inl
      · obtain ⟨hnoop, hmode⟩ := not_or.mp hoff
        obtain ⟨receipt, hrec, hsha, hexact⟩ := AcceptedGreenGate.validatedSha_eq context.safeOneLine
          hvalid (Bool.eq_false_iff.mpr hnoop) hmode
        refine .inr (.inr ⟨receipt, hrec, ?_⟩)
        have hread : (release.reading readable reconcile).head = release.refs.head := by
          cases readable with
          | true => rfl
          | false => cases hexact
        rw [hsha, hread, hstand hmode]
    · rw [hland] at hsha
      cases hsha
  · exact .of_unlanded hland rfl

/-- Everything a host call can do: nothing, a step that stays before the acceptance or ends the
release, the acceptance, and the steps of the landing. -/
theorem hostStep_cases (context : ReleaseContext) (release : ReleaseState) (call : HostCall) :
    hostStep context release call = release ∨
      (release.phase ≠ .over ∧ (hostStep context release call).phase.lands = false ∧
        (hostStep context release call).landed = release.landed) ∨
      (∃ result readable reconcile, release.phase = .acceptGate result ∧ call = .headCommit readable reconcile) ∨
      (release.phase = .completeGreen ∧
        hostStep context release call = { release with phase := landingPhase context }) ∨
      (∃ base, release.phase = .requirePrBase base ∧
        hostStep context release call = { release with phase := .mergePr }) ∨
      (release.phase = .mergePr ∧ hostStep context release call =
        { release with phase := .over, landed := some release.refs.remoteBranch }) ∨
      (release.phase = .push ∧ hostStep context release call =
        { release with phase := .over, landed := some release.refs.localBranch }) := by
  by_cases hlive : release.phase = .over
  · exact .inl (by simp [hostStep, hlive])
  unfold hostStep
  split
  case h_1 =>
    refine .inr (.inl ⟨hlive, ?_⟩)
    split <;> exact ⟨rfl, rfl⟩
  case h_2 answer _ _ =>
    refine .inr (.inl ⟨hlive, ?_, rfl⟩)
    cases answer with
    | result result =>
      show (if _ then _ else _ : Phase).lands = false
      split <;> rfl
    | _ => rfl
  case h_3 =>
    refine .inr (.inl ⟨hlive, ?_⟩)
    split <;> exact ⟨rfl, rfl⟩
  case h_4 proceeds _ =>
    refine .inr (.inl ⟨hlive, ?_, rfl⟩)
    cases proceeds <;> rfl
  case h_5 result readable reconcile hphase =>
    exact .inr (.inr (.inl ⟨result, readable, reconcile, hphase, rfl⟩))
  case h_6 hphase => exact .inr (.inr (.inr (.inl ⟨hphase, rfl⟩)))
  case h_7 => exact .inr (.inl ⟨hlive, rfl, rfl⟩)
  case h_8 base observed hphase =>
    split_ifs
    · exact .inr (.inr (.inr (.inr (.inl ⟨base, hphase, rfl⟩))))
    · exact .inr (.inl ⟨hlive, rfl, rfl⟩)
  case h_9 hphase =>
    exact .inr (.inr (.inr (.inr (.inr (.inl ⟨hphase, rfl⟩)))))
  case h_10 => exact .inr (.inl ⟨hlive, rfl, rfl⟩)
  case h_11 hphase =>
    exact .inr (.inr (.inr (.inr (.inr (.inr ⟨hphase, rfl⟩)))))
  case h_12 => exact .inr (.inl ⟨hlive, rfl, rfl⟩)
  case h_13 => exact .inl rfl

/-- The landing command lands the branch that stands on the accepted commit. -/
theorem LandingInvariant.land (hinv : LandingInvariant context release)
    (hlands : release.phase.lands = true) (hnoop : context.noop = false) {sha : String}
    (hsha : context.landingBranch release.refs = sha) :
    LandingInvariant context { release with phase := .over, landed := some sha } where
  unlanded hphase := absurd rfl hphase
  fits := trivial
  bound := nofun
  accepted other hother := by
    obtain rfl := Option.some.inj hother
    rcases hinv.bound hlands with hon | hmode | ⟨receipt, hrec, hvalid⟩
    · rw [hnoop] at hon
      cases hon
    · exact .inl hmode
    · exact .inr ⟨receipt, hrec, hvalid.trans hsha⟩

/-- Every host call keeps the invariant, if the branch stands where HEAD is at the acceptance. -/
theorem LandingInvariant.host (hinv : LandingInvariant context release) {call : HostCall}
    (hstand : BranchStands context release (.host call)) :
    LandingInvariant context (hostStep context release call) := by
  rcases hostStep_cases context release call with hsame | ⟨hphase, hlands, hland⟩ |
    ⟨result, readable, reconcile, hphase, rfl⟩ | ⟨hphase, hnext⟩ | ⟨base, hphase, hnext⟩ |
    ⟨hphase, hnext⟩ | ⟨hphase, hnext⟩
  · rwa [hsame]
  · exact .of_unlanded (hland.trans (hinv.unlanded hphase)) hlands
  · exact hinv.acceptGate hphase fun hmode ↦ hstand hmode (by rw [hphase]; rfl)
  · rw [hnext]
    exact ⟨fun _ ↦ hinv.unlanded (by rw [hphase]; nofun), landingPhase_fits context,
      fun _ ↦ hinv.bound (by rw [hphase]; rfl), hinv.accepted⟩
  · rw [hnext]
    have hfits := hinv.fits
    rw [hphase] at hfits
    exact ⟨fun _ ↦ hinv.unlanded (by rw [hphase]; nofun), hfits,
      fun _ ↦ hinv.bound (by rw [hphase]; rfl), hinv.accepted⟩
  · rw [hnext]
    have hfits := hinv.fits
    rw [hphase] at hfits
    exact hinv.land (by rw [hphase]; rfl) hfits.1 (if_pos hfits.2)
  · rw [hnext]
    have hfits := hinv.fits
    rw [hphase] at hfits
    exact hinv.land (by rw [hphase]; rfl) hfits.1 (if_neg hfits.2)

end Landing

/-- In every interleaving of a release with moves of other processes in which the branch that the
landing command names stands where HEAD is when the gate is accepted and is not moved until the
landing, the commit that lands is the one whose receipt was accepted. -/
theorem landed_eq_accepted (context : ReleaseContext) (refs : Refs) (events : List ReleaseEvent)
    (hstands : EachStep (releaseStep context) (BranchStands context) (.start refs) events) :
    LandsAccepted context (events.foldl (releaseStep context) (.start refs)) := by
  refine (hstands.invariant (LandingInvariant context) (.start context refs) ?_).accepted
  intro _ ev hinv hgood
  cases ev with
  | move refs => exact hinv.move hgood
  | host _ => exact hinv.host hgood

/-! ### A branch that moves between acceptance and landing -/

/-- A release of a project with the given gate, from a checkout reviewed at one commit. -/
def sampleContext (mode : GateMode) : ReleaseContext where
  reviewCommit := sampleSha 'c'
  gateMode := mode
  noop := false
  workspace := "/workspaces/card"
  automerge := true
  liveRootRefused := false
  integrationBase := some "main"
  safeOneLine := id

/-- All references of a card on one commit. -/
def refsAt (sha : String) : Refs :=
  ⟨sha, sha, sha⟩

/-- The calls of a release up to the acceptance of the gate. -/
def sampleAcceptance (mode : GateMode) : List ReleaseEvent :=
  [ .host (.headCommit true fun _ _ ↦ none),
    .host (.gateCheck (.result (sampleGreen mode (sampleSha 'c'))) (refsAt (sampleSha 'c'))),
    .host (.headCommit true fun _ _ ↦ none),
    .host (.runStage true),
    .host (.headCommit true fun _ _ ↦ none) ]

/-- The calls of `complete_green`: its own checks, then the commands of the landing path. -/
def sampleLanding : List ReleaseEvent :=
  [.host (.command (some "")), .host (.command (some "main")), .host (.command (some ""))]

/-- A release whose branch another process moves between the acceptance and the landing. -/
def sampleRace (mode : GateMode) : ReleaseState :=
  (sampleAcceptance mode ++ .move (refsAt (sampleSha 'd')) :: sampleLanding).foldl
    (releaseStep (sampleContext mode)) (.start (refsAt (sampleSha 'c')))

theorem not_landsAccepted_of_landed {context : ReleaseContext} {release : ReleaseState}
    {accepted landed : String} (hmode : context.gateMode ≠ .none)
    (hland : release.landed = some landed)
    (hrec : release.receipt.map GateReceipt.validatedSha = some accepted)
    (hne : accepted ≠ landed) : ¬ LandsAccepted context release := by
  intro hacc
  rcases hacc landed hland with hnone | ⟨_, hsome, hvalid⟩
  · exact hmode hnone
  · rw [hsome, Option.map_some, hvalid] at hrec
    exact hne (Option.some.inj hrec).symm

/-- On either landing path, a branch that another process moves between the acceptance and the
landing command lands a commit nobody accepted. -/
theorem branchMove_lands_unaccepted :
    ¬ LandsAccepted (sampleContext .github) (sampleRace .github) ∧
      ¬ LandsAccepted (sampleContext .localGate) (sampleRace .localGate) := by
  have hne : sampleSha 'c' ≠ sampleSha 'd' := by decide +kernel
  constructor
  · exact not_landsAccepted_of_landed nofun (by decide +kernel) (by decide +kernel) hne
  · exact not_landsAccepted_of_landed nofun (by decide +kernel) (by decide +kernel) hne

/-- A release through a pull request whose head stays while HEAD and the local branch move on: it
lands the accepted commit. -/
theorem landed_eq_accepted_witness :
    ((sampleAcceptance .github ++ .move ⟨sampleSha 'd', sampleSha 'd', sampleSha 'c'⟩ ::
        sampleLanding).foldl (releaseStep (sampleContext .github))
          (.start (refsAt (sampleSha 'c')))).landed = some (sampleSha 'c') ∧
      LandsAccepted (sampleContext .github)
        ((sampleAcceptance .github ++ .move ⟨sampleSha 'd', sampleSha 'd', sampleSha 'c'⟩ ::
          sampleLanding).foldl (releaseStep (sampleContext .github)) (.start (refsAt (sampleSha 'c')))) :=
  ⟨by decide +kernel, landed_eq_accepted _ _ _ (by decide +kernel)⟩

end Ummanu.Release
