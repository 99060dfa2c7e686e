import Ummanu.Release.BaseMove

/-!
# Readiness of a checkout and acceptance of its green gate

Two policies stand between a parked card and the merge. `mergeReadiness` reads whether the checkout
still is what the reviewer was pointed at, asks the mechanical gate, and reads the checkout once
more because the gate may have merged the base into it. `AcceptedGreenGate.accept` then takes the
green result's receipt, if it names the commit the checkout is on.

Both are functions of what the host answered at each call, so that a development can let other
processes move the checkout between two answers. A drift check reads an empty review commit as
agreement, and an unreadable checkout too (`reviewDrift_eq_none_iff`). A green readiness means two
clear drift checks around a green gate (`mergeReadiness_eq_green_iff`), and an accepted receipt
names the commit the checkout was read at (`AcceptedGreenGate.validatedSha_eq`).

Scope. The texts of a gate result that neither policy reads are left out. `safe_one_line`, which
redacts and flattens a remote text, is a parameter.
-/

set_option autoImplicit false

namespace Ummanu.Release

/-! ### Receipts -/

/-- The mechanical gate a project declares; `unknown` is a mode the dispatcher does not know. -/
inductive GateMode
  | localGate
  | github
  | none
  | unknown (name : String)
  deriving DecidableEq

/-- `_EXECUTED_MODES`. -/
def GateMode.executed (mode : GateMode) : Bool :=
  mode = .localGate || mode = .github

/-- `_ALLOWED_MODES`. -/
def GateMode.allowed (mode : GateMode) : Bool :=
  mode.executed || mode = .none

/-- A terminal check of a receipt. -/
structure TerminalCheck where
  name : String
  conclusion : String
  url : String
  deriving DecidableEq

/-- The fields of an attestation as the gate or the state file gives them: an absent text is empty,
`requiredChecks` is `none` when it is no list, and a check is `none` when it is no mapping. -/
structure ReceiptPayload where
  validatedSha : String
  baseSha : String
  gateMode : GateMode
  completedAt : String
  digest : String
  requiredChecks : Option (List (Option TerminalCheck))
  deriving DecidableEq

/-- The attestation of a gate result: none, an empty mapping, or fields. -/
inductive Attestation
  | absent
  | empty
  | fields (payload : ReceiptPayload)
  deriving DecidableEq

/-- `GateReceipt`: accepted evidence. -/
structure GateReceipt where
  validatedSha : String
  baseSha : String
  gateMode : GateMode
  requiredChecks : List TerminalCheck
  completedAt : String
  digest : String
  deriving DecidableEq

/-- `_DIGEST_RE`: sixty-four hexadecimal digits in lower case. -/
def isDigest (value : String) : Bool :=
  value.length == 64 && value.toList.all fun c ↦ c.isDigit || ('a' ≤ c && c ≤ 'f')

def passedConclusions : List String :=
  ["SUCCESS", "NEUTRAL", "SKIPPED"]

section Acceptance

variable (safeOneLine : String → String)

/-- One check of a receipt, if it is named and passed. -/
def acceptCheck (raw : Option TerminalCheck) : Option TerminalCheck :=
  match raw with
  | none => none
  | some check =>
    let name := safeOneLine check.name
    let conclusion := String.ofList ((safeOneLine check.conclusion).toList.map Char.toUpper)
    if name = "" ∨ conclusion ∉ passedConclusions then none
    else some { name, conclusion, url := safeOneLine check.url }

/-- `GateReceipt.accept`: untrusted evidence against the checkout being judged. -/
def GateReceipt.accept (attestation : Attestation) (currentSha : String) : Option GateReceipt :=
  match attestation with
  | .absent => none
  | .empty => none
  | .fields payload =>
    if ¬ isExactSha currentSha then none
    else if ¬ payload.gateMode.executed ∨ ¬ isExactSha payload.validatedSha ∨
        payload.validatedSha ≠ currentSha ∨ ¬ isExactSha payload.baseSha ∨
        safeOneLine payload.completedAt = "" ∨ ¬ isDigest payload.digest then none
    else
      match payload.requiredChecks with
      | none => none
      | some [] => none
      | some raws => do
        let checks ← raws.mapM (acceptCheck safeOneLine)
        some
          { validatedSha := payload.validatedSha
            baseSha := payload.baseSha
            gateMode := payload.gateMode
            requiredChecks := checks
            completedAt := safeOneLine payload.completedAt
            digest := payload.digest }

/-- `AcceptedGreenGate`: the receipt, if there is one, and whether the policy is met. -/
structure AcceptedGreenGate where
  receipt : Option GateReceipt
  policyValid : Bool
  deriving DecidableEq

/-- `AcceptedGreenGate.accept`: the one policy of initial validation, park and release. -/
def AcceptedGreenGate.accept (attestation : Attestation) (currentSha : String)
    (gateMode : GateMode) (noop : Bool) : AcceptedGreenGate :=
  if ¬ gateMode.allowed then ⟨none, false⟩
  else if noop ∨ gateMode = .none then
    ⟨none, attestation = .absent || attestation = .empty⟩
  else
    match GateReceipt.accept safeOneLine attestation currentSha with
    | none => ⟨none, false⟩
    | some receipt => if receipt.gateMode ≠ gateMode then ⟨none, false⟩ else ⟨some receipt, true⟩

/-- An accepted receipt names the commit it was judged against, by its full name. -/
theorem GateReceipt.validatedSha_eq {attestation : Attestation} {currentSha : String} {receipt : GateReceipt}
    (hacc : GateReceipt.accept safeOneLine attestation currentSha = some receipt) :
    receipt.validatedSha = currentSha ∧ isExactSha currentSha = true := by
  cases attestation with
  | absent => cases hacc
  | empty => cases hacc
  | fields pay =>
    obtain ⟨hexact, hacc⟩ := Option.ite_none_left_eq_some.mp hacc
    obtain ⟨hfld, hacc⟩ := Option.ite_none_left_eq_some.mp hacc
    push Not at hfld
    cases hcheck : pay.requiredChecks with
    | none => simp [hcheck] at hacc
    | some raws =>
      cases raws with
      | nil => simp [hcheck] at hacc
      | cons _ _ =>
        rw [hcheck] at hacc
        obtain ⟨_, -, hrec⟩ := Option.bind_eq_some_iff.mp hacc
        rw [← Option.some.inj hrec]
        exact ⟨hfld.2.2.1, not_not.mp hexact⟩

/-- Outside noop mode and a project without a gate, an accepted gate has a receipt, and the receipt
names the commit the checkout was read at. -/
theorem AcceptedGreenGate.validatedSha_eq {attestation : Attestation} {currentSha : String}
    {gateMode : GateMode} {noop : Bool}
    (hvalid : (AcceptedGreenGate.accept safeOneLine attestation currentSha gateMode noop).policyValid)
    (hnoop : noop = false) (hmode : gateMode ≠ .none) :
    ∃ receipt, (AcceptedGreenGate.accept safeOneLine attestation currentSha gateMode noop).receipt =
      some receipt ∧ receipt.validatedSha = currentSha ∧ isExactSha currentSha = true := by
  unfold AcceptedGreenGate.accept at hvalid ⊢
  by_cases hallow : gateMode.allowed = true
  · simp only [hallow, not_true, if_false, hnoop, hmode, or_self, Bool.false_eq_true] at hvalid ⊢
    cases hacc : GateReceipt.accept safeOneLine attestation currentSha with
    | none => simp [hacc] at hvalid
    | some receipt =>
      by_cases hsame : receipt.gateMode = gateMode
      · exact ⟨receipt, by simp [hsame], GateReceipt.validatedSha_eq safeOneLine hacc⟩
      · simp [hacc, hsame] at hvalid
  · simp [hallow] at hvalid

end Acceptance

/-! ### The reviewed commit and the checkout -/

/-- What one drift check asks the host: the commit the checkout is on, empty when unreadable, and
the answer of the base-move check. -/
structure Reading where
  head : String
  reconcile : String → String → Option BaseMove

/-- The first twelve characters of an object name. -/
def shortSha (sha : String) : String :=
  String.ofList (sha.toList.take 12)

/-- The operator's message of a drifted checkout. -/
def driftMessage (reviewCommit current : String) : String :=
  "The review was given for commit `" ++ shortSha reviewCommit ++
    "` while the working copy is now on `" ++ shortSha current ++
    "`: the verdict describes a different state of the code. The card is back in In progress; " ++
    "rework it and report again."

/-- `review_drift`: the message of a drift, if there is one, and the reconciliation it leaves on the
record. -/
def reviewDrift (reviewCommit : String) (reading : Reading) : Option String × Option BaseMove :=
  if reviewCommit = "" then (none, none)
  else if reading.head = "" ∨ reading.head = reviewCommit then (none, none)
  else
    match reading.reconcile reviewCommit reading.head with
    | some move => (none, some move)
    | none => (some (driftMessage reviewCommit reading.head), none)

/-- No drift is read when there is no review commit or no readable checkout, when the two are the
same commit, or when the base-move check accepts the move. -/
theorem reviewDrift_eq_none_iff {reviewCommit : String} {reading : Reading} :
    (reviewDrift reviewCommit reading).1 = none ↔
      reviewCommit = "" ∨ reading.head = "" ∨ reading.head = reviewCommit ∨
        (reading.reconcile reviewCommit reading.head).isSome := by
  unfold reviewDrift
  by_cases hpin : reviewCommit = ""
  · simp [hpin]
  by_cases hhead : reading.head = "" ∨ reading.head = reviewCommit
  · rw [if_neg hpin, if_pos hhead]
    tauto
  · cases hmove : reading.reconcile reviewCommit reading.head <;> simp_all

/-! ### Merge readiness -/

/-- The verdict of a gate result. -/
inductive GateStatus
  | green
  | pending
  | red
  deriving DecidableEq

/-- The part of a gate result the release reads. -/
structure GateResult where
  status : GateStatus
  attestation : Attestation
  deriving DecidableEq

/-- What `gate_check` answers: the backend could not be reached, the host failed, or a result. -/
inductive GateAnswer
  | transport (detail : String)
  | failed (detail : String)
  | result (result : GateResult)
  deriving DecidableEq

/-- The outcome of `merge_readiness`. -/
inductive Readiness
  | drift (detail : String)
  | transport (detail : String)
  | failed (detail : String)
  | pending (result : GateResult)
  | red (result : GateResult)
  | green (result : GateResult)
  deriving DecidableEq

/-- `merge_readiness`, from the answers the host gives it: a drift check, the gate, and on green a
second drift check. -/
def mergeReadiness (reviewCommit : String) (first : Reading) (gate : GateAnswer)
    (second : Reading) : Readiness :=
  match (reviewDrift reviewCommit first).1 with
  | some detail => .drift detail
  | none =>
    match gate with
    | .transport detail => .transport detail
    | .failed detail => .failed detail
    | .result result =>
      match result.status with
      | .green =>
        match (reviewDrift reviewCommit second).1 with
        | some detail => .drift detail
        | none => .green result
      | .pending => .pending result
      | .red => .red result

/-- A checkout is ready when the gate is green between two clear drift checks. -/
theorem mergeReadiness_eq_green_iff {reviewCommit : String} {first second : Reading}
    {gate : GateAnswer} {result : GateResult} :
    mergeReadiness reviewCommit first gate second = .green result ↔
      (reviewDrift reviewCommit first).1 = none ∧ gate = .result result ∧ result.status = .green ∧
        (reviewDrift reviewCommit second).1 = none := by
  unfold mergeReadiness
  cases hfst : (reviewDrift reviewCommit first).1 with
  | some detail => simp
  | none =>
    cases gate with
    | transport detail => simp
    | failed detail => simp
    | result answered =>
      obtain ⟨status, _⟩ := answered
      cases status with
      | green =>
        cases hsnd : (reviewDrift reviewCommit second).1 with
        | some detail => simp
        | none =>
          constructor
          · intro hgreen
            obtain rfl := Readiness.green.inj hgreen
            simp
          · rintro ⟨-, hres, -, -⟩
            obtain rfl := GateAnswer.result.inj hres
            rfl
      | pending =>
        simp only [reduceCtorEq, GateAnswer.result.injEq, true_and, false_iff]
        rintro ⟨rfl, hgreen, -⟩
        cases hgreen
      | red =>
        simp only [reduceCtorEq, GateAnswer.result.injEq, true_and, false_iff]
        rintro ⟨rfl, hgreen, -⟩
        cases hgreen

/-- A green result of a gate for one commit, with a receipt the policy accepts. -/
def sampleGreen (mode : GateMode) (sha : String) : GateResult where
  status := .green
  attestation := .fields
    { validatedSha := sha
      baseSha := sampleSha 'b'
      gateMode := mode
      completedAt := "2026-01-01T00:00:00+00:00"
      digest := String.ofList (List.replicate 64 'f')
      requiredChecks := some [some ⟨"tests", "success", ""⟩] }

end Ummanu.Release
