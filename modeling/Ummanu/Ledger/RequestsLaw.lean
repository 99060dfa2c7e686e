import Ummanu.Ledger.Requests
import Ummanu.Library.Loops

/-!
# What the ledger's operations do to a row

One lemma says everything an operation can do: it leaves the rows of other ids alone, and the row of its own
id changes in one of the ways listed by `RowChange`. That committed records are never rewritten and that a
refused id stays refused is read off that list and carried through every sequence of calls. A protocol record
leaves its row as itself only if what is offered for it is not merely equal to it: `1` and `true` are equal, and a
record with the one is committed over a record with the other.
-/

set_option autoImplicit false

namespace Ummanu.Ledger

open Library

variable {offered : Option Json} {operation : Operation}
variable {after : Requests}

/-! ### Ownership by status -/

section Owners

variable {requests : Requests} {requestId : String} {row : Row}

theorem record_of_find (hfind : requests.find requestId = some row) (status : Status) :
    record requests requestId status = if row.status = status then some row.intent else none := by
  simp only [record, hfind]

theorem record_of_absent (hfind : requests.find requestId = none) (status : Status) :
    record requests requestId status = none := by
  simp only [record, hfind]

/-- An id without a row is free. -/
theorem pendingOwner_absent (hfind : requests.find requestId = none) :
    pendingOwner requests requestId offered operation = .ok {} := by
  simp [pendingOwner, committedEvent, pendingEvent, record_of_absent hfind]

/-- A committed id belongs to its record. -/
theorem pendingOwner_committed (hfind : requests.find requestId = some row) (hstat : row.status = .committed) :
    pendingOwner requests requestId offered operation =
      if offered.all row.intent.same then .ok { committed := some row.intent } else .error foreignClaim := by
  rw [pendingOwner, committedEvent, record_of_find hfind, if_pos hstat]
  cases offered with
  | none => rfl
  | some event => cases hsame : row.intent.same event <;> simp [requireSameEvent, hsame]

/-- A staged id asks for its record. -/
theorem pendingOwner_staged (hfind : requests.find requestId = some row) (hstat : row.status = .staged) :
    pendingOwner requests requestId offered operation = stagedOwner row.intent offered operation := by
  simp [pendingOwner, committedEvent, pendingEvent, record_of_find hfind, hstat]

/-- What is raised for an id that settlement refused. -/
def refusedClaim (requests : Requests) (requestId : String) : Raised :=
  .task "validation" ("request id was refused when its stale staged record was settled: " ++
    refusalReason requests requestId) 2

/-- A refused id can only be discarded, which does nothing. -/
theorem pendingOwner_discarded (hfind : requests.find requestId = some row) (hstat : row.status = .discarded) :
    pendingOwner requests requestId offered operation =
      if operation = .discard then .ok {} else .error (refusedClaim requests requestId) := by
  simp only [pendingOwner, committedEvent, pendingEvent, record_of_find hfind, hstat]
  by_cases hop : operation = .discard <;> simp [hop, refusedClaim]

/-- Who is let in to a staged id: a record equal to its own, a generic record in place of a generic one, and a
discard that names nothing of a generic one. -/
theorem stagedOwner_ok {pending : Json} {owner : Owner} (hop : operation ≠ .reconcile)
    (howner : stagedOwner pending offered operation = .ok owner) :
    owner = { pending := some pending } ∧ offered.any pending.same = true ∨
      owner = { pending := some pending, replace := true } ∧ operation = .stage ∧
        staysGeneric pending offered = true ∨
      owner = { pending := some pending } ∧ operation = .discard ∧ offered = none ∧
        isProtocolEvent pending = false := by
  have hreconcile : checkReconcile pending operation = .ok () := by simp [checkReconcile, hop]
  rw [stagedOwner, hreconcile] at howner
  simp only [bind, Except.bind, pure, Except.pure] at howner
  split_ifs at howner with hsame hstage hdisc
  · exact .inl ⟨(Except.ok.inj howner).symm, hsame⟩
  · exact .inr (.inl ⟨(Except.ok.inj howner).symm, hstage⟩)
  · exact .inr (.inr ⟨(Except.ok.inj howner).symm, hdisc⟩)
  · unfold requireSameEvent at howner
    split_ifs at howner

/-- The record that a status is read from. -/
theorem find_of_record {status : Status} {intent : Json} (hrec : record requests requestId status = some intent) :
    ∃ row, requests.find requestId = some row ∧ row.status = status ∧ row.intent = intent := by
  unfold record at hrec
  split at hrec
  · rename_i row hfind
    split_ifs at hrec with hstat
    exact ⟨row, hfind, hstat, Option.some.inj hrec⟩
  · cases hrec

/-- A record equal to the staged one is let in under its id. -/
theorem pendingOwner_own {intent event : Json} (hpend : pendingEvent requests requestId = some intent)
    (hsame : intent.same event = true) (hop : operation ≠ .reconcile) :
    pendingOwner requests requestId (some event) operation = .ok { pending := some intent } := by
  obtain ⟨_, hfind, hstat, rfl⟩ := find_of_record hpend
  rw [pendingOwner_staged hfind hstat]
  simp [stagedOwner, checkReconcile, hop, hsame]

end Owners

/-! ### Calls -/

/-- A call of the ledger; a settlement is a sequence of calls, one for each row it settles. -/
inductive Call
  | stage (requestId : String) (event : Json) (now : ℕ)
  | claim (requestId : String) (event : Json) (now : ℕ) (verify : Requests → Json → Except Raised Unit)
  | append (requestId : String) (event : Json) (now : ℕ)
  | discard (requestId : String) (event : Option Json)
  | settle (requestId : String) (grace now : ℕ) (claimed : List EffectTable)

def Call.requestId : Call → String
  | .stage requestId _ _ | .claim requestId _ _ _ | .append requestId _ _ | .discard requestId _
  | .settle requestId _ _ _ => requestId

/-- The transaction of a call. -/
def Call.run (requests : Requests) : Call → Except Raised Requests
  | .stage requestId event now => Ledger.stage requests requestId event now
  | .claim requestId event now verify => (Ledger.claim requests requestId event now verify).map (·.1)
  | .append requestId event now => Ledger.append requests requestId event now
  | .discard requestId event => Ledger.discard requests requestId event
  | .settle requestId grace now claimed => .ok (settleRow requests requestId grace now claimed)

/-- The ledger after a call: a call that raised left it as it was. -/
def step (requests : Requests) (call : Call) : Requests :=
  match call.run requests with
  | .ok after => after
  | .error _ => requests

/-- The ledger after a sequence of calls. -/
def runCalls (requests : Requests) (calls : List Call) : Requests := calls.foldl step requests

/-- What a call may do to the row of its id. -/
inductive RowChange : Call → Option Row → Option Row → Prop
  | kept {call : Call} {row : Option Row} : RowChange call row row
  | staged {requestId : String} {event : Json} {now : ℕ} {row : Row} {call : Call}
      (hcall : call = .stage requestId event now ∨ ∃ verify, call = .claim requestId event now verify)
      (hintent : row.intent = event) (hstatus : row.status = .staged) : RowChange call none (some row)
  | replaced {requestId : String} {event : Json} {now : ℕ} {old row : Row} (hold : old.status = .staged)
      (hgeneric : isProtocolEvent old.intent = false ∧ isProtocolEvent event = false)
      (hintent : row.intent = event) (hstatus : row.status = .staged) :
      RowChange (.stage requestId event now) (some old) (some row)
  | committed {requestId : String} {event : Json} {now : ℕ} {before : Option Row} {row : Row}
      (hbefore : ∀ old ∈ before, old.status = .staged ∧ old.intent.same event = true)
      (hintent : row.intent = event) (hstatus : row.status = .committed) :
      RowChange (.append requestId event now) before (some row)
  | removed {requestId : String} {offered : Option Json} {old : Row} (hold : old.status = .staged)
      (hoffered : offered.any old.intent.same = true ∨ offered = none ∧ isProtocolEvent old.intent = false) :
      RowChange (.discard requestId offered) (some old) none
  | settled {requestId : String} {grace now : ℕ} {claimed : List EffectTable} {old row : Row}
      (hold : old.status = .staged) (hpresent : (staleVerdict requestId old.intent claimed).1 = true)
      (hintent : row.intent = old.intent) (hstatus : row.status = .committed) :
      RowChange (.settle requestId grace now claimed) (some old) (some row)
  | refused {requestId : String} {grace now : ℕ} {claimed : List EffectTable} {old row : Row}
      (hold : old.status = .staged) (hstatus : row.status = .discarded) :
      RowChange (.settle requestId grace now claimed) (some old) (some row)

/-! ### One call -/

/-- A call changed only the row of its id, and that row only in the ways of `RowChange`. -/
structure Changed (call : Call) (requests after : Requests) : Prop where
  others : ∀ other ≠ call.requestId, after.find other = requests.find other
  own : RowChange call (requests.find call.requestId) (after.find call.requestId)

theorem Changed.refl (call : Call) (requests : Requests) : Changed call requests requests :=
  ⟨fun _ _ ↦ rfl, .kept⟩

theorem Changed.of_find {call : Call} {requests after : Requests} {old new : Option Row}
    (hrest : ∀ other ≠ call.requestId, after.find other = requests.find other)
    (hold : requests.find call.requestId = old) (hnew : after.find call.requestId = new)
    (hchg : RowChange call old new) : Changed call requests after :=
  ⟨hrest, hold ▸ hnew ▸ hchg⟩

section Step

variable (requests : Requests) (requestId : String) (event : Json) (now : ℕ)

/-- A claimed row holds the record with its status; other rows are left alone. -/
theorem claimRow_spec (status : Status) :
    (∃ row, (claimRow requests requestId event status now).find requestId = some row ∧ row.intent = event ∧
        row.status = status) ∧
      ∀ other ≠ requestId, (claimRow requests requestId event status now).find other = requests.find other := by
  unfold claimRow
  dsimp only
  split
  all_goals
    refine ⟨⟨_, KeyedTable.find_put_self requests _, rfl, rfl⟩, fun _ hoth ↦ ?_⟩
    exact KeyedTable.find_put_of_ne requests _ hoth

/-- The record of a claimed row. -/
theorem record_claimRow (status : Status) :
    record (claimRow requests requestId event status now) requestId status = some event := by
  obtain ⟨⟨_, hfind, hint, hstat⟩, -⟩ := claimRow_spec requests requestId event now status
  rw [record_of_find hfind, if_pos hstat, hint]

/-- Who is let in to an id, by the row it has. -/
theorem pendingOwner_ok {owner : Owner} (howner : pendingOwner requests requestId offered operation = .ok owner) :
    owner = {} ∧ (requests.find requestId = none ∨ operation = .discard) ∨
      (∃ row, requests.find requestId = some row ∧ row.status = .committed ∧
        owner = { committed := some row.intent }) ∨
      ∃ row, requests.find requestId = some row ∧ row.status = .staged ∧
        stagedOwner row.intent offered operation = .ok owner := by
  cases hfind : requests.find requestId with
  | none =>
    rw [pendingOwner_absent hfind] at howner
    exact .inl ⟨(Except.ok.inj howner).symm, .inl rfl⟩
  | some row =>
    cases hstat : row.status with
    | committed =>
      rw [pendingOwner_committed hfind hstat] at howner
      split_ifs at howner
      exact .inr (.inl ⟨row, rfl, hstat, (Except.ok.inj howner).symm⟩)
    | staged =>
      rw [pendingOwner_staged hfind hstat] at howner
      exact .inr (.inr ⟨row, rfl, hstat, howner⟩)
    | discarded =>
      rw [pendingOwner_discarded hfind hstat] at howner
      split_ifs at howner with hdisc
      exact .inl ⟨(Except.ok.inj howner).symm, .inr hdisc⟩

/-- What an operation that offers a record finds: a committed record, a free id, a staged record equal to its own,
or a generic record that it may replace. -/
theorem offered_ok {owner : Owner} (hop : operation ≠ .reconcile ∧ operation ≠ .discard)
    (howner : pendingOwner requests requestId (some event) operation = .ok owner) :
    (∃ row, requests.find requestId = some row ∧ row.status = .committed ∧ owner = { committed := some row.intent }) ∨
      requests.find requestId = none ∧ owner = {} ∨
      (∃ row, requests.find requestId = some row ∧ row.status = .staged ∧ row.intent.same event = true ∧
        owner = { pending := some row.intent }) ∨
      ∃ row, requests.find requestId = some row ∧ row.status = .staged ∧ operation = .stage ∧
        isProtocolEvent row.intent = false ∧ isProtocolEvent event = false ∧
        owner = { pending := some row.intent, replace := true } := by
  rcases pendingOwner_ok requests requestId howner with
    ⟨rfl, hfree⟩ | ⟨row, hfind, hstat, rfl⟩ | ⟨row, hfind, hstat, hstaged⟩
  · exact .inr (.inl ⟨hfree.resolve_right hop.2, rfl⟩)
  · exact .inl ⟨row, hfind, hstat, rfl⟩
  · rcases stagedOwner_ok hop.1 hstaged with ⟨rfl, hsame⟩ | ⟨rfl, hstage, hgen⟩ | ⟨-, hdisc, -⟩
    · exact .inr (.inr (.inl ⟨row, hfind, hstat, hsame, rfl⟩))
    · simp only [staysGeneric, decide_eq_true_eq] at hgen
      exact .inr (.inr (.inr ⟨row, hfind, hstat, hstage, hgen.1, hgen.2, rfl⟩))
    · exact absurd hdisc hop.2

theorem stage_change (hstage : stage requests requestId event now = .ok after) :
    Changed (.stage requestId event now) requests after := by
  obtain ⟨⟨_, hheld, hint, hstat⟩, hrest⟩ := claimRow_spec requests requestId event now .staged
  obtain ⟨_, howner, hafter⟩ := bind_eq_ok hstage
  rcases offered_ok requests requestId event (by decide) howner with
    ⟨old, -, -, rfl⟩ | ⟨hfind, rfl⟩ | ⟨old, -, -, -, rfl⟩ | ⟨old, hfind, hold, -, hgen, hoffered, rfl⟩ <;>
    cases Except.ok.inj hafter
  · exact .refl _ _
  · exact .of_find hrest hfind hheld (.staged (.inl rfl) hint hstat)
  · exact .refl _ _
  · exact .of_find hrest hfind hheld (.replaced hold ⟨hgen, hoffered⟩ hint hstat)

theorem claim_change {verify : Requests → Json → Except Raised Unit} {answer : Requests × Option Json}
    (hclaim : claim requests requestId event now verify = .ok answer) :
    Changed (.claim requestId event now verify) requests answer.1 := by
  obtain ⟨⟨_, hheld, hint, hstat⟩, hrest⟩ := claimRow_spec requests requestId event now .staged
  obtain ⟨_, howner, hafter⟩ := bind_eq_ok hclaim
  rcases offered_ok requests requestId event (by decide) howner with
    ⟨old, -, -, rfl⟩ | ⟨hfind, rfl⟩ | ⟨old, -, -, -, rfl⟩ | ⟨old, -, -, hstage, -⟩
  · cases Except.ok.inj hafter
    exact .refl _ _
  · obtain ⟨-, -, hwrote⟩ := bind_eq_ok hafter
    cases Except.ok.inj hwrote
    exact .of_find hrest hfind hheld (.staged (.inr ⟨verify, rfl⟩) hint hstat)
  · cases Except.ok.inj hafter
    exact .refl _ _
  · exact nomatch hstage

theorem append_change (happ : append requests requestId event now = .ok after) :
    Changed (.append requestId event now) requests after := by
  obtain ⟨⟨_, hheld, hint, hstat⟩, hrest⟩ := claimRow_spec requests requestId event now .committed
  obtain ⟨_, howner, hafter⟩ := bind_eq_ok happ
  rcases offered_ok requests requestId event (by decide) howner with
    ⟨old, -, -, rfl⟩ | ⟨hfind, rfl⟩ | ⟨old, hfind, hold, hsame, rfl⟩ | ⟨old, -, -, hstage, -⟩
  · cases Except.ok.inj hafter
    exact .refl _ _
  · cases Except.ok.inj hafter
    exact .of_find hrest hfind hheld (.committed nofun hint hstat)
  · cases Except.ok.inj hafter
    refine .of_find hrest hfind hheld (.committed ?_ hint hstat)
    rintro _ ⟨⟩
    exact ⟨hold, hsame⟩
  · exact nomatch hstage

theorem discard_change (hdisc : discard requests requestId offered = .ok after) :
    Changed (.discard requestId offered) requests after := by
  obtain ⟨_, howner, hafter⟩ := bind_eq_ok hdisc
  rcases pendingOwner_ok requests requestId howner with
    ⟨rfl, -⟩ | ⟨row, -, -, rfl⟩ | ⟨row, hfind, hstat, hstaged⟩
  · cases Except.ok.inj hafter
    exact .refl _ _
  · cases Except.ok.inj hafter
    exact .refl _ _
  · have hgone : (requests.erase requestId).find requestId = none := requests.find_erase_self requestId
    have hrest : ∀ other ≠ requestId, (requests.erase requestId).find other = requests.find other :=
      fun _ hoth ↦ requests.find_erase_of_ne hoth
    rcases stagedOwner_ok (by decide) hstaged with ⟨rfl, hsame⟩ | ⟨-, hstage, -⟩ | ⟨rfl, -, hnone, hgen⟩
    · cases Except.ok.inj hafter
      exact .of_find hrest hfind hgone (.removed hstat (.inl hsame))
    · exact nomatch hstage
    · cases Except.ok.inj hafter
      exact .of_find hrest hfind hgone (.removed hstat (.inr ⟨hnone, hgen⟩))

/-- A settlement leaves the ledger alone, or puts one row that was staged. -/
theorem settleRow_cases (grace : ℕ) (claimed : List EffectTable) :
    settleRow requests requestId grace now claimed = requests ∨
      ∃ old row, requests.find requestId = some old ∧ old.status = .staged ∧ row.requestId = requestId ∧
        settleRow requests requestId grace now claimed = requests.put row ∧
        ((staleVerdict requestId old.intent claimed).1 = true ∧ row.intent = old.intent ∧ row.status = .committed ∨
          row.status = .discarded) := by
  unfold settleRow
  cases hfind : requests.find requestId with
  | none => exact .inl rfl
  | some old =>
    have hkey : old.requestId = requestId := KeyedTable.key_of_find hfind
    dsimp only
    split_ifs with hstale hpres
    · exact .inr ⟨old, { old with status := .committed, settledAt := some now }, rfl, hstale.1, hkey, rfl,
        .inl ⟨hpres, rfl, rfl⟩⟩
    · exact .inr ⟨old, refusedRow old (staleVerdict requestId old.intent claimed).2 now, rfl, hstale.1, hkey, rfl,
        .inr rfl⟩
    · exact .inl rfl

theorem settleRow_change (grace : ℕ) (claimed : List EffectTable) :
    Changed (.settle requestId grace now claimed) requests (settleRow requests requestId grace now claimed) := by
  rcases settleRow_cases requests requestId now grace claimed with
    hkept | ⟨old, row, hfind, hold, rfl, hput, hrow⟩
  · rw [hkept]
    exact .refl _ _
  · rw [hput]
    refine .of_find (fun _ hoth ↦ requests.find_put_of_ne row hoth) hfind (requests.find_put_self row) ?_
    rcases hrow with ⟨hpres, hint, hstat⟩ | hstat
    · exact .settled hold hpres hint hstat
    · exact .refused hold hstat

theorem run_change {call : Call} (hrun : call.run requests = .ok after) : Changed call requests after := by
  cases call with
  | stage requestId event now => exact stage_change requests requestId event now hrun
  | claim requestId event now verify =>
    cases hclaim : claim requests requestId event now verify with
    | error _ => simp [Call.run, hclaim, Except.map] at hrun
    | ok ans =>
      obtain rfl : ans.1 = after := by simpa [Call.run, hclaim, Except.map] using hrun
      exact claim_change requests requestId event now hclaim
  | append requestId event now => exact append_change requests requestId event now hrun
  | discard requestId _ => exact discard_change requests requestId hrun
  | settle requestId grace now cl =>
    cases Except.ok.inj hrun
    exact settleRow_change requests requestId now grace cl

theorem step_change (call : Call) : Changed call requests (step requests call) := by
  unfold step
  cases hrun : call.run requests with
  | error _ => exact .refl _ _
  | ok _ => exact run_change requests hrun

/-- The row of any id after a call is as it was, or the call was its own. -/
theorem step_row (call : Call) (id : String) :
    (step requests call).find id = requests.find id ∨
      call.requestId = id ∧ RowChange call (requests.find id) ((step requests call).find id) := by
  obtain ⟨hrest, hown⟩ := step_change requests call
  by_cases hid : id = call.requestId
  · exact .inr ⟨hid.symm, hid ▸ hown⟩
  · exact .inl (hrest id hid)

end Step

/-! ### The record of an id -/

section Record

variable {requests : Requests} {requestId : String} {now : ℕ}

/-- The committed record of an id is appended without effect. -/
theorem append_committed {committed : Json} (hcom : committedEvent requests requestId = some committed) (now : ℕ) :
    append requests requestId committed now = .ok requests := by
  obtain ⟨_, hfind, hstat, rfl⟩ := find_of_record hcom
  rw [append, pendingOwner_committed hfind hstat]
  simp [bind, Except.bind, pure, Except.pure, Json.same_self]

/-- A record that was appended is the committed one of its id, unless there was one. -/
theorem committedEvent_append {event : Json} (happ : append requests requestId event now = .ok after) :
    committedEvent after requestId = some ((committedEvent requests requestId).getD event) := by
  obtain ⟨_, howner, hafter⟩ := bind_eq_ok happ
  rcases offered_ok requests requestId event (by decide) howner with
    ⟨row, hfind, hstat, rfl⟩ | ⟨hfind, rfl⟩ | ⟨row, hfind, hstat, -, rfl⟩ | ⟨-, -, -, hstage, -⟩
  · cases Except.ok.inj hafter
    simp [committedEvent, record_of_find hfind, hstat]
  · cases Except.ok.inj hafter
    simp [committedEvent, record_of_absent hfind, record_claimRow]
  · cases Except.ok.inj hafter
    simp [committedEvent, record_of_find hfind, hstat, record_claimRow]
  · cases hstage

/-- A stage commits nothing. -/
theorem committedEvent_stage {event : Json} (hnone : committedEvent requests requestId = none)
    (hstage : stage requests requestId event now = .ok after) : committedEvent after requestId = none := by
  have hchg := (stage_change requests requestId event now hstage).own
  rw [Call.requestId] at hchg
  rw [committedEvent, record] at hnone ⊢
  generalize requests.find requestId = before at hchg hnone
  generalize after.find requestId = found at hchg ⊢
  cases hchg with
  | kept => exact hnone
  | staged _ _ hstat => simp [hstat]
  | replaced _ _ _ hstat => simp [hstat]

theorem stage_absent (hfind : requests.find requestId = none) (event : Json) :
    stage requests requestId event now = .ok (claimRow requests requestId event .staged now) := by
  rw [stage, pendingOwner_absent hfind]
  rfl

/-- A generic record takes the place of a staged generic one, or finds an equal one there. -/
theorem stage_generic {pending event : Json} (hpend : pendingEvent requests requestId = some pending)
    (hgen : isProtocolEvent pending = false) (hoffered : isProtocolEvent event = false) :
    ∃ after held, stage requests requestId event now = .ok after ∧ pendingEvent after requestId = some held ∧
      held.same event = true := by
  by_cases hsame : pending.same event = true
  · refine ⟨requests, pending, ?_, hpend, hsame⟩
    rw [stage, pendingOwner_own hpend hsame (by decide)]
    rfl
  · obtain ⟨_, hfind, hstat, rfl⟩ := find_of_record hpend
    refine ⟨claimRow requests requestId event .staged now, event, ?_, record_claimRow _ _ _ _ _, Json.same_self event⟩
    rw [stage, pendingOwner_staged hfind hstat]
    simp [stagedOwner, checkReconcile, hsame, staysGeneric, hgen, hoffered, bind, Except.bind, pure, Except.pure]

/-- A record is committed over a staged one that is equal to it. -/
theorem append_pending {pending event : Json} (hpend : pendingEvent requests requestId = some pending)
    (hsame : pending.same event = true) :
    append requests requestId event now = .ok (claimRow requests requestId event .committed now) := by
  rw [append, pendingOwner_own hpend hsame (by decide)]
  rfl

end Record

/-! ### Sequences of calls -/

section Runs

variable (requests : Requests) {id : String} {row : Row}

/-- A row that is no longer staged is final. -/
theorem step_final (call : Call) (hfind : requests.find id = some row) (hfinal : row.status ≠ .staged) :
    (step requests call).find id = some row := by
  rcases step_row requests call id with hkept | ⟨-, hchg⟩
  · exact hkept.trans hfind
  · rw [hfind] at hchg
    generalize (step requests call).find id = after at hchg
    cases hchg with
    | kept => rfl
    | replaced hold => exact absurd hold hfinal
    | committed hbefore => exact absurd (hbefore row rfl).1 hfinal
    | removed hold => exact absurd hold hfinal
    | settled hold => exact absurd hold hfinal
    | refused hold => exact absurd hold hfinal

theorem runCalls_final (calls : List Call) (hfind : requests.find id = some row) (hfinal : row.status ≠ .staged) :
    (runCalls requests calls).find id = some row := by
  induction calls generalizing requests with
  | nil => exact hfind
  | cons call _ ih => exact ih (step requests call) (step_final requests call hfind hfinal)

/-- Nothing is written under an id that settlement refused. -/
theorem refused_raises (hfind : requests.find id = some row) (hstat : row.status = .discarded) (event : Json)
    (now : ℕ) (verify : Requests → Json → Except Raised Unit) :
    stage requests id event now = .error (refusedClaim requests id) ∧
      claim requests id event now verify = .error (refusedClaim requests id) ∧
      append requests id event now = .error (refusedClaim requests id) := by
  simp only [stage, claim, append, pendingOwner_discarded hfind hstat]
  exact ⟨rfl, rfl, rfl⟩

/-- What an append or a discard offers for a staged record that is equal to it is that record. -/
def Call.Exact (requests : Requests) : Call → Prop
  | .append requestId event _ | .discard requestId (some event) =>
    ∀ row, requests.find requestId = some row → row.status = .staged → row.intent.same event = true →
      row.intent = event
  | _ => True

/-- What a call does to a protocol record. -/
theorem step_protocol {call : Call} (hexact : call.Exact requests) (hfind : requests.find id = some row)
    (hprot : isProtocolEvent row.intent = true) :
    (step requests call).find id = some row ∨
      (∃ after, (step requests call).find id = some after ∧ after.intent = row.intent ∧ after.status = .committed) ∨
      (step requests call).find id = none ∧ call = .discard id (some row.intent) ∨
      ∃ after grace now claimed, (step requests call).find id = some after ∧ after.status = .discarded ∧
        call = .settle id grace now claimed := by
  rcases step_row requests call id with hkept | ⟨hid, hchg⟩
  · exact .inl (hkept.trans hfind)
  · subst hid
    rw [hfind] at hchg
    generalize (step requests call).find call.requestId = after at hchg
    cases hchg with
    | kept => exact .inl rfl
    | replaced _ hgen => exact nomatch hprot.symm.trans hgen.1
    | committed hbefore hint hstat =>
      obtain ⟨hold, hsame⟩ := hbefore row rfl
      exact .inr (.inl ⟨_, rfl, hint.trans (hexact row hfind hold hsame).symm, hstat⟩)
    | @removed _ offered _ hold hoffered =>
      rcases hoffered with hsame | ⟨-, hgen⟩
      · cases offered with
        | none => cases hsame
        | some event => exact .inr (.inr (.inl ⟨rfl, by rw [hexact row hfind hold hsame]; rfl⟩))
      · exact nomatch hprot.symm.trans hgen
    | settled _ _ hint hstat => exact .inr (.inl ⟨_, rfl, hint, hstat⟩)
    | refused _ hstat => exact .inr (.inr (.inr ⟨_, _, _, _, rfl, hstat, rfl⟩))

/-- What a call leaves of a generic record is generic, unless settlement refused it. -/
theorem step_generic {call : Call} (hexact : call.Exact requests) (hfind : requests.find id = some row)
    (hgen : isProtocolEvent row.intent = false) {after : Row}
    (hafter : (step requests call).find id = some after) (hlive : after.status ≠ .discarded) :
    isProtocolEvent after.intent = false := by
  rcases step_row requests call id with hkept | ⟨rfl, hchg⟩
  · cases hafter.symm.trans (hkept.trans hfind)
    exact hgen
  · rw [hfind, hafter] at hchg
    cases hchg with
    | kept => exact hgen
    | replaced _ hboth hint => exact hint ▸ hboth.2
    | committed hbefore hint =>
      obtain ⟨hold, hsame⟩ := hbefore row rfl
      exact hint ▸ hexact row hfind hold hsame ▸ hgen
    | settled _ _ hint => exact hint ▸ hgen
    | refused _ hstat => exact absurd hstat hlive

/-- The call commits the record: an append of it that was accepted, or a settlement that found the effect of
the staged record present. -/
def CommittedBy (requests : Requests) (id : String) (record : Json) : Call → Prop
  | .append requestId event now => requestId = id ∧ event = record ∧ (append requests id record now).isOk = true
  | .settle requestId _ _ claimed => requestId = id ∧ pendingEvent requests id = some record ∧
      (staleVerdict id record claimed).1 = true
  | _ => False

/-- A call after which a record is committed committed it, or found it committed. -/
theorem step_committedBy (call : Call) (hafter : (step requests call).find id = some row)
    (hstat : row.status = .committed) :
    requests.find id = some row ∨ CommittedBy requests id row.intent call := by
  cases hrun : call.run requests with
  | error _ =>
    rw [step, hrun] at hafter
    exact .inl hafter
  | ok _ =>
    rcases step_row requests call id with hkept | ⟨rfl, hchg⟩
    · exact .inl (hkept.symm.trans hafter)
    · rw [hafter] at hchg
      generalize hbefore : requests.find call.requestId = before at hchg
      cases hchg with
      | kept => exact .inl rfl
      | staged _ _ hstage => exact nomatch hstage.symm.trans hstat
      | replaced _ _ _ hstage => exact nomatch hstage.symm.trans hstat
      | committed _ hint =>
        subst hint
        exact .inr ⟨rfl, rfl, congrArg Except.isOk hrun⟩
      | settled hold hpres hint =>
        refine .inr ⟨rfl, ?_, hint ▸ hpres⟩
        rw [pendingEvent, record_of_find hbefore, if_pos hold, hint]
      | refused _ hdisc => exact nomatch hdisc.symm.trans hstat

/-- Every committed record was committed by a call of the sequence, or before it. -/
theorem runCalls_committedBy (calls : List Call) (hafter : (runCalls requests calls).find id = some row)
    (hstat : row.status = .committed) :
    requests.find id = some row ∨ ∃ earlier call later, calls = earlier ++ call :: later ∧
      CommittedBy (runCalls requests earlier) id row.intent call := by
  induction calls generalizing requests with
  | nil => exact .inl hafter
  | cons call rest ih =>
    rcases ih (step requests call) hafter with hearl | ⟨earlier, o, later, rfl, hcom⟩
    · rcases step_committedBy requests call hearl hstat with hbefore | hcom
      · exact .inl hbefore
      · exact .inr ⟨[], call, rest, rfl, hcom⟩
    · exact .inr ⟨call :: earlier, o, later, rfl, hcom⟩

/-- A settlement is a sequence of calls. -/
theorem settleStaleStaged_eq (grace now : ℕ) (claimed : String → List EffectTable) :
    settleStaleStaged requests grace now claimed =
      runCalls requests ((staleRequests requests grace now).map fun requestId ↦
        .settle requestId grace now (claimed requestId)) := by
  simp only [settleStaleStaged, runCalls, List.foldl_map]
  rfl

theorem settle_row (requestId : String) (grace now : ℕ) (claimed : List EffectTable) (id : String) :
    (step requests (.settle requestId grace now claimed)).find id = requests.find id ∨
      ∃ old row, requests.find id = some old ∧ old.status = .staged ∧
        (step requests (.settle requestId grace now claimed)).find id = some row := by
  rcases step_row requests (.settle requestId grace now claimed) id with hkept | ⟨-, hchg⟩
  · exact .inl hkept
  · generalize requests.find id = before at hchg
    generalize (step requests (.settle requestId grace now claimed)).find id = after at hchg
    cases hchg with
    | kept => exact .inl rfl
    | staged hcall => rcases hcall with hcall | ⟨_, hcall⟩ <;> exact nomatch hcall
    | settled hold => exact .inr ⟨_, _, rfl, hold, rfl⟩
    | refused hold => exact .inr ⟨_, _, rfl, hold, rfl⟩

/-- Settlement creates no row, and changes only rows that were staged. -/
theorem settled_rows (requestIds : List String) (grace now : ℕ) (claimed : String → List EffectTable) (id : String) :
    let after := runCalls requests (requestIds.map fun requestId ↦ .settle requestId grace now (claimed requestId))
    after.find id = requests.find id ∨
      ∃ old row, requests.find id = some old ∧ old.status = .staged ∧ after.find id = some row := by
  induction requestIds generalizing requests with
  | nil => exact .inl rfl
  | cons requestId _ ih =>
    rcases ih (step requests (.settle requestId grace now (claimed requestId))) with
      hlater | ⟨old, row, hold, hstage, hafter⟩
    · rcases settle_row requests requestId grace now (claimed requestId) id with
        hkept | ⟨old, row, hold, hstage, hrow⟩
      · exact .inl (hlater.trans hkept)
      · exact .inr ⟨old, row, hold, hstage, hlater.trans hrow⟩
    · rcases settle_row requests requestId grace now (claimed requestId) id with
        hkept | ⟨first, -, hfst, hstagedFirst, -⟩
      · exact .inr ⟨old, row, hkept.symm.trans hold, hstage, hafter⟩
      · exact .inr ⟨first, row, hfst, hstagedFirst, hafter⟩

/-- Whatever is called on the ledger, its history is kept: committed and refused rows are final, nothing is
written under a refused id, and every commit was asked for or proven. A call that offers for a staged record only
that record, and none that is merely equal to it, takes a protocol record from its row only as itself, and puts
only a generic one for a generic one. -/
theorem history_neverRewritten (calls later : List Call) {call : Call}
    (hexact : call.Exact (runCalls requests calls)) :
    let before := runCalls requests calls
    (∀ id row, before.find id = some row → row.status = .committed → (runCalls before later).find id = some row) ∧
      (∀ id row, before.find id = some row → row.status = .discarded →
        (runCalls before later).find id = some row ∧ ∀ event now verify,
          stage (runCalls before later) id event now = .error (refusedClaim (runCalls before later) id) ∧
          claim (runCalls before later) id event now verify = .error (refusedClaim (runCalls before later) id) ∧
          append (runCalls before later) id event now = .error (refusedClaim (runCalls before later) id)) ∧
      (∀ id row, before.find id = some row → row.status = .staged → isProtocolEvent row.intent = true →
        (step before call).find id = some row ∨
          (∃ after, (step before call).find id = some after ∧ after.intent = row.intent ∧ after.status = .committed) ∨
          (step before call).find id = none ∧ call = .discard id (some row.intent) ∨
          ∃ after grace now claimed, (step before call).find id = some after ∧ after.status = .discarded ∧
            call = .settle id grace now claimed) ∧
      (∀ id row after, before.find id = some row → row.status = .staged → isProtocolEvent row.intent = false →
        (step before call).find id = some after → after.status ≠ .discarded →
        isProtocolEvent after.intent = false) ∧
      (∀ id row, before.find id = some row → row.status = .committed →
        requests.find id = some row ∨ ∃ earlier commit rest, calls = earlier ++ commit :: rest ∧
          CommittedBy (runCalls requests earlier) id row.intent commit) ∧
      ∀ grace now claimed id,
        (settleStaleStaged before grace now claimed).find id = before.find id ∨
          ∃ old row, before.find id = some old ∧ old.status = .staged ∧
            (settleStaleStaged before grace now claimed).find id = some row := by
  intro before
  refine ⟨?_, ?_, ?_, ?_, ?_, ?_⟩
  · intro id row hfind hstat
    exact runCalls_final before later hfind (by rw [hstat]; decide)
  · intro id row hfind hstat
    have hlater := runCalls_final before later hfind (by rw [hstat]; decide)
    exact ⟨hlater, refused_raises (runCalls before later) hlater hstat⟩
  · exact fun id row hfind _ hprot ↦ step_protocol before hexact hfind hprot
  · exact fun id row _ hfind _ hgen hafter hlive ↦ step_generic before hexact hfind hgen hafter hlive
  · exact fun id row hfind hstat ↦ runCalls_committedBy requests calls hfind hstat
  · intro grace now claimed id
    rw [settleStaleStaged_eq]
    exact settled_rows before (staleRequests before grace now) grace now claimed id

end Runs

/-! ### A record that is merely equal -/

/-- A protocol record with a member. -/
def protocolRecord (member : Json) : Json :=
  .obj [("n", member), ("record_type", .str protocolEventRecordType)]

theorem history_neverRewritten_witness :
    let staged := runCalls (KeyedTable.empty Row.requestId) [.stage "r1" (protocolRecord (.num "1")) 5]
    (Call.append "r1" (protocolRecord (.num "1")) 6).Exact staged ∧
      ((step staged (.append "r1" (protocolRecord (.num "1")) 6)).find "r1").map (·.status) = some .committed ∧
      ∀ row, staged.find "r1" = some row → ∃ after,
        (step staged (.append "r1" (protocolRecord (.num "1")) 6)).find "r1" = some after ∧
          after.intent = row.intent := by
  intro staged
  have hfind : staged.find "r1" = some ⟨"r1", protocolRecord (.num "1"), .staged, none, 5, none⟩ := by
    decide +kernel
  have hexact : (Call.append "r1" (protocolRecord (.num "1")) 6).Exact staged := by
    rintro row hrow - -
    cases hfind.symm.trans hrow
    rfl
  have hprotocol := (history_neverRewritten (KeyedTable.empty Row.requestId)
    [.stage "r1" (protocolRecord (.num "1")) 5] [] hexact).2.2.1 "r1" _ hfind rfl (by decide +kernel)
  refine ⟨hexact, by decide +kernel, fun row hrow ↦ ?_⟩
  cases hfind.symm.trans hrow
  rcases hprotocol with hkept | ⟨after, hafter, hint, -⟩ | ⟨-, hcall⟩ | ⟨_, _, _, _, -, -, hcall⟩
  · exact ⟨_, hkept, rfl⟩
  · exact ⟨after, hafter, hint⟩
  · cases hcall
  · cases hcall

/-- A staged protocol record with `1` is committed as a record with `true`. -/
theorem history_equalRecord :
    let staged := runCalls (KeyedTable.empty Row.requestId) [.stage "r1" (protocolRecord (.num "1")) 5]
    let after := step staged (.append "r1" (protocolRecord (.bool true)) 6)
    (staged.find "r1").map (fun row ↦ (row.status, row.intent)) = some (.staged, protocolRecord (.num "1")) ∧
      isProtocolEvent (protocolRecord (.num "1")) = true ∧
      (after.find "r1").map (fun row ↦ (row.status, row.intent)) = some (.committed, protocolRecord (.bool true)) ∧
      protocolRecord (.bool true) ≠ protocolRecord (.num "1") := by
  exact ⟨by decide +kernel, by decide +kernel, by decide +kernel, by decide +kernel⟩

end Ummanu.Ledger
