import Ummanu.Ledger.RequestsLaw
import Ummanu.Library.DurableTriple

/-!
# Board mutations over the ledger

`MutationEventTransaction.execute` stages the typed record of a mutation, issues the backend effect, confirms
it, lets its caller finish, and commits the record. It may be called again under its request id after any
failure and after a crash between any two steps. A staged record is the evidence that an effect may have
happened: a later call confirms instead of issuing the effect again.

A call is a program over the ledger. The durable state also holds the trail of what happened, which no
program reads: that a call began, staged, invoked its effect, that the effect returned or raised, that the
record was discarded, that `confirm` and `finish` returned, and that the record was committed. The trail
follows a small automaton (`Phase.next`), and its state says what the ledger holds under the request id
(`Held.meets`); everything the protocol promises is read off that automaton.

Scope. The effect, `confirm`, `finish` and the commit may raise, as the call's answers say; an effect that
raises applied nothing. A typed event and its record determine each other. No other operation uses the
request id.
-/

set_option autoImplicit false

namespace Ummanu.Ledger

open Library

/-! ### The program -/

/-- An event of the mutation. -/
inductive Mark
  | called
  | staged
  | invoked
  | returned
  | raised
  | discarded
  | confirmed
  | finished
  | committed
  deriving DecidableEq

/-- The ledger and the trail of the mutation. -/
structure MutationWorld where
  requests : Requests
  trail : List Mark

/-- What `execute` raises. -/
inductive MutationFault
  /-- `BoardEventPending`. -/
  | pending (message : String)
  | ledger (raised : Raised)
  | other (detail : String)

/-- A `MutationEventTransaction`: its request id, and the record of its event. -/
structure Mutation where
  requestId : String
  record : Json
  protocol : isProtocolEvent record = true

/-- What a call of `execute` gets: for each step, what it raises, and the times of its writes. -/
structure Attempt where
  effect : Option String := none
  confirm : Option String := none
  finish : Option String := none
  /-- An error of the commit, and whether it is an `OSError`. -/
  commit : Option (String × Bool) := none
  stagedAt : ℕ := 0
  committedAt : ℕ := 0

abbrev MutationProgram := Durable MutationWorld Unit MutationFault

def mark (event : Mark) : MutationProgram Unit :=
  Durable.commit fun world ↦ { world with trail := world.trail ++ [event] }

/-- A write of the ledger. -/
def write (requests : Requests) (event : Mark) : MutationProgram Unit :=
  Durable.commit fun world ↦ { requests, trail := world.trail ++ [event] }

/-- What the ledger raised. -/
def lift {α : Type} : Except Raised α → MutationProgram α
  | .ok a => pure a
  | .error raised => throw (.ledger raised)

def typed (record : Json) : Except Raised Json :=
  if isProtocolEvent record then .ok record
  else .error (.value "request id belongs to a released generic audit record")

def requireUnclaimedEventId (requests : Requests) (record : Json) : Except Raised Unit :=
  let eventId := (record.get "event_id").textOr
  match eventIdOwner requests eventId with
  | some owner =>
    if record.get "request_id" ≠ .str owner then
      .error (.value ("event id " ++ eventId ++ " already belongs to another request"))
    else .ok ()
  | none => .ok ()

/-- `_claim`: the typed boundary speaks `ValueError`. -/
def claimTyped (requests : Requests) (requestId : String) (record : Json) (now : ℕ) :
    Except Raised (Requests × Option Json) :=
  match claim requests requestId record now requireUnclaimedEventId with
  | .error (.task "validation" message _) => .error (.value message)
  | other => other

/-- `_require_same_event`, of a typed record. -/
def requireSame (existing offered : Json) : Except Raised Unit := do
  let existing ← typed existing
  if existing ≠ offered then .error (.value "request id belongs to another operation or payload") else .ok ()

section Execute

variable (mutation : Mutation) (attempt : Attempt)

/-- `BoardEventCanon.stage`. -/
def stageEvent : MutationProgram Unit := do
  let world ← Durable.stored
  let claimed ← lift (claimTyped world.requests mutation.requestId mutation.record attempt.stagedAt)
  match claimed.2 with
  | none => write claimed.1 .staged
  | some existing => do
    let _ ← lift (typed existing)
    pure ()

/-- The error of a commit that fails. -/
def commitFault : Option MutationFault :=
  attempt.commit.map fun failure ↦
    if failure.2 then .pending "backend write committed; board protocol event repair is required"
    else .other failure.1

/-- `_commit_or_raise`: the record is staged if it is not, and committed if it is not. -/
def commitOrRaise : MutationProgram Unit := do
  stageEvent mutation attempt
  match commitFault attempt with
  | some fault => throw fault
  | none =>
    let world ← Durable.stored
    let after ← lift (append world.requests mutation.requestId mutation.record attempt.committedAt)
    -- a record that is committed already is not written again
    if (committedEvent world.requests mutation.requestId).isSome then pure () else write after .committed

def confirmOrRaise (message : String) : MutationProgram Unit :=
  match attempt.confirm with
  | some _ => throw (.pending message)
  | none => mark .confirmed

def finishOrRaise : MutationProgram Unit :=
  match attempt.finish with
  | some _ => throw (.pending
      "backend write committed; board cleanup and its protocol event repair are required")
  | none => mark .finished

/-- What follows an effect: it is confirmed, finished and committed. -/
def settle (message : String) : MutationProgram Unit := do
  confirmOrRaise attempt message
  finishOrRaise attempt
  commitOrRaise mutation attempt

/-- The effect of a first call. An effect that raised takes its staged record with it. -/
def invoke : MutationProgram Unit := do
  mark .invoked
  match attempt.effect with
  | some detail =>
    mark .raised
    let world ← Durable.stored
    let after ← lift (discard world.requests mutation.requestId (some mutation.record))
    write after .discarded
    throw (.other detail)
  | none => mark .returned

/-- A call that finds its record committed: `confirm` is its answer. -/
def replay (committed : Json) : MutationProgram Unit := do
  lift (requireSame committed mutation.record)
  commitOrRaise mutation attempt
  match attempt.confirm with
  | some detail => throw (.other detail)
  | none => pure ()

/-- A call that finds its record staged: the effect is confirmed, never issued again. -/
def resume (pending : Json) : MutationProgram Unit := do
  lift (requireSame pending mutation.record)
  settle mutation attempt "pending backend effect is unconfirmed; protocol event repair is required"

/-- A call that finds its id free. -/
def begin : MutationProgram Unit := do
  stageEvent mutation attempt
  invoke mutation attempt
  settle mutation attempt "backend effect completed but is unconfirmed; protocol event repair is required"

/-- `execute`, once the ledger is read. -/
def dispatch (requests : Requests) : MutationProgram Unit :=
  match committedEvent requests mutation.requestId with
  | some committed => replay mutation attempt committed
  | none =>
    match event requests mutation.requestId with
    | some pending => resume mutation attempt pending
    | none => begin mutation attempt

def execute : MutationProgram Unit := do
  mark .called
  let world ← Durable.stored
  dispatch mutation attempt world.requests

end Execute

/-! ### The automaton of the trail -/

/-- What is held under the request id, and what its effect did. -/
inductive Held
  | free
  | fresh
  | tried
  | returned
  | committed
  deriving DecidableEq

/-- The state of the automaton: what is held, and the last mark. -/
structure Phase where
  held : Held
  last : Mark

/-- The id holds a staged record. -/
def Held.pending (held : Held) : Bool := held = .fresh ∨ held = .tried ∨ held = .returned

section

variable (phase : Phase) (event : Mark) (trail : List Mark)

/-- The automaton. A call may begin after any mark, since the one before it may have crashed. -/
def Phase.next : Mark → Option Phase
  | .called => some ⟨phase.held, .called⟩
  | .staged => if phase.last = .called ∧ phase.held = .free then some ⟨.fresh, .staged⟩ else none
  | .invoked => if phase.last = .staged ∧ phase.held = .fresh then some ⟨.tried, .invoked⟩ else none
  | .returned => if phase.last = .invoked ∧ phase.held = .tried then some ⟨.returned, .returned⟩ else none
  | .raised => if phase.last = .invoked ∧ phase.held = .tried then some ⟨.tried, .raised⟩ else none
  | .discarded => if phase.last = .raised ∧ phase.held = .tried then some ⟨.free, .discarded⟩ else none
  | .confirmed =>
    if (phase.last = .returned ∨ phase.last = .called) ∧ phase.held.pending = true then
      some ⟨phase.held, .confirmed⟩
    else none
  | .finished =>
    if phase.last = .confirmed ∧ phase.held.pending = true then some ⟨phase.held, .finished⟩ else none
  | .committed =>
    if phase.last = .finished ∧ phase.held.pending = true then some ⟨.committed, .committed⟩ else none

/-- The automaton follows the trail from one state to another. -/
def Phase.follows : Option Phase := trail.foldlM Phase.next phase

/-- Where the automaton starts. -/
def Phase.start : Phase := ⟨.free, .discarded⟩

theorem Phase.follows_cons :
    phase.follows (event :: trail) = (phase.next event).bind (·.follows trail) := rfl

theorem Phase.follows_append (first second : List Mark) :
    phase.follows (first ++ second) = (phase.follows first).bind (·.follows second) :=
  List.foldlM_append ..

theorem Phase.follows_concat {phase middle : Phase} {trail : List Mark} (hmid : phase.follows trail = some middle)
    (event : Mark) : phase.follows (trail ++ [event]) = middle.next event := by
  rw [follows_append, hmid, Option.bind_some, follows_cons]
  cases middle.next event <;> rfl

/-- Splitting a trail splits the automaton's way. -/
theorem Phase.follows_split {phase last : Phase} {first second : List Mark} {event : Mark}
    (hfol : phase.follows (first ++ event :: second) = some last) :
    ∃ before after, phase.follows first = some before ∧ before.next event = some after ∧
      after.follows second = some last := by
  rw [follows_append, Option.bind_eq_some_iff] at hfol
  obtain ⟨before, hbefore, hrest⟩ := hfol
  rw [follows_cons, Option.bind_eq_some_iff] at hrest
  obtain ⟨after, hafter, hlast⟩ := hrest
  exact ⟨before, after, hbefore, hafter, hlast⟩

/-- The effect was invoked since the last discard, and is not about to be. -/
def Phase.spent : Prop :=
  phase.held = .tried ∨ phase.held = .returned ∨ phase.held = .committed

/-- The effect returned: nothing can lead to a discard any more. -/
def Phase.kept : Prop :=
  (phase.held = .returned ∨ phase.held = .committed) ∧
    phase.last ≠ .staged ∧ phase.last ≠ .invoked ∧ phase.last ≠ .raised

end

section Phases

variable {phase last after : Phase} {trail earlier later : List Mark} {event : Mark}

theorem Phase.spent_next (hspent : phase.spent) (hnext : phase.next event = some after)
    (hevent : event ≠ .discarded) : after.spent := by
  cases event <;> grind [Phase.next, Phase.spent]

theorem Phase.kept_next (hkept : phase.kept) (hnext : phase.next event = some after) : after.kept := by
  cases event <;> grind [Phase.next, Phase.kept, Held.pending]

theorem Phase.spent_follows (hspent : phase.spent) (hfol : phase.follows trail = some last)
    (hdisc : .discarded ∉ trail) : last.spent := by
  induction trail generalizing phase with
  | nil =>
    cases hfol
    exact hspent
  | cons _ _ ih =>
    rw [follows_cons, Option.bind_eq_some_iff] at hfol
    obtain ⟨_, hnext, hrest⟩ := hfol
    simp only [List.mem_cons, not_or] at hdisc
    exact ih (spent_next hspent hnext (Ne.symm hdisc.1)) hrest hdisc.2

theorem Phase.kept_follows (hkept : phase.kept) (hfol : phase.follows trail = some last) : last.kept := by
  induction trail generalizing phase with
  | nil =>
    cases hfol
    exact hkept
  | cons _ _ ih =>
    rw [follows_cons, Option.bind_eq_some_iff] at hfol
    obtain ⟨_, hnext, hrest⟩ := hfol
    exact ih (kept_next hkept hnext) hrest

/-- Between two invocations of the effect the record was discarded. -/
theorem Phase.discarded_between {middle : List Mark}
    (hfol : phase.follows (earlier ++ .invoked :: middle ++ .invoked :: later) = some last) :
    .discarded ∈ middle := by
  by_contra hdisc
  obtain ⟨_, _, hfst, _, -⟩ := follows_split hfol
  obtain ⟨_, after, -, _, hmid⟩ := follows_split hfst
  have hspent : after.spent := by grind [Phase.next, Phase.spent]
  have hagain := spent_follows hspent hmid hdisc
  grind [Phase.next, Phase.spent]

/-- Once the effect returned, the record is staged or committed. -/
theorem Phase.kept_of_returned (hret : .returned ∈ trail) (hfol : phase.follows trail = some last) : last.kept := by
  obtain ⟨_, _, rfl⟩ := List.append_of_mem hret
  obtain ⟨_, after, -, _, hlater⟩ := follows_split hfol
  have hkept : after.kept := by grind [Phase.next, Phase.kept]
  exact kept_follows hkept hlater

theorem Phase.next_last (hnext : phase.next event = some after) : after.last = event := by
  cases event <;> grind [Phase.next]

/-- The automaton's last mark is the trail's. -/
theorem Phase.follows_last (hfol : start.follows trail = some last) (hlast : last.last ≠ .discarded) :
    ∃ front before, trail = front ++ [last.last] ∧ start.follows front = some before ∧
      before.next last.last = some last := by
  rcases List.eq_nil_or_concat trail with rfl | ⟨front, _, rfl⟩
  · cases hfol
    exact absurd rfl hlast
  · rw [List.concat_eq_append] at hfol
    obtain ⟨before, _, hbefore, hnext, hafter⟩ := follows_split hfol
    cases hafter
    have hevent := next_last hnext
    exact ⟨front, before, by rw [hevent, List.concat_eq_append], hbefore, hevent ▸ hnext⟩

/-- Behind an effect that raised, a call only discards the record. -/
theorem Phase.free_of_raised (hfol : phase.follows (earlier ++ .raised :: later) = some last)
    (hcall : .called ∉ later) (hlast : last.last ≠ .raised) : last.held = .free := by
  obtain ⟨_, after, -, _, hlater⟩ := follows_split hfol
  obtain rfl : after = ⟨.tried, .raised⟩ := by grind [Phase.next]
  cases later with
  | nil =>
    cases hlater
    exact absurd rfl hlast
  | cons event rest =>
    rw [follows_cons, Option.bind_eq_some_iff] at hlater
    obtain ⟨after, _, hrest⟩ := hlater
    obtain rfl : after = ⟨.free, .discarded⟩ := by cases event <;> simp_all [Phase.next]
    cases rest with
    | nil =>
      cases hrest
      rfl
    | cons event rest =>
      rw [follows_cons, Option.bind_eq_some_iff] at hrest
      cases event <;> simp_all [Phase.next]

/-- A commit stands right behind `confirm` and `finish`, and these behind the effect's return or the begin of
the call. -/
theorem Phase.committed_behind (hfol : start.follows (earlier ++ .committed :: later) = some last) :
    ∃ front, earlier = front ++ [.returned, .confirmed, .finished] ∨
      earlier = front ++ [.called, .confirmed, .finished] := by
  obtain ⟨third, _, hearl, _, -⟩ := follows_split hfol
  have hthird : third.last = .finished := by grind [Phase.next]
  obtain ⟨front, b, rfl, hfront, _⟩ := follows_last hearl (by simp [hthird])
  have hsnd : b.last = .confirmed := by grind [Phase.next]
  obtain ⟨front, a, rfl, hfront, _⟩ := follows_last hfront (by simp [hsnd])
  have hfst : a.last = .returned ∨ a.last = .called := by grind [Phase.next]
  obtain ⟨front, _, rfl, -, -⟩ := follows_last hfront (by rcases hfst with hlast | hlast <;> simp [hlast])
  refine ⟨front, ?_⟩
  rw [hthird, hsnd]
  rcases hfst with hlast | hlast
  · exact .inl (by simp [hlast])
  · exact .inr (by simp [hlast])

end Phases

/-! ### What the ledger holds -/

/-- What the ledger holds under the request id. -/
def Held.meets (mutation : Mutation) (requests : Requests) : Held → Prop
  | .free => requests.find mutation.requestId = none
  | .fresh | .tried | .returned => pendingEvent requests mutation.requestId = some mutation.record
  | .committed => committedEvent requests mutation.requestId = some mutation.record

theorem Held.meets_pending {mutation : Mutation} {requests : Requests} {held : Held} (hpend : held.pending = true) :
    held.meets mutation requests ↔ pendingEvent requests mutation.requestId = some mutation.record := by
  cases held <;> simp_all [Held.pending, Held.meets]

section Ledger

variable {mutation : Mutation} {requests : Requests}

/-- What is held decides what a call finds under its id. -/
theorem Held.meets_event {held : Held} (hmeets : held.meets mutation requests) :
    committedEvent requests mutation.requestId = (if held = .committed then some mutation.record else none) ∧
      event requests mutation.requestId = if held = .free then none else some mutation.record := by
  have hpend (hpend : pendingEvent requests mutation.requestId = some mutation.record) :
      committedEvent requests mutation.requestId = none ∧
        event requests mutation.requestId = some mutation.record := by
    obtain ⟨_, hfind, hstat, -⟩ := find_of_record hpend
    have hnone : committedEvent requests mutation.requestId = none := by
      rw [committedEvent, record_of_find hfind, hstat]
      rfl
    exact ⟨hnone, by rw [event, hnone, hpend]; rfl⟩
  cases held with
  | free =>
    have hnone : committedEvent requests mutation.requestId = none := record_of_absent hmeets _
    refine ⟨hnone, ?_⟩
    rw [event, hnone, pendingEvent, record_of_absent hmeets]
    rfl
  | fresh | tried | returned => exact hpend hmeets
  | committed => exact ⟨hmeets, by rw [event, show committedEvent _ _ = _ from hmeets]; rfl⟩

/-- A free id is claimed, unless the event id is taken. -/
theorem claimTyped_free {claimed : Requests × Option Json} (hfree : requests.find mutation.requestId = none) (now : ℕ)
    (hclaim : claimTyped requests mutation.requestId mutation.record now = .ok claimed) :
    claimed = (claimRow requests mutation.requestId mutation.record .staged now, none) := by
  unfold claimTyped at hclaim
  split at hclaim
  · exact nomatch hclaim
  · simp only [claim, pendingOwner_absent hfree] at hclaim
    obtain ⟨_, howner, hver⟩ := bind_eq_ok hclaim
    cases Except.ok.inj howner
    obtain ⟨_, -, hwrote⟩ := bind_eq_ok hver
    exact (Except.ok.inj hwrote).symm

/-- A staged record owns its id. -/
theorem claimTyped_pending (hpend : pendingEvent requests mutation.requestId = some mutation.record) (now : ℕ) :
    claimTyped requests mutation.requestId mutation.record now = .ok (requests, some mutation.record) := by
  have hclaim : Operation.claim ≠ .reconcile := by decide
  simp only [claimTyped, claim, pendingOwner_own hpend (Json.same_self _) hclaim]
  rfl

/-- A committed record owns its id. -/
theorem claimTyped_committed (hcom : committedEvent requests mutation.requestId = some mutation.record) (now : ℕ) :
    claimTyped requests mutation.requestId mutation.record now = .ok (requests, some mutation.record) := by
  obtain ⟨_, hfind, hstat, hint⟩ := find_of_record hcom
  simp only [claimTyped, claim, pendingOwner_committed hfind hstat, hint, Option.all_some, Json.same_self, if_true]
  rfl

/-- A staged record is removed by a discard that names it. -/
theorem discard_pending (hpend : pendingEvent requests mutation.requestId = some mutation.record) :
    discard requests mutation.requestId (some mutation.record) = .ok (requests.erase mutation.requestId) := by
  have hdisc : Operation.discard ≠ .reconcile := by decide
  simp only [discard, pendingOwner_own hpend (Json.same_self _) hdisc]
  rfl

end Ledger

/-! ### The program follows the automaton -/

section

variable (mutation : Mutation) (R : Phase → Prop) (world : MutationWorld)

/-- The automaton follows the trail to a phase, and the ledger holds what the phase says. -/
def InPhase (phase : Phase) : Prop :=
  Phase.start.follows world.trail = some phase ∧ phase.held.meets mutation world.requests

/-- The durable state stands in some phase of the protocol. -/
def Sound : Prop := ∃ phase, InPhase mutation world phase

/-- The durable state stands in a phase of which a condition holds. -/
def Within : Prop :=
  ∃ phase, InPhase mutation world phase ∧ R phase

end

/-- The call whose mark ends `base` goes on, and its effect did not raise or its record is discarded. -/
def Ongoing (mutation : Mutation) (base : List Mark) (world : MutationWorld) : Prop :=
  ∃ phase new, InPhase mutation world phase ∧ world.trail = base ++ new ∧ .called ∉ new ∧ phase.last ≠ .raised

/-- The triples of this file: every durable state is sound, and the call goes on. -/
abbrev MutationTriple (mutation : Mutation) (base : List Mark) {α : Type} (P : MutationWorld → Prop)
    (program : MutationProgram α) (Q : α → MutationWorld → Prop) : Prop :=
  Triple (fun _ world ↦ Sound mutation world) (fun world _ ↦ Ongoing mutation base world) (fun world _ ↦ P world)
    program (fun a world _ ↦ Q a world)

section Triples

variable {mutation : Mutation} {attempt : Attempt} {base : List Mark} {P : MutationWorld → Prop} {R S : Phase → Prop}

/-- A write along the automaton. -/
theorem write_triple {f : MutationWorld → MutationWorld} {event : Mark}
    (htrail : ∀ world, (f world).trail = world.trail ++ [event]) (hevent : event ≠ .called ∧ event ≠ .raised)
    (hwrite : ∀ world phase, P world → InPhase mutation world phase → ∃ after, phase.next event = some after ∧
      after.held.meets mutation (f world).requests ∧ S after) :
    MutationTriple mutation base P (Durable.commit f) (fun _ ↦ Within mutation S) := by
  refine triple_commit ?_
  rintro world - ⟨phase, new, hphase, hnew, hcall, -⟩ hp
  obtain ⟨after, hnext, hmeets, hs⟩ := hwrite world phase hp hphase
  have hafter : InPhase mutation (f world) after :=
    ⟨htrail world ▸ (Phase.follows_concat hphase.1 event).trans hnext, hmeets⟩
  refine ⟨⟨after, hafter⟩, ⟨after, new ++ [event], hafter, ?_, ?_, Phase.next_last hnext ▸ hevent.2⟩,
    after, hafter, hs⟩
  · rw [htrail, hnew, List.append_assoc]
  · simp [hcall, Ne.symm hevent.1]

/-- A mark that leaves the ledger alone. -/
theorem mark_triple {event : Mark} (hevent : event ≠ .called ∧ event ≠ .raised)
    (hmark : ∀ phase, R phase → ∃ after, phase.next event = some after ∧
      (∀ requests, phase.held.meets mutation requests → after.held.meets mutation requests) ∧ S after) :
    MutationTriple mutation base (Within mutation R) (mark event) (fun _ ↦ Within mutation S) := by
  refine write_triple (fun _ ↦ rfl) hevent ?_
  rintro world phase ⟨_, hoth, hr⟩ hphase
  cases Option.some.inj (hphase.1.symm.trans hoth.1)
  obtain ⟨after, hnext, hmeets, hs⟩ := hmark phase hr
  exact ⟨after, hnext, hmeets world.requests hphase.2, hs⟩

theorem lift_triple {α : Type} {answer : Except Raised α} {Q : α → MutationWorld → Prop}
    (hans : ∀ a world, answer = .ok a → P world → Q a world) :
    MutationTriple mutation base P (lift answer) Q := by
  cases answer with
  | error _ => exact triple_throw
  | ok a => exact triple_pure fun world _ _ hp ↦ hans a world rfl hp

/-- A free id is staged. -/
theorem stageEvent_free :
    MutationTriple mutation base (Within mutation fun phase ↦ phase = ⟨.free, .called⟩) (stageEvent mutation attempt)
      (fun _ ↦ Within mutation fun phase ↦ phase = ⟨.fresh, .staged⟩) := by
  refine triple_stored.bind fun seen ↦ ?_
  refine (lift_triple (P := fun world ↦ seen = world ∧ Within mutation (· = ⟨.free, .called⟩) world)
    (Q := fun cl world ↦ Within mutation (· = ⟨.free, .called⟩) world ∧
      cl = (claimRow seen.requests mutation.requestId mutation.record .staged attempt.stagedAt, none))
    ?_).bind fun cl ↦ ?_
  · rintro cl world hclaim ⟨rfl, phase, hphase, rfl⟩
    exact ⟨⟨_, hphase, rfl⟩, claimTyped_free hphase.2 attempt.stagedAt hclaim⟩
  · obtain ⟨requests, existing⟩ := cl
    cases existing with
    | some existing =>
      rintro world - - ⟨-, hclaimed⟩
      exact nomatch (Prod.mk.inj hclaimed).2
    | none =>
      refine write_triple (fun _ ↦ rfl) (by decide) ?_
      rintro world phase ⟨⟨_, hoth, rfl⟩, hclaimed⟩ hphase
      cases Option.some.inj (hphase.1.symm.trans hoth.1)
      refine ⟨⟨.fresh, .staged⟩, rfl, ?_, rfl⟩
      rw [(Prod.mk.inj hclaimed).1]
      exact record_claimRow seen.requests mutation.requestId mutation.record attempt.stagedAt .staged

/-- An id that is held is not staged again. -/
theorem stageEvent_held (hheld : ∀ phase, R phase → phase.held.pending = true ∨ phase.held = .committed) :
    MutationTriple mutation base (Within mutation R) (stageEvent mutation attempt)
      (fun _ ↦ Within mutation R) := by
  refine triple_stored.bind fun seen ↦ ?_
  refine (lift_triple (P := fun world ↦ seen = world ∧ Within mutation R world)
    (Q := fun cl world ↦ Within mutation R world ∧ cl.2 = some mutation.record) ?_).bind fun cl ↦ ?_
  · rintro cl world hclaim ⟨rfl, phase, hphase, hr⟩
    refine ⟨⟨phase, hphase, hr⟩, ?_⟩
    rcases hheld phase hr with hpend | hcom
    · rw [claimTyped_pending ((Held.meets_pending hpend).mp hphase.2)] at hclaim
      rw [← Except.ok.inj hclaim]
    · have hmeets := hphase.2
      rw [hcom] at hmeets
      rw [claimTyped_committed hmeets] at hclaim
      rw [← Except.ok.inj hclaim]
  · obtain ⟨_, existing⟩ := cl
    cases existing with
    | some existing =>
      exact (lift_triple fun _ _ _ hpre ↦ hpre.1).bind fun _ ↦ triple_pure fun _ _ _ hpost ↦ hpost
    | none =>
      rintro world - - ⟨-, hclaimed⟩
      exact nomatch hclaimed

/-- A finished mutation is committed. -/
theorem commitOrRaise_finished :
    MutationTriple mutation base (Within mutation fun phase ↦ phase.last = .finished ∧ phase.held.pending = true)
      (commitOrRaise mutation attempt) (fun _ _ ↦ True) := by
  refine (stageEvent_held fun _ hphase ↦ .inl hphase.2).bind fun _ ↦ ?_
  cases commitFault attempt with
  | some _ => exact triple_throw
  | none =>
    refine triple_stored.bind fun seen ↦ ?_
    refine (lift_triple (P := fun world ↦ seen = world ∧
        Within mutation (fun phase ↦ phase.last = .finished ∧ phase.held.pending = true) world)
      (Q := fun after world ↦ seen = world ∧
        Within mutation (fun phase ↦ phase.last = .finished ∧ phase.held.pending = true) world ∧
        after = claimRow seen.requests mutation.requestId mutation.record .committed attempt.committedAt)
      ?_).bind fun after ↦ ?_
    · rintro after world happ ⟨rfl, phase, hphase, hfin⟩
      rw [append_pending ((Held.meets_pending hfin.2).mp hphase.2) (Json.same_self _)] at happ
      exact ⟨rfl, ⟨phase, hphase, hfin⟩, (Except.ok.inj happ).symm⟩
    · refine .ite (fun _ ↦ triple_pure fun _ _ _ _ ↦ trivial) fun _ ↦
        (write_triple (S := fun _ ↦ True) (fun _ ↦ rfl) (by decide) ?_).post fun _ _ _ _ _ ↦ trivial
      rintro world phase ⟨rfl, ⟨_, hoth, hfin⟩, rfl⟩ hphase
      cases Option.some.inj (hphase.1.symm.trans hoth.1)
      refine ⟨⟨.committed, .committed⟩, by simp [Phase.next, hfin], ?_, trivial⟩
      exact record_claimRow seen.requests mutation.requestId mutation.record attempt.committedAt .committed

/-- A committed mutation is replayed without a write. -/
theorem commitOrRaise_committed :
    MutationTriple mutation base (Within mutation fun phase ↦ phase.held = .committed)
      (commitOrRaise mutation attempt) (fun _ _ ↦ True) := by
  refine (stageEvent_held fun _ hphase ↦ .inr hphase).bind fun _ ↦ ?_
  cases commitFault attempt with
  | some _ => exact triple_throw
  | none =>
    refine triple_stored.bind fun seen ↦ ?_
    refine (lift_triple (P := fun world ↦ seen = world ∧ Within mutation (·.held = .committed) world)
      (Q := fun _ world ↦ seen = world ∧ Within mutation (·.held = .committed) world)
      fun _ _ _ hpre ↦ hpre).bind fun _ ↦ .ite (fun _ ↦ triple_pure fun _ _ _ _ ↦ trivial) fun hfresh ↦ ?_
    rintro world - - ⟨rfl, _, hphase, hcom⟩
    have hmeets := hphase.2
    rw [hcom] at hmeets
    rw [show committedEvent seen.requests mutation.requestId = _ from hmeets] at hfresh
    exact absurd rfl hfresh

/-- What follows an effect that returned, or a record found pending. -/
theorem settle_triple (message : String) :
    MutationTriple mutation base
      (Within mutation fun phase ↦ (phase.last = .returned ∨ phase.last = .called) ∧ phase.held.pending = true)
      (settle mutation attempt message) (fun _ _ ↦ True) := by
  have hconf : MutationTriple mutation base
      (Within mutation fun phase ↦ (phase.last = .returned ∨ phase.last = .called) ∧ phase.held.pending = true)
      (confirmOrRaise attempt message)
      (fun _ ↦ Within mutation fun phase ↦ phase.last = .confirmed ∧ phase.held.pending = true) := by
    unfold confirmOrRaise
    cases attempt.confirm with
    | some detail => exact triple_throw
    | none =>
      refine mark_triple (by decide) fun phase hphase ↦ ⟨⟨phase.held, .confirmed⟩, ?_, fun _ hmeets ↦ hmeets, rfl, hphase.2⟩
      simp [Phase.next, hphase]
  have hfin : MutationTriple mutation base
      (Within mutation fun phase ↦ phase.last = .confirmed ∧ phase.held.pending = true) (finishOrRaise attempt)
      (fun _ ↦ Within mutation fun phase ↦ phase.last = .finished ∧ phase.held.pending = true) := by
    unfold finishOrRaise
    cases attempt.finish with
    | some detail => exact triple_throw
    | none =>
      refine mark_triple (by decide) fun phase hphase ↦ ⟨⟨phase.held, .finished⟩, ?_, fun _ hmeets ↦ hmeets, rfl, hphase.2⟩
      simp [Phase.next, hphase]
  exact hconf.bind fun _ ↦ hfin.bind fun _ ↦ commitOrRaise_finished

/-- The effect of a fresh record returns, or takes the record with it. -/
theorem invoke_triple :
    MutationTriple mutation base (Within mutation fun phase ↦ phase = ⟨.fresh, .staged⟩) (invoke mutation attempt)
      (fun _ ↦ Within mutation fun phase ↦ phase = ⟨.returned, .returned⟩) := by
  have hinvoked : MutationTriple mutation base (Within mutation fun phase ↦ phase = ⟨.fresh, .staged⟩) (mark .invoked)
      (fun _ ↦ Within mutation fun phase ↦ phase = ⟨.tried, .invoked⟩) := by
    refine mark_triple (by decide) ?_
    rintro _ rfl
    exact ⟨⟨.tried, .invoked⟩, rfl, fun _ hmeets ↦ hmeets, rfl⟩
  refine hinvoked.bind fun _ ↦ ?_
  cases attempt.effect with
  | none =>
    refine mark_triple (by decide) ?_
    rintro _ rfl
    exact ⟨⟨.returned, .returned⟩, rfl, fun _ hmeets ↦ hmeets, rfl⟩
  | some _ =>
    rintro world - ⟨-, new, -, hnew, hcall, -⟩ ⟨phase, hphase, rfl⟩
    have herr : InPhase mutation { world with trail := world.trail ++ [.raised] } ⟨.tried, .raised⟩ :=
      ⟨Phase.follows_concat hphase.1 _, hphase.2⟩
    have hdisc : InPhase mutation
        ⟨world.requests.erase mutation.requestId, world.trail ++ [.raised] ++ [.discarded]⟩ ⟨.free, .discarded⟩ :=
      ⟨Phase.follows_concat herr.1 _, KeyedTable.find_erase_self _ _⟩
    simp only [mark, write, lift, meets_bind, meets_commit, meets_stored, discard_pending hphase.2, meets_pure,
      meets_throw]
    refine ⟨⟨_, herr⟩, ⟨_, hdisc⟩, ⟨_, new ++ [.raised, .discarded], hdisc, ?_, ?_, by simp⟩, by simp⟩
    · simp [hnew]
    · simp [hcall]

/-- What a call finds decides how it goes on, and every write on the way leaves a sound state. -/
theorem dispatch_triple (seen : MutationWorld) :
    MutationTriple mutation base (fun world ↦ seen = world ∧ Within mutation (fun phase ↦ phase.last = .called) world)
      (dispatch mutation attempt seen.requests) (fun _ _ ↦ True) := by
  unfold dispatch
  cases hcom : committedEvent seen.requests mutation.requestId with
  | some committed =>
    refine (lift_triple (Q := fun _ ↦ Within mutation fun phase ↦ phase.held = .committed) ?_).bind fun _ ↦
      commitOrRaise_committed.bind fun _ ↦ ?_
    · rintro - world - ⟨rfl, phase, hphase, -⟩
      have hfnd := (Held.meets_event hphase.2).1
      rw [hcom] at hfnd
      exact ⟨phase, hphase, by by_contra hoth; rw [if_neg hoth] at hfnd; exact nomatch hfnd⟩
    · cases attempt.confirm with
      | some _ => exact triple_throw
      | none => exact triple_pure fun _ _ _ _ ↦ trivial
  | none =>
    cases hevent : event seen.requests mutation.requestId with
    | some pending =>
      refine (lift_triple (Q := fun _ ↦ Within mutation fun phase ↦
        (phase.last = .returned ∨ phase.last = .called) ∧ phase.held.pending = true) ?_).bind fun _ ↦
        settle_triple _
      rintro - world - ⟨rfl, ⟨held, last⟩, hphase, hlast⟩
      obtain ⟨hnone, hsome⟩ := Held.meets_event hphase.2
      rw [hcom] at hnone
      rw [hevent] at hsome
      refine ⟨_, hphase, .inr hlast, ?_⟩
      cases held with
      | free => exact nomatch hsome
      | fresh | tried | returned => rfl
      | committed => exact nomatch hnone
    | none =>
      refine (stageEvent_free.pre ?_).bind fun _ ↦ invoke_triple.bind fun _ ↦ (settle_triple _).pre ?_
      · rintro world - - ⟨rfl, ⟨held, last⟩, hphase, rfl⟩
        have hnone := (Held.meets_event hphase.2).2
        rw [hevent] at hnone
        have hfree : held = .free := by
          by_contra hoth
          rw [if_neg hoth] at hnone
          exact nomatch hnone
        exact ⟨_, hphase, by rw [hfree]⟩
      · rintro world - - ⟨phase, hphase, rfl⟩
        exact ⟨_, hphase, .inl rfl, rfl⟩

theorem execute_meets {world : MutationWorld} (hsound : Sound mutation world) (attempt : Attempt) :
    Meets (fun _ next ↦ Sound mutation next) (execute mutation attempt)
      (fun _ after _ ↦ Ongoing mutation (world.trail ++ [.called]) after) world () := by
  obtain ⟨phase, hphase⟩ := hsound
  have hcall : InPhase mutation { world with trail := world.trail ++ [.called] } ⟨phase.held, .called⟩ :=
    ⟨Phase.follows_concat hphase.1 _, hphase.2⟩
  rw [execute, meets_bind, mark, meets_commit]
  refine ⟨⟨_, hcall⟩, ((triple_stored.bind dispatch_triple) _ () ?_ ⟨_, hcall, rfl⟩).mono fun _ _ _ hend ↦ hend.1⟩
  exact ⟨_, [], hcall, (List.append_nil _).symm, List.not_mem_nil, nofun⟩

end Triples

/-! ### Every sequence of calls -/

section Histories

variable (mutation : Mutation) (requests : Requests)

/-- The durable states of a sequence of calls, each of which may be cut short by a crash, and the one before. -/
def mutationHistory (attempts : List (Attempt × Option ℕ)) : List MutationWorld :=
  ⟨requests, []⟩ :: visited (execute mutation) (fun _ ↦ ()) ⟨requests, []⟩ attempts

variable {mutation requests}

theorem mutationHistory_sound (hfree : requests.find mutation.requestId = none)
    (attempts : List (Attempt × Option ℕ)) :
    ∀ world ∈ mutationHistory mutation requests attempts, Sound mutation world := by
  have hstart : Sound mutation ⟨requests, []⟩ := ⟨.start, rfl, hfree⟩
  refine List.forall_mem_cons.mpr ⟨hstart, ?_⟩
  refine visited_invariant (Sound mutation) attempts hstart (fun _ attempt hsound ↦ ?_) fun _ _ _ hafter ↦ hafter
  exact (execute_meets hsound attempt).1

/-- A call whose effect raised leaves nothing under the id. -/
theorem execute_raised {world : MutationWorld} (hsound : Sound mutation world) (attempt : Attempt)
    (herr : .raised ∈ ((execute mutation attempt).final world ()).trail.drop world.trail.length) :
    ((execute mutation attempt).final world ()).requests.find mutation.requestId = none := by
  obtain ⟨_, _, ⟨hfol, hmeets⟩, htrail, hcall, hlast⟩ := (execute_meets hsound attempt).2
  rw [htrail, List.append_assoc, List.drop_left, List.singleton_append, List.mem_cons] at herr
  obtain ⟨_, _, rfl⟩ := List.append_of_mem (herr.resolve_left (by decide))
  rw [htrail, ← List.append_assoc] at hfol
  rw [Phase.free_of_raised hfol (fun hlater ↦ hcall (by simp [hlater])) hlast] at hmeets
  exact hmeets

/-- However often a mutation is executed and wherever its calls are cut short: its effect is invoked again
only after the record was discarded; once the effect returned, the record is staged until it is committed; it
is committed only right behind `confirm` and `finish`, in a call whose effect returned or that found the
record pending; and a call whose effect raised leaves nothing behind. -/
theorem mutation_effectOnce (mutation : Mutation) (requests : Requests)
    (hfree : requests.find mutation.requestId = none) (attempts : List (Attempt × Option ℕ)) :
    ∀ world ∈ mutationHistory mutation requests attempts,
      (∀ earlier middle later, world.trail = earlier ++ .invoked :: middle ++ .invoked :: later →
        .discarded ∈ middle) ∧
      (.returned ∈ world.trail → pendingEvent world.requests mutation.requestId = some mutation.record ∨
        committedEvent world.requests mutation.requestId = some mutation.record) ∧
      (∀ earlier later, world.trail = earlier ++ .committed :: later →
        ∃ front, earlier = front ++ [.returned, .confirmed, .finished] ∨
          earlier = front ++ [.called, .confirmed, .finished]) ∧
      ∀ attempt, .raised ∈ ((execute mutation attempt).final world ()).trail.drop world.trail.length →
        ((execute mutation attempt).final world ()).requests.find mutation.requestId = none := by
  intro world hworld
  have hsound := mutationHistory_sound hfree attempts world hworld
  obtain ⟨phase, hfol, hmeets⟩ := hsound
  refine ⟨?_, ?_, ?_, fun attempt ↦ execute_raised ⟨phase, hfol, hmeets⟩ attempt⟩
  · rintro earlier _ later htrail
    exact Phase.discarded_between (htrail ▸ hfol)
  · intro hret
    have hkept := Phase.kept_of_returned hret hfol
    rcases hkept.1 with hheld | hheld
    · rw [hheld] at hmeets
      exact .inl hmeets
    · rw [hheld] at hmeets
      exact .inr hmeets
  · rintro earlier later htrail
    exact Phase.committed_behind (htrail ▸ hfol)

end Histories

def sampleMutation : Mutation where
  requestId := "move-1"
  record := .obj [("record_type", .str "board.protocol_event"), ("request_id", .str "move-1")]
  protocol := by decide

/-- The effect raises; it returns and the commit fails; the pending record is confirmed and committed. -/
def sampleAttempts : List (Attempt × Option ℕ) :=
  [({ effect := some "down" }, none), ({ commit := some ("disk full", true) }, none), ({}, none)]

theorem mutation_effectOnce_witness :
    (KeyedTable.empty Row.requestId).find sampleMutation.requestId = none ∧
      ∃ world ∈ mutationHistory sampleMutation (.empty Row.requestId) sampleAttempts,
        world.trail = [.called, .staged, .invoked, .raised, .discarded, .called, .staged, .invoked, .returned,
          .confirmed, .finished, .called, .confirmed, .finished, .committed] ∧
        ∀ earlier middle later, world.trail = earlier ++ .invoked :: middle ++ .invoked :: later →
          .discarded ∈ middle :=
  ⟨rfl, _, List.getLast_mem (List.cons_ne_nil _ _), by decide +kernel,
    (mutation_effectOnce sampleMutation (.empty Row.requestId) rfl sampleAttempts _
      (List.getLast_mem (List.cons_ne_nil _ _))).1⟩

end Ummanu.Ledger
