import Ummanu.Task.Create

/-!
# Repeating a create

The record of a create is final and its card keeps its reference, whatever happens on the board afterwards. A
repeated call reaches that record only through the admission, which reads the board as it is by then. So it
answers the card it cut exactly when the readings still admit the call, to the heads on the record and without
an override that the record does not carry; in every other case it raises.
-/

set_option autoImplicit false

namespace Ummanu.Task

open Library Ledger

variable {requests : Requests}

variable {env : Env} {world created : World} {call : Create} {recorded admission : Admission} {ref eventId : String}

/-! ### What a create leaves -/

/-- The record of a create and its card, and the record of the override if one was granted. -/
structure Recorded (env : Env) (world : World) (call : Create) (recorded : Admission) (ref eventId : String) :
    Prop where
  record : committedEvent world.requests call.requestId = some (createdRecord env call recorded ref eventId)
  card : (world.cards.find ref).isSome
  override : recorded.granted.isSome → (committedEvent world.requests (overrideRequestId env call.requestId)).isSome

/-- The write of a card leaves its record and the card, and no other row of the ledger is changed. -/
theorem createBackend_recorded {reply : Reply} (hfresh : committedEvent requests call.requestId = none)
    (hmake : createBackend env world requests call recorded eventId = .ok (created, reply)) :
    ∃ ref, reply = ⟨ref, eventId, false⟩ ∧
      committedEvent created.requests call.requestId = some (createdRecord env call recorded ref eventId) ∧
      (created.cards.find ref).isSome ∧
      ∀ other ≠ call.requestId, created.requests.find other = requests.find other := by
  obtain ⟨_, hheld, hmake⟩ := bind_eq_ok hmake
  dsimp only at hmake
  generalize (if call.reference = "" then env.nextProjectReference world.cards call.project else call.reference) = ref
    at hmake
  split_ifs at hmake with htaken
  obtain ⟨_, hkept, hmake⟩ := bind_eq_ok hmake
  obtain ⟨_, happ, hmake⟩ := bind_eq_ok hmake
  cases hmake
  have hrow := committedEvent_append happ
  rw [committedEvent_stage (committedEvent_stage hfresh hheld) hkept] at hrow
  refine ⟨ref, rfl, hrow, ?_, fun other hoth ↦ ?_⟩
  · exact Option.isSome_iff_exists.mpr ⟨_, KeyedTable.find_put_self _ (createdCard call recorded ref)⟩
  · rw [(append_change _ _ _ _ happ).1 other hoth, (stage_change _ _ _ _ hkept).1 other hoth,
      (stage_change _ _ _ _ hheld).1 other hoth]

theorem recordOverride_granted (hrow : recordOverride env world call recorded eventId = .ok requests)
    (hgrant : recorded.granted.isSome) :
    (committedEvent requests (overrideRequestId env call.requestId)).isSome := by
  obtain ⟨_, hsome⟩ := Option.isSome_iff_exists.mp hgrant
  rw [recordOverride, hsome] at hrow
  dsimp only [grantSprintOverride] at hrow
  split at hrow
  next hcom =>
    cases hrow
    simp [hcom]
  next =>
    obtain ⟨_, -, hrow⟩ := bind_eq_ok hrow
    simp [committedEvent_append hrow]

theorem committedEvent_congr {requests after : Requests} {requestId : String}
    (hfind : after.find requestId = requests.find requestId) :
    committedEvent after requestId = committedEvent requests requestId := by
  simp only [committedEvent, Ledger.record, hfind]

/-- A replay says so. -/
theorem replayCreate_replayed {committed : Json} {reply : Reply}
    (hagain : replayCreate env world requests call admission committed = .ok (created, reply)) :
    reply.replayed = true := by
  obtain ⟨_, -, hagain⟩ := bind_eq_ok hagain
  obtain ⟨_, -, hagain⟩ := bind_eq_ok hagain
  obtain ⟨_, -, hagain⟩ := bind_eq_ok hagain
  cases hagain
  rfl

/-- What a create that was no replay leaves. -/
theorem create_recorded {reply : Reply} {overrideEventId : String}
    (hmake : create env world call eventId overrideEventId = .ok (created, reply))
    (hrep : reply.replayed = false) :
    ∃ recorded ref, admitCreate env world call = .ok recorded ∧ reply = ⟨ref, eventId, false⟩ ∧
      Recorded env created call recorded ref eventId := by
  obtain ⟨recorded, hadm, hmake⟩ := bind_eq_ok hmake
  obtain ⟨_, hreqs, hmake⟩ := bind_eq_ok hmake
  split at hmake
  · exact nomatch (replayCreate_replayed hmake).symm.trans hrep
  next hfresh =>
    split at hmake
    · exact nomatch (replayCreate_replayed hmake).symm.trans hrep
    · obtain ⟨ref, rfl, hrow, hcard, hrest⟩ := createBackend_recorded hfresh hmake
      refine ⟨recorded, ref, hadm, rfl, hrow, hcard, fun hgrant ↦ ?_⟩
      have hoverride := recordOverride_granted hreqs hgrant
      -- the override's record stands under an id that was not free for the card
      have hoth : overrideRequestId env call.requestId ≠ call.requestId := by
        intro hsame
        rw [hsame, hfresh] at hoverride
        exact nomatch hoverride
      rwa [committedEvent_congr (hrest _ hoth)]

/-! ### What stays of it -/

theorem committedEvent_step {requestId : String} {event : Json}
    (hcom : committedEvent requests requestId = some event) (change : Ledger.Call) :
    committedEvent (Ledger.step requests change) requestId = some event := by
  obtain ⟨row, hfind, hstat, rfl⟩ := find_of_record hcom
  have hfinal : row.status ≠ .staged := by simp [hstat]
  rw [committedEvent, record_of_find (step_final requests change hfind hfinal), if_pos hstat]

theorem find_put_isSome {cards : KeyedTable Card.ref} (hcard : (cards.find ref).isSome) (written : Card) :
    ((cards.put written).find ref).isSome := by
  by_cases hsame : ref = written.ref
  · rw [hsame, KeyedTable.find_put_self]
    rfl
  · rwa [KeyedTable.find_put_of_ne _ _ hsame]

/-- A change of the board leaves the record, the card and the override where they are. -/
theorem Recorded.apply (hrec : Recorded env world call recorded ref eventId) (change : Change) :
    Recorded env (change.apply world) call recorded ref eventId := by
  cases change with
  | ledger o =>
    refine ⟨committedEvent_step hrec.record o, hrec.card, fun hgrant ↦ ?_⟩
    obtain ⟨ev, hevent⟩ := Option.isSome_iff_exists.mp (hrec.override hgrant)
    exact Option.isSome_iff_exists.mpr ⟨ev, committedEvent_step hevent o⟩
  | card written => exact ⟨hrec.record, find_put_isSome hrec.card written, hrec.override⟩
  | sprint | session | index | registry | pass => exact ⟨hrec.record, hrec.card, hrec.override⟩

theorem Recorded.after (hrec : Recorded env world call recorded ref eventId) (changes : List Change) :
    Recorded env (world.after changes) call recorded ref eventId := by
  induction changes generalizing world with
  | nil => exact hrec
  | cons change _ ih => exact ih (hrec.apply change)

/-! ### The repeated call -/

/-- The readings admit the call to the heads of the record, and grant no override that it does not carry. -/
def Readmitted (env : Env) (world : World) (call : Create) (recorded : Admission) : Prop :=
  ∃ admission, admitCreate env world call = .ok admission ∧ admission.head = recorded.head ∧
    admission.reviewHead = recorded.reviewHead ∧ (admission.granted.isSome → recorded.granted.isSome)

theorem recordedPayload_get {key : String} {value : Option Json} (hmem : (key, value) ∈ payload env call recorded) :
    (recordedPayload env call recorded).get key = value.getD .null :=
  Json.get_present (by simp [payload, Create.members]) (List.mem_cons_of_mem _ hmem)

theorem orNull_inj {first second : String} (hsame : (orNull first).getD .null = (orNull second).getD .null) :
    first = second := by
  unfold orNull at hsame
  split_ifs at hsame with hfst hsnd hsnd <;> simp_all

/-- The payload that is built again agrees with the record exactly when what was read does. -/
theorem identity_agrees_iff :
    (∀ member ∈ identity env call admission, (recordedPayload env call recorded).get member.1 = member.2) ↔
      admission.head = recorded.head ∧ admission.reviewHead = recorded.reviewHead ∧
        (admission.granted.isSome → recorded.granted.isSome) := by
  simp only [identity, Prod.forall, Json.mem_present_iff]
  constructor
  · intro hagr
    have hget {key : String} {v : Json} {was : Option Json} (hmem : (key, some v) ∈ payload env call admission)
        (hrec : (key, was) ∈ payload env call recorded) : v = was.getD .null :=
      (hagr key v hmem).symm.trans (recordedPayload_get hrec)
    refine ⟨orNull_inj (hget (.head _) (.head _)), orNull_inj (hget (.tail _ (.head _)) (.tail _ (.head _))), ?_⟩
    intro hgrant
    obtain ⟨sprintRef, hsome⟩ := Option.isSome_iff_exists.mp hgrant
    have hmem : ("sprint_override_reason", some (.str call.sprintOverrideReason)) ∈ payload env call admission := by
      simp [payload, hsome]
    have hreason := hget hmem (.tail _ (.tail _ (.head _)))
    -- a record without an override has no such member
    by_contra hnone
    simp [Option.not_isSome_iff_eq_none.mp hnone] at hreason
  · rintro ⟨hhead, hrev, hgrant⟩ key v hmem
    suffices hrec : (key, some v) ∈ payload env call recorded from recordedPayload_get hrec
    simp only [payload, List.mem_cons, Prod.mk.injEq] at hmem ⊢
    rcases hmem with hmem | hmem | ⟨hkey, hreason⟩ | hmem
    · exact .inl (hhead ▸ hmem)
    · exact .inr (.inl (hrev ▸ hmem))
    · obtain ⟨sprintRef, hsome, hvalue⟩ := Option.map_eq_some_iff.mp hreason.symm
      obtain ⟨was, hwas⟩ := Option.isSome_iff_exists.mp (hgrant (by simp [hsome]))
      exact .inr (.inr (.inl ⟨hkey, by simp [hwas, hvalue]⟩))
    · exact .inr (.inr (.inr hmem))

theorem requireClaim_createdRecord :
    requireClaim (createdRecord env call recorded ref eventId) "created" none (identity env call admission) =
      if admission.head = recorded.head ∧ admission.reviewHead = recorded.reviewHead ∧
        (admission.granted.isSome → recorded.granted.isSome) then .ok () else .error foreignClaim := by
  have hkind : ((createdRecord env call recorded ref eventId).get "kind").textOr = "created" := rfl
  have hload : (createdRecord env call recorded ref eventId).get "payload" = recordedPayload env call recorded := rfl
  unfold requireClaim
  rw [hkind, hload, if_neg (by simp), if_neg (by simp), ← ite_not]
  refine if_congr ?_ rfl rfl
  rw [← @identity_agrees_iff env call recorded admission]
  simp

section

variable (hrec : Recorded env world call recorded ref eventId)
include hrec

/-- An override that was granted before is not recorded again. -/
theorem Recorded.recordOverride_eq (hgrant : admission.granted.isSome → recorded.granted.isSome)
    (overrideEventId : String) :
    recordOverride env world call admission overrideEventId = .ok world.requests := by
  unfold recordOverride
  split
  next _ hsome =>
    obtain ⟨_, hevent⟩ := Option.isSome_iff_exists.mp (hrec.override (hgrant (by simp [hsome])))
    simp only [grantSprintOverride, hevent]
  next => rfl

/-- The record of a create stays when an override is recorded. -/
theorem Recorded.recordOverride_record {overrideEventId : String}
    (hrow : recordOverride env world call admission overrideEventId = .ok requests) :
    committedEvent requests call.requestId = some (createdRecord env call recorded ref eventId) := by
  unfold recordOverride at hrow
  split at hrow
  next _ _ =>
    dsimp only [grantSprintOverride] at hrow
    split at hrow
    next =>
      cases hrow
      exact hrec.record
    next hfree =>
      have hoth : call.requestId ≠ overrideRequestId env call.requestId := by
        intro hsame
        rw [← hsame, hrec.record] at hfree
        exact nomatch hfree
      obtain ⟨_, hkept, happ⟩ := bind_eq_ok hrow
      rw [committedEvent_congr ((append_change _ _ _ _ happ).1 _ hoth),
        committedEvent_congr ((stage_change _ _ _ _ hkept).1 _ hoth), hrec.record]
  next =>
    cases hrow
    exact hrec.record

theorem Recorded.createAdmitted_eq (hhead : admission.head = recorded.head)
    (hrev : admission.reviewHead = recorded.reviewHead)
    (hgrant : admission.granted.isSome → recorded.granted.isSome) (nextEventId overrideEventId : String) :
    createAdmitted env world call admission nextEventId overrideEventId = .ok (world, ⟨ref, eventId, true⟩) := by
  obtain ⟨card, hcard⟩ := Option.isSome_iff_exists.mp hrec.card
  have hshow : world.showCard ((createdRecord env call recorded ref eventId).get "ref").textOr = .ok card := by
    have href : ((createdRecord env call recorded ref eventId).get "ref").textOr = ref := Json.textOr_str ref
    rw [href, World.showCard, hcard]
  have hevent : ((createdRecord env call recorded ref eventId).get "event_id").textOr = eventId :=
    Json.textOr_str eventId
  have hclaim : requireClaim (createdRecord env call recorded ref eventId) "created" none
      (identity env call admission) = .ok () :=
    requireClaim_createdRecord.trans (if_pos ⟨hhead, hrev, hgrant⟩)
  rw [createAdmitted, hrec.recordOverride_eq hgrant]
  simp only [bind, Except.bind, hrec.record, replayCreate, hclaim, append_committed hrec.record, hshow, hevent,
    KeyedTable.key_of_find hcard, pure, Except.pure]

theorem Recorded.createAdmitted_raises
    (hagr : ¬(admission.head = recorded.head ∧ admission.reviewHead = recorded.reviewHead ∧
      (admission.granted.isSome → recorded.granted.isSome))) (nextEventId overrideEventId : String) :
    ∃ raised, createAdmitted env world call admission nextEventId overrideEventId = .error raised := by
  unfold createAdmitted
  cases hrow : recordOverride env world call admission overrideEventId with
  | error raised => exact ⟨raised, rfl⟩
  | ok _ =>
    refine ⟨foreignClaim, ?_⟩
    simp only [bind, Except.bind, hrec.recordOverride_record hrow, replayCreate, requireClaim_createdRecord,
      if_neg hagr]

/-- A call under a recorded id answers the recorded card if the readings admit it as on the record, and raises
otherwise. -/
theorem Recorded.create_spec (nextEventId overrideEventId : String) :
    (Readmitted env world call recorded →
        create env world call nextEventId overrideEventId = .ok (world, ⟨ref, eventId, true⟩)) ∧
      (¬Readmitted env world call recorded →
        ∃ raised, create env world call nextEventId overrideEventId = .error raised) := by
  unfold create
  cases hadm : admitCreate env world call with
  | error raised =>
    refine ⟨?_, fun _ ↦ ⟨raised, rfl⟩⟩
    rintro ⟨admission, hadmitted, -⟩
    cases hadm.symm.trans hadmitted
  | ok admission =>
    constructor
    · rintro ⟨_, hadmitted, hhead, hrev, hgrant⟩
      cases hadm.symm.trans hadmitted
      exact hrec.createAdmitted_eq hhead hrev hgrant nextEventId overrideEventId
    · intro hnot
      refine hrec.createAdmitted_raises (fun hagr ↦ hnot ?_) nextEventId overrideEventId
      exact ⟨admission, hadm, hagr⟩

end

/-! ### Histories -/

/-- A create that cut a card, repeated after any history: it answers that card and changes nothing if the board
still admits it as on the record, and raises otherwise. -/
theorem create_repeated {overrideEventId : String} {reply : Reply}
    (hcreate : create env world call eventId overrideEventId = .ok (created, reply))
    (hreplayed : reply.replayed = false) (changes : List Change) (nextEventId nextOverrideEventId : String) :
    ∃ recorded, admitCreate env world call = .ok recorded ∧
      (Readmitted env (created.after changes) call recorded →
        create env (created.after changes) call nextEventId nextOverrideEventId =
          .ok (created.after changes, { reply with replayed := true })) ∧
      (¬Readmitted env (created.after changes) call recorded →
        ∃ raised, create env (created.after changes) call nextEventId nextOverrideEventId = .error raised) := by
  obtain ⟨recorded, _, hadm, rfl, hrec⟩ := create_recorded hcreate hreplayed
  exact ⟨recorded, hadm, (hrec.after changes).create_spec nextEventId nextOverrideEventId⟩

/-- A board with one open sprint, which reserves the project, and no card. -/
def sprintBoard : World where
  requests := KeyedTable.empty Row.requestId
  cards := KeyedTable.empty Card.ref
  sprints := fun ref ↦ if ref = "sprint-1" then some { status := .opened, reservations := ["app"] } else none
  sessions := fun _ ↦ none
  activeSprintProjects := fun _ ↦ []
  registeredProjects := ["app"]
  now := 0

def plainEnv : Env where
  digest := Function.Embedding.refl String
  checkArguments := fun _ ↦ .ok ()
  nextProjectReference := fun _ project ↦ project ++ "-1"

/-- The sprint's observer cuts a code card. -/
def observerCreate : Create where
  role := "observer"
  actor := "observer"
  declared := "sprint-1"
  project := "app"
  type := .code
  title := "Parse the header"
  sprint := "sprint-1"
  review := .required
  requestId := "cut-1"

/-- The repeated call answers the card while the sprint is open, also after the card moved. -/
theorem create_repeated_witness :
    ∃ created, create plainEnv sprintBoard observerCreate "evt_1" "evt_2" = .ok (created, ⟨"app-1", "evt_1", false⟩) ∧
      let moved := created.after [.card ⟨"app-1", .done, "app", .code, "sprint-1", "", ""⟩, .pass 60]
      create plainEnv moved observerCreate "evt_3" "evt_4" = .ok (moved, ⟨"app-1", "evt_1", true⟩) := by
  refine ⟨_, rfl, ?_⟩
  obtain ⟨recorded, hadm, hreplays, -⟩ := create_repeated
    (rfl : create plainEnv sprintBoard observerCreate "evt_1" "evt_2" = .ok (_, ⟨"app-1", "evt_1", false⟩)) rfl
    [.card ⟨"app-1", .done, "app", .code, "sprint-1", "", ""⟩, .pass 60] "evt_3" "evt_4"
  exact hreplays ⟨recorded, hadm, rfl, rfl, id⟩

/-- Once the sprint is closed, the repeated call raises. -/
theorem create_repeatedClosed :
    ∃ created, create plainEnv sprintBoard observerCreate "evt_1" "evt_2" = .ok (created, ⟨"app-1", "evt_1", false⟩) ∧
      create plainEnv (created.after [.sprint "sprint-1" (some { status := .closed, reservations := ["app"] })])
          observerCreate "evt_3" "evt_4" =
        .error (.task "closed" "cannot link a new card to a closed or stopped sprint" 3) :=
  ⟨_, rfl, rfl⟩

end Ummanu.Task
