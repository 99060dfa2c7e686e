import Ummanu.Po.ServiceLaw

/-!
# The fresh session of a sprint

A sprint whose PO session is closed or missing gets a fresh one: `sprint_session` claims a session under the
caller's request id, seeds it, comments on the sprint, and records the session last. Until the record, nothing
but the claimed row says that the sprint has a session, and only a request under the same id looks there. A
sprint gets one session if every request that comes between a claim and its record carries the claim's id and
none repeats an id that an earlier session of the sprint was claimed under, and two as soon as another id comes
in between.

Scope. The requests are resolves of one sprint, and no session is closed between them. A call that fails raises
something else than that there is no such session.
-/

set_option autoImplicit false

namespace Ummanu.Po

open Library KeyedTable

variable {s start : Store} {record : SprintRecord} {requestId : String}
variable {row : PoRequest} {blind : Unreadable}

/-! ### Readings -/

/-- What `_session_or_none` reads. -/
def Store.lookup (store : Store) : Option String → Option Session
  | none => none
  | some sessionId => if sessionId = "" then none else store.sessions.find sessionId

/-- A call that fails does not say that there is no such session. -/
def calm (blind : Unreadable) : Weather := ⟨blind, fun error ↦ ∀ message, error ≠ .sessionNotFound message⟩

/-- The session that is read has the id that was looked for. -/
theorem lookup_id {store : Store} {sessionId : Option String} {session : Session}
    (hlook : store.lookup sessionId = some session) : sessionId = some session.id := by
  cases sessionId with
  | none => cases hlook
  | some sessionId =>
    rw [Store.lookup] at hlook
    split_ifs at hlook
    exact congrArg some (key_of_find hlook).symm

section Readings

variable {G : Store → Store → Prop} {I P : Store → Acceptance → Prop}

theorem judged_lookup (sessionId : Option String) :
    Judged G (calm blind) I P (sessionOrNone sessionId) (fun found s w ↦ P s w ∧ found = s.lookup sessionId) := by
  unfold sessionOrNone
  cases sessionId with
  | none => exact judged_pure fun _ _ _ hpre ↦ ⟨hpre, rfl⟩
  | some sessionId =>
    dsimp only
    by_cases hnil : sessionId = ""
    · rw [if_pos hnil]
      exact judged_pure fun s _ _ hpre ↦ ⟨hpre, by rw [Store.lookup, if_pos hnil]⟩
    · rw [if_neg hnil]
      intro s _ hinv hpre
      simp only [meets_tryCatch, meets_bind]
      have hlook : s.lookup (some sessionId) = s.sessions.find sessionId := if_neg hnil
      refine meets_ask hinv.1 (fun v' hadmits hsame ↦ ?_) fun error v' hadmits hsame hallow ↦ ?_
      · cases hfind : s.sessions.find sessionId with
        | some ses =>
          simp only [Store.session, hfind, meets_pure, hsame]
          refine ⟨⟨hadmits, hinv.2⟩, fun found hfnd ↦ ⟨hpre, ?_⟩⟩
          rw [hlook, hfind, Except.ok.inj hfnd]
        | none =>
          simp only [Store.session, hfind, meets_pure, hsame]
          refine ⟨⟨hadmits, hinv.2⟩, fun found hfnd ↦ ⟨hpre, ?_⟩⟩
          rw [hlook, hfind, Except.ok.inj hfnd]
      · cases error with
        | sessionNotFound msg => exact absurd rfl (hallow msg)
        | _ =>
          simp only [meets_throw, hsame]
          exact ⟨⟨hadmits, hinv.2⟩, by simp⟩

end Readings

/-! ### What is about the sprint -/

/-- Everything that is about sprints and sessions is the same. -/
structure SameSprints (s t : Store) : Prop where
  sessions : t.sessions = s.sessions
  nextSession : t.nextSession = s.nextSession
  sprints : ∀ ref, t.sprints.find ref = s.sprints.find ref
  records : ∀ requestId, requestId ++ ":record" ∈ t.sprintWrites ↔ requestId ++ ":record" ∈ s.sprintWrites
  rows : ∀ {requestId : String} {row : PoRequest} {ref : String}, row.fingerprint = .sprint ref →
    (t.requests.find requestId = some row ↔ s.requests.find requestId = some row)

theorem PumpWrite.sameSprints {t : Store} (hwrite : PumpWrite blind s t) : SameSprints s t := by
  cases hwrite with
  | @claim item seq created next _ hclaim =>
    rcases claimTurn_cases hclaim with ⟨-, -, -, -, rfl⟩ | ⟨hfree, -, -, -, -, rfl⟩
    · exact ⟨rfl, rfl, fun _ ↦ rfl, fun _ ↦ Iff.rfl, fun _ ↦ Iff.rfl⟩
    · refine ⟨rfl, rfl, fun _ ↦ rfl, fun _ ↦ Iff.rfl, fun {requestId row ref} hrow ↦ ?_⟩
      by_cases hid : requestId = item.requestId
      · subst hid
        simp only [hfree, reduceCtorEq, iff_false]
        intro hput
        cases (find_put_self _ _).symm.trans hput
        cases hrow
      · have hne : requestId ≠ (PoRequest.mk item.requestId item.fingerprint item.sessionId (some seq)).requestId := hid
        dsimp only
        rw [find_put_of_ne _ _ hne]
  | settle | refuse | remove => exact ⟨rfl, rfl, fun _ ↦ rfl, fun _ ↦ Iff.rfl, fun _ ↦ Iff.rfl⟩

theorem record_ne_comment (requestId otherId : String) : otherId ++ ":record" ≠ requestId ++ ":comment" := by
  intro hsame
  have hlast := congrArg (·.toList.getLast?) hsame
  simp at hlast

/-- The comment on a sprint says nothing about its session. -/
theorem sameSprints_comment (hfnd : s.sprints.find record.ref = some record) (requestId : String) :
    SameSprints s { s with
      sprints := s.sprints.put record
      sprintWrites := (requestId ++ ":comment") :: s.sprintWrites } := by
  refine ⟨rfl, rfl, fun ref ↦ ?_, fun _ ↦ ?_, fun _ ↦ Iff.rfl⟩
  · by_cases href : ref = record.ref
    · subst href
      exact (find_put_self _ _).trans hfnd.symm
    · exact find_put_of_ne _ _ href
  · simp [record_ne_comment]

theorem SameSprints.lookup {t : Store} (hsame : SameSprints s t) (sessionId : Option String) :
    t.lookup sessionId = s.lookup sessionId := by
  cases sessionId <;> simp only [Store.lookup, hsame.sessions]

/-! ### The phases -/

/-- A sprint that is open, and whose recorded session is closed or missing. Session ids that were not used name
no session. -/
structure Unresolved (start : Store) (record : SprintRecord) : Prop where
  named : Named start
  found : start.sprints.find record.ref = some record
  status : record.status = .opened
  previous : ∀ session, start.lookup record.poSession = some session → session.state = .closed
  fresh : ∀ number, start.nextSession ≤ number → start.sessions.find ("po-" ++ toString number) = none ∧
    record.poSession ≠ some ("po-" ++ toString number)

/-- No session was claimed for the sprint under the id, and none recorded. -/
structure Unused (start : Store) (ref requestId : String) : Prop where
  unclaimed : ∀ row, start.requests.find requestId = some row → row.fingerprint ≠ .sprint ref
  unwritten : requestId ++ ":record" ∉ start.sprintWrites

/-- The sprint with its fresh session. -/
def recordedSprint (record : SprintRecord) (row : PoRequest) : SprintRecord :=
  { record with poSession := some row.sessionId }

/-- No session was opened for the sprint. -/
structure Waiting (start : Store) (record : SprintRecord) (s : Store) : Prop where
  unclaimed : ∀ otherId other, s.requests.find otherId = some other → other.fingerprint = .sprint record.ref →
    start.requests.find otherId = some other
  sessions : ∀ session ∈ s.sessions.rows, (start.sessions.find session.id).isSome
  found : s.sprints.find record.ref = some record
  unwritten : ∀ otherId, otherId ++ ":record" ∈ s.sprintWrites → otherId ++ ":record" ∈ start.sprintWrites

/-- The row is the only one that was claimed for the sprint since the start, and its session the only new one. -/
structure Opened (start : Store) (record : SprintRecord) (claimId : String) (row : PoRequest) (s : Store) :
    Prop where
  claimed : s.requests.find claimId = some row
  bound : row.fingerprint = .sprint record.ref
  new : start.requests.find claimId ≠ some row
  only : ∀ otherId other, s.requests.find otherId = some other → other.fingerprint = .sprint record.ref →
    start.requests.find otherId = some other ∨ otherId = claimId ∧ other = row
  sessions : ∀ session ∈ s.sessions.rows, (start.sessions.find session.id).isSome ∨ session.id = row.sessionId
  session : ∃ session, s.lookup (some row.sessionId) = some session ∧ session.state = .opened

/-- The session was claimed, and the sprint does not record it. -/
structure Claimed (start : Store) (record : SprintRecord) (claimId : String) (row : PoRequest) (s : Store) : Prop
    extends Opened start record claimId row s where
  found : s.sprints.find record.ref = some record
  unwritten : claimId ++ ":record" ∉ s.sprintWrites

/-- The sprint records the session. -/
structure Recorded (start : Store) (record : SprintRecord) (claimId : String) (row : PoRequest) (s : Store) : Prop
    extends Opened start record claimId row s where
  found : s.sprints.find record.ref = some (recordedSprint record row)

/-- The sprint has no fresh session, or one that was claimed under the id, or one that it records. -/
inductive Phase (start : Store) (record : SprintRecord) (requestId : String) (s : Store) : Prop
  | waiting (hwaiting : Waiting start record s)
  | claimed (row : PoRequest) (hheld : Claimed start record requestId row s)
  | recorded (claimId : String) (row : PoRequest) (hrec : Recorded start record claimId row s)

/-- What holds of the store while the sprint's session is resolved. -/
structure Resolving (start : Store) (record : SprintRecord) (requestId : String) (s : Store) : Prop where
  named : Named s
  previous : ∀ session, s.lookup record.poSession = some session → session.state = .closed
  fresh : ∀ number, s.nextSession ≤ number → s.sessions.find ("po-" ++ toString number) = none ∧
    record.poSession ≠ some ("po-" ++ toString number)
  phase : Phase start record requestId s

section Phases

variable {claimId : String} {row : PoRequest} {t : Store}

theorem Opened.congr (hopen : Opened start record claimId row s) (hsame : SameSprints s t) :
    Opened start record claimId row t where
  claimed := (hsame.rows hopen.bound).mpr hopen.claimed
  bound := hopen.bound
  new := hopen.new
  only otherId other hfind hbound := hopen.only otherId other ((hsame.rows hbound).mp hfind) hbound
  sessions := by
    rw [hsame.sessions]
    exact hopen.sessions
  session := by
    rw [hsame.lookup]
    exact hopen.session

theorem Claimed.congr (hheld : Claimed start record claimId row s) (hsame : SameSprints s t) :
    Claimed start record claimId row t :=
  ⟨hheld.toOpened.congr hsame, (hsame.sprints _).trans hheld.found,
    fun hwrote ↦ hheld.unwritten ((hsame.records claimId).mp hwrote)⟩

/-- A change that is not about sprints keeps the phase. -/
theorem Phase.congr (hphase : Phase start record requestId s) (hsame : SameSprints s t) :
    Phase start record requestId t := by
  cases hphase with
  | waiting hwait =>
    refine .waiting ⟨fun otherId o hfind hbound ↦ ?_, ?_, (hsame.sprints _).trans hwait.found, ?_⟩
    · exact hwait.unclaimed otherId o ((hsame.rows hbound).mp hfind) hbound
    · rw [hsame.sessions]
      exact hwait.sessions
    · exact fun otherId hwrote ↦ hwait.unwritten otherId ((hsame.records otherId).mp hwrote)
  | claimed row hheld => exact .claimed row (hheld.congr hsame)
  | recorded claimId row hrec =>
    exact .recorded claimId row ⟨hrec.toOpened.congr hsame, (hsame.sprints _).trans hrec.found⟩

theorem Resolving.congr (hres : Resolving start record requestId s) (hsame : SameSprints s t)
    (hnamed : Named t) : Resolving start record requestId t where
  named := hnamed
  previous := by
    rw [hsame.lookup]
    exact hres.previous
  fresh := by
    rw [hsame.sessions, hsame.nextSession]
    exact hres.fresh
  phase := hres.phase.congr hsame

/-- The recorded session of a sprint with a fresh one is never the fresh one, until it is recorded. -/
theorem Resolving.poSession_ne (hres : Resolving start record requestId s)
    (hopen : Opened start record claimId row s) : record.poSession ≠ some row.sessionId := by
  intro hsame
  obtain ⟨ses, hlook, hstate⟩ := hopen.session
  cases hstate.symm.trans (hres.previous ses (hsame ▸ hlook))

/-- Any two sessions that are new are one. -/
theorem Phase.single (hphase : Phase start record requestId s) {first second : Session}
    (hfst : first ∈ s.sessions.rows) (hsnd : second ∈ s.sessions.rows)
    (hnew : start.sessions.find first.id = none) (hnew' : start.sessions.find second.id = none) : first = second := by
  have hopen {claimId : String} {row : PoRequest} (hopen : Opened start record claimId row s) : first = second := by
    have hid {session : Session} (hsess : session ∈ s.sessions.rows) (hnew : start.sessions.find session.id = none) :
        session.id = row.sessionId :=
      (hopen.sessions session hsess).resolve_left (by simp [hnew])
    have hfind := (mem_rows_iff _ _).mp hfst
    rw [hid hfst hnew, ← hid hsnd hnew', (mem_rows_iff _ _).mp hsnd] at hfind
    exact (Option.some.inj hfind).symm
  cases hphase with
  | waiting hwait =>
    have hold := hwait.sessions first hfst
    rw [hnew] at hold
    cases hold
  | claimed row hheld => exact hopen hheld.toOpened
  | recorded claimId row hrec => exact hopen hrec.toOpened

end Phases

/-! ### The steps -/

section Claim

/-- The ids of new sessions are never one another's. -/
theorem newId_ne {number other : ℕ} (hne : number ≠ other) : "po-" ++ toString number ≠ "po-" ++ toString other := by
  intro hsame
  exact hne (toString_injective (String.append_right_inj "po-" |>.mp hsame))

/-- A lookup under another id does not see a new session. -/
theorem lookup_withSession {session : Session} {sessionId : Option String} (hne : sessionId ≠ some session.id)
    (fingerprint : Fingerprint) :
    (s.withSession session requestId fingerprint).lookup sessionId = s.lookup sessionId := by
  cases sessionId with
  | none => rfl
  | some sessionId =>
    have hfind : (s.sessions.put session).find sessionId = s.sessions.find sessionId :=
      find_put_of_ne _ _ fun hsame ↦ hne (congrArg some hsame)
    simp only [Store.lookup, Store.withSession, hfind]

/-- A session is claimed for a sprint that has none. -/
theorem Waiting.claim (hwait : Waiting start record s) (hunused : Unused start record.ref requestId)
    (cli model effort : String) (title : Option String) :
    Claimed start record requestId ⟨requestId, .sprint record.ref, "po-" ++ toString s.nextSession, none⟩
      (s.withSession (s.newSession cli model effort title) requestId (.sprint record.ref)) where
  found := hwait.found
  unwritten hwrote := hunused.unwritten (hwait.unwritten requestId hwrote)
  claimed := find_put_self s.requests ⟨requestId, .sprint record.ref, _, none⟩
  bound := rfl
  new hold := hunused.unclaimed _ hold rfl
  only otherId other hfind hbound := by
    by_cases hid : otherId = requestId
    · subst hid
      exact .inr ⟨rfl, (Option.some.inj ((find_put_self s.requests
        ⟨otherId, .sprint record.ref, "po-" ++ toString s.nextSession, none⟩).symm.trans hfind)).symm⟩
    · have hold := (find_put_of_ne s.requests
        ⟨requestId, .sprint record.ref, "po-" ++ toString s.nextSession, none⟩ hid).symm.trans hfind
      exact .inl (hwait.unclaimed otherId other hold hbound)
  sessions session hsess := by
    by_cases hid : session.id = "po-" ++ toString s.nextSession
    · exact .inr hid
    · have hfind := (mem_rows_iff _ _).mp hsess
      have hold := (find_put_of_ne s.sessions (s.newSession cli model effort title) hid).symm.trans hfind
      exact .inl (hwait.sessions session ((mem_rows_iff _ _).mpr hold))
  session := by
    refine ⟨s.newSession cli model effort title, ?_, rfl⟩
    exact find_put_self s.sessions (s.newSession cli model effort title)

theorem Resolving.claim (hres : Resolving start record requestId s) (hwait : Waiting start record s)
    (hunused : Unused start record.ref requestId) (cli model effort : String) (title : Option String) :
    Resolving start record requestId
      (s.withSession (s.newSession cli model effort title) requestId (.sprint record.ref)) where
  named := hres.named.congr rfl rfl rfl
  previous := by
    rw [lookup_withSession (hres.fresh s.nextSession le_rfl).2]
    exact hres.previous
  fresh number hnum := by
    have hlt : s.nextSession < number := hnum
    refine ⟨?_, (hres.fresh number hlt.le).2⟩
    exact (find_put_of_ne s.sessions (s.newSession cli model effort title) (newId_ne hlt.ne')).trans
      (hres.fresh number hlt.le).1
  phase := .claimed _ (hwait.claim hunused cli model effort title)

/-- The store in which the sprint records the session of a row. -/
def recordedStore (s : Store) (record : SprintRecord) (row : PoRequest) (requestId : String) : Store :=
  { s with
    sprints := s.sprints.put (recordedSprint record row)
    sprintWrites := (requestId ++ ":record") :: s.sprintWrites }

theorem Claimed.recorded (hheld : Claimed start record requestId row s) :
    Recorded start record requestId row (recordedStore s record row requestId) where
  toOpened := ⟨hheld.claimed, hheld.bound, hheld.new, hheld.only, hheld.sessions, hheld.session⟩
  found := find_put_self s.sprints (recordedSprint record row)

theorem Resolving.recorded (hres : Resolving start record requestId s)
    (hheld : Claimed start record requestId row s) :
    Resolving start record requestId (recordedStore s record row requestId) :=
  ⟨hres.named.congr rfl rfl rfl, hres.previous, hres.fresh, .recorded _ _ hheld.recorded⟩

end Claim

/-! ### The programs -/

/-- The reply names the session that the sprint records. -/
def Names (ref : String) (reply : Reply) (s : Store) : Prop :=
  ∃ sessionId created repeated sprint, reply = .sprintSession sessionId created repeated ∧
    s.sprints.find ref = some sprint ∧ sprint.poSession = some sessionId

/-- `Judged`, while the sprint's session is resolved. An answer that is known names the recorded session. -/
abbrev Resolves {α : Type} (blind : Unreadable) (start : Store) (record : SprintRecord) (requestId : String)
    (P : Store → Acceptance → Prop) (program : Program α) (Q : α → Store → Acceptance → Prop) : Prop :=
  Judged (fun _ t ↦ Resolving start record requestId t) (calm blind)
    (fun s w ↦ Resolving start record requestId s ∧ ∀ reply, w.answer = some reply → Names record.ref reply s)
    P program Q

section Programs

variable {t : Store} {w : Acceptance}

theorem Names.congr {reply : Reply} (hnames : Names record.ref reply s) (hsame : SameSprints s t) :
    Names record.ref reply t := by
  obtain ⟨sid, created, repeated, sp, hreply, hfnd, hsess⟩ := hnames
  exact ⟨sid, created, repeated, sp, hreply, (hsame.sprints _).trans hfnd, hsess⟩

theorem Recorded.names {claimId : String} (hrec : Recorded start record claimId row s)
    (created repeated : Bool) : Names record.ref (.sprintSession row.sessionId created repeated) s :=
  ⟨_, _, _, _, rfl, hrec.found, rfl⟩

/-- A write that is not about sprints. -/
theorem resolving_write (hinv : Resolving start record requestId s ∧
      ∀ reply, w.answer = some reply → Names record.ref reply s) (hsame : SameSprints s t) (hnamed : Named t) :
    Resolving start record requestId t ∧
      Resolving start record requestId t ∧ ∀ reply, w.answer = some reply → Names record.ref reply t :=
  ⟨hinv.1.congr hsame hnamed, hinv.1.congr hsame hnamed, fun reply hreply ↦ (hinv.2 reply hreply).congr hsame⟩

/-- A pump keeps what is known about the answer. -/
theorem resolves_pump (known : Acceptance → Prop) :
    Resolves blind start record requestId (fun _ ↦ known) pump (fun _ _ ↦ known) := by
  have hpump : Judged (fun _ t ↦ Resolving start record requestId t) (calm blind)
      (fun s w ↦ (Resolving start record requestId s ∧ ∀ reply, w.answer = some reply → Names record.ref reply s) ∧
        known w) (fun _ _ ↦ True) pump (fun _ _ _ ↦ True) := by
    refine judged_pump (fun s t w hinv hwrite ↦ ?_) fun _ _ hinv ↦ hinv.1.1.named
    obtain ⟨hstep, hafter⟩ := resolving_write hinv.1 hwrite.sameSprints (hwrite.named hinv.1.1.named)
    exact ⟨hstep, hafter, hinv.2⟩
  exact hpump.keeping.weaken (fun _ _ _ hknown ↦ ⟨trivial, hknown⟩) fun _ _ _ _ hpost ↦ hpost.2

/-- The session is claimed and the answer not known. -/
def Unfinished (start : Store) (record : SprintRecord) (requestId : String) (row : PoRequest) (s : Store)
    (w : Acceptance) : Prop :=
  w.answer = none ∧ Claimed start record requestId row s

theorem resolves_queueSeed (row : PoRequest) (sessionId text seedId : String) :
    Resolves blind start record requestId (Unfinished start record requestId row) (queueSeed sessionId text seedId)
      (fun _ ↦ Unfinished start record requestId row) := by
  refine (judged_seeded seedId).bind fun _ ↦ .ite (fun _ ↦ judged_pure fun _ _ _ hpre ↦ hpre) fun _ ↦ ?_
  refine judged_call ?_
  rintro s _ _ _ hinv ⟨hans, hheld⟩ hput
  cases hput
  have hnamed := @Named.queued s hinv.1.named ⟨s.nextName, sessionId, text, seedId, .poService, none, none⟩ rfl
  have hsame : SameSprints s (s.queued ⟨s.nextName, sessionId, text, seedId, .poService, none, none⟩) :=
    ⟨rfl, rfl, fun _ ↦ rfl, fun _ ↦ Iff.rfl, fun _ ↦ Iff.rfl⟩
  obtain ⟨hstep, hafter⟩ := resolving_write hinv hsame hnamed
  exact ⟨hstep, hafter, hans, hheld.congr hsame⟩

theorem resolves_comment :
    Resolves blind start record requestId (Unfinished start record requestId row)
      (sprintWrite record.ref (requestId ++ ":comment") id) (fun _ ↦ Unfinished start record requestId row) := by
  refine judged_call ?_
  rintro _ _ _ _ hinv ⟨hans, hheld⟩ hwrite
  split_ifs at hwrite
  · cases hwrite
    exact ⟨hinv.1, hinv, hans, hheld⟩
  · rw [hheld.found] at hwrite
    cases hwrite
    have hsame := sameSprints_comment hheld.found requestId
    obtain ⟨hstep, hafter⟩ := resolving_write hinv hsame (hinv.1.named.congr rfl rfl rfl)
    exact ⟨hstep, hafter, hans, hheld.congr hsame⟩

theorem resolves_record :
    Resolves blind start record requestId (Unfinished start record requestId row)
      (sprintWrite record.ref (requestId ++ ":record") fun record ↦ { record with poSession := some row.sessionId })
      (fun _ s _ ↦ Recorded start record requestId row s) := by
  refine judged_call ?_
  rintro _ _ _ _ hinv ⟨hans, hheld⟩ hwrite
  rw [if_neg hheld.unwritten, hheld.found] at hwrite
  cases hwrite
  refine ⟨hinv.1.recorded hheld, ⟨hinv.1.recorded hheld, ?_⟩, hheld.recorded⟩
  rw [hans]
  exact nofun

/-- What is left of a resolve records the session that was claimed under the id, if the sprint does not. -/
theorem resolves_reseed (env : Env) (sprint : SprintRecord) :
    Resolves blind start record requestId
      (fun s w ↦ w.answer = none ∧ s.sprints.find record.ref = some sprint ∧ Opened start record requestId row s)
      (reseed env sprint row.sessionId requestId) (fun _ s _ ↦ Recorded start record requestId row s) := by
  -- Under its own claim the sprint is either the one of the start or has the ses.
  have hspr {s : Store} (hres : Resolving start record requestId s)
      (hfnd : s.sprints.find record.ref = some sprint) (hopen : Opened start record requestId row s) :
      Recorded start record requestId row s ∧ sprint = recordedSprint record row ∨
        Claimed start record requestId row s ∧ sprint = record := by
    cases hres.phase with
    | waiting hwait => exact absurd (hwait.unclaimed _ _ hopen.claimed hopen.bound) hopen.new
    | claimed o hheld =>
      obtain ⟨-, rfl⟩ := (hopen.only _ _ hheld.claimed hheld.bound).resolve_left hheld.new
      exact .inr ⟨hheld, Option.some.inj (hfnd.symm.trans hheld.found)⟩
    | recorded _ o hrec =>
      obtain ⟨rfl, rfl⟩ := (hopen.only _ _ hrec.claimed hrec.bound).resolve_left hrec.new
      exact .inl ⟨hrec, Option.some.inj (hfnd.symm.trans hrec.found)⟩
  refine .ite (fun hsame ↦ judged_pure ?_) fun hoth ↦ ?_
  · rintro s w hinv ⟨-, hfnd, hopen⟩
    rcases hspr hinv.1 hfnd hopen with ⟨hrec, -⟩ | ⟨-, rfl⟩
    · exact hrec
    · exact absurd hsame (hinv.1.poSession_ne hopen)
  · have hrecord {s : Store} (hres : Resolving start record requestId s)
        (hfnd : s.sprints.find record.ref = some sprint) (hopen : Opened start record requestId row s) :
        Claimed start record requestId row s ∧ sprint = record := by
      rcases hspr hres hfnd hopen with ⟨-, rfl⟩ | hheld
      · exact absurd rfl hoth
      · exact hheld
    refine (judged_lookup sprint.poSession).bind fun cur ↦ ?_
    refine .given (c := sprint = record ∧ ¬(cur.any (·.state = .opened)) = true) ?_ fun hgiven ↦ ?_
    · rintro s w hinv ⟨⟨-, hfnd, hopen⟩, rfl⟩
      obtain ⟨-, rfl⟩ := hrecord hinv.1 hfnd hopen
      refine ⟨rfl, fun hany ↦ ?_⟩
      cases hlook : s.lookup sprint.poSession with
      | none => exact nomatch hlook ▸ hany
      | some ses =>
        have hstate : ses.state = .opened := by simpa [hlook] using hany
        cases hstate.symm.trans (hinv.1.previous ses hlook)
    · obtain ⟨rfl, hshut⟩ := hgiven
      rw [if_neg hshut]
      refine .ask_bind fun _ ↦ ((resolves_queueSeed row _ _ _).bind fun _ ↦ ?_).pre ?_
      · exact resolves_comment.bind fun _ ↦ resolves_record
      · rintro s w hinv ⟨⟨hans, hfnd, hopen⟩, -⟩
        exact ⟨hans, (hrecord hinv.1 hfnd hopen).1⟩

theorem resolves_accepting {P : Store → Prop} :
    Resolves blind start record requestId (fun s w ↦ w.answer = none ∧ P s) accepting (fun _ s w ↦ w.answer = none ∧ P s) :=
  judged_accepting fun _ _ hinv hpre ↦ ⟨hinv, hpre⟩

/-- The answer to a resolve, once the sprint records the session. -/
theorem resolves_accepted (created repeated : Bool) :
    Resolves blind start record requestId (fun s _ ↦ Recorded start record requestId row s)
      (accepted (.sprintSession row.sessionId created repeated))
      (fun _ _ w ↦ w.answer = some (.sprintSession row.sessionId created repeated)) := by
  refine judged_accepted fun s w hinv hrec ↦ ⟨⟨hinv.1, ?_⟩, rfl⟩
  rintro _ hreply
  cases hreply
  exact hrec.names created repeated

theorem resolves_claimSession {cli model effort : String} {title : Option String}
    (hunused : Unused start record.ref requestId) :
    Resolves blind start record requestId
      (fun s w ↦ w.answer = none ∧ Waiting start record s ∧ s.requests.find requestId = none)
      (call (·.claimSession cli model effort title requestId (.sprint record.ref)))
      (fun answer s w ↦ w.answer = none ∧ s.sprints.find record.ref = some record ∧
        Opened start record requestId ⟨requestId, .sprint record.ref, answer.1.id, none⟩ s) := by
  refine judged_call ?_
  rintro _ _ _ _ hinv ⟨hans, hwait, hrow⟩ hclaim
  obtain ⟨rfl, rfl⟩ := claimSession_new hrow hclaim
  have hheld := hwait.claim hunused cli model effort title
  have hres := hinv.1.claim hwait hunused cli model effort title
  refine ⟨hres, ⟨hres, ?_⟩, hans, hheld.found, hheld.toOpened⟩
  rw [hans]
  exact nofun

/-- A sprint without an open session, and an id without a row: no session was opened for the sprint. -/
theorem Resolving.waiting {sprint : SprintRecord} (hres : Resolving start record requestId s)
    (hfnd : s.sprints.find record.ref = some sprint) (hrow : s.requests.find requestId = none)
    (hshut : (s.lookup sprint.poSession).filter (·.state = .opened) = none) :
    Waiting start record s ∧ sprint = record := by
  cases hres.phase with
  | waiting hwait => exact ⟨hwait, Option.some.inj (hfnd.symm.trans hwait.found)⟩
  | claimed row hheld => cases hrow.symm.trans hheld.claimed
  | recorded _ row hrec =>
    obtain ⟨ses, hlook, hstate⟩ := hrec.session
    cases hfnd.symm.trans hrec.found
    rw [recordedSprint, hlook] at hshut
    simp [hstate] at hshut

/-- A resolve under an id that owns nothing. -/
theorem resolves_resolveFresh (env : Env) (sprint : SprintRecord) (hunused : Unused start record.ref requestId) :
    Resolves blind start record requestId
      (fun s w ↦ w.answer = none ∧ s.sprints.find record.ref = some sprint ∧ s.requests.find requestId = none)
      (resolveFresh env sprint requestId) (fun reply s _ ↦ Names record.ref reply s) := by
  refine .ite (fun _ ↦ judged_throw) fun _ ↦ (judged_lookup sprint.poSession).bind fun prev ↦ ?_
  cases hopen : prev.filter (·.state = .opened) with
  | some ses =>
    refine judged_pure ?_
    rintro s w - ⟨⟨-, hfnd, -⟩, rfl⟩
    obtain ⟨hlook, -⟩ := Option.filter_eq_some_iff.mp hopen
    exact ⟨ses.id, false, false, sprint, rfl, hfnd, lookup_id hlook⟩
  | none =>
    refine .ask_bind fun efforts ↦ ?_
    rcases successorChoice env efforts prev with _ | ⟨_, _, _⟩
    · exact judged_throw
    · refine .effort_bind fun _ ↦ ?_
      refine .given (c := sprint = record) ?_ fun hspr ↦ ?_
      · rintro s w hinv ⟨⟨-, hfnd, hrow⟩, rfl⟩
        exact (hinv.1.waiting hfnd hrow hopen).2
      · subst hspr
        refine ((resolves_accepting (P := fun s ↦ Waiting start sprint s ∧
          s.requests.find requestId = none)).pre ?_).bind fun _ ↦ ?_
        · rintro s w hinv ⟨⟨hans, hfnd, hrow⟩, rfl⟩
          exact ⟨hans, (hinv.1.waiting hfnd hrow hopen).1, hrow⟩
        · refine (resolves_claimSession hunused).bind fun answer ↦ ?_
          refine (resolves_reseed env sprint).bind fun _ ↦ (resolves_accepted true false).bind fun _ ↦ ?_
          refine (resolves_pump _).bind fun _ ↦ judged_pure ?_
          exact fun s w hinv hans ↦ hinv.2 _ hans

theorem resolves_sprintSession (env : Env) {sprintRef : String} (hspr : stripped sprintRef = record.ref)
    {requestId : String} (hunused : Unused start record.ref (stripped requestId)) :
    Resolves blind start record (stripped requestId) (fun _ w ↦ w.answer = none) (sprintSession env sprintRef requestId)
      (fun reply s _ ↦ Names record.ref reply s) := by
  refine .required_bind fun _ ↦ Judged.required_bind fun _ ↦ ?_
  rw [hspr]
  refine (judged_reserve _ _).bind fun k ↦ (judged_ask _).bind fun sp ↦ ?_
  cases sp with
  | none => exact judged_throw
  | some sp =>
    rcases k with _ | ⟨row⟩ | ⟨_⟩
    · refine (resolves_resolveFresh env sp hunused).pre ?_
      rintro s w - ⟨⟨hans, hresv⟩, hfnd⟩
      exact ⟨hans, Except.ok.inj hfnd, hresv.row_eq_none⟩
    · have hpre {s : Store} (hphase : Phase start record (stripped requestId) s)
          (hrow : s.requests.find (stripped requestId) = some row) (hbound : row.fingerprint = .sprint record.ref) :
          Opened start record (stripped requestId) row s := by
        cases hphase with
        | waiting hwait => exact absurd hbound (hunused.unclaimed _ (hwait.unclaimed _ _ hrow hbound))
        | claimed o hheld =>
          obtain ⟨-, rfl⟩ := (hheld.only _ _ hrow hbound).resolve_left fun hold ↦ hunused.unclaimed _ hold hbound
          exact hheld.toOpened
        | recorded _ o hrec =>
          obtain ⟨rfl, rfl⟩ := (hrec.only _ _ hrow hbound).resolve_left fun hold ↦ hunused.unclaimed _ hold hbound
          exact hrec.toOpened
      refine ((resolves_accepting (P := fun s ↦ s.sprints.find record.ref = some sp ∧
        Opened start record (stripped requestId) row s)).pre ?_).bind fun _ ↦ ?_
      · rintro s w hinv ⟨⟨hans, hresv⟩, hfnd⟩
        cases hresv with
        | row hrow hbound => exact ⟨hans, Except.ok.inj hfnd, hpre hinv.1.phase hrow hbound⟩
      · refine (resolves_reseed env sp).bind fun _ ↦ (resolves_accepted true true).bind fun _ ↦ judged_pure ?_
        exact fun s w hinv hans ↦ hinv.2 _ hans
    · refine (resolves_resolveFresh env sp hunused).pre ?_
      rintro s w - ⟨⟨-, hresv⟩, -⟩
      cases hresv with
      | queued _ _ hsame => cases hsame

end Programs

/-! ### Histories -/

/-- Nothing but the id that a session was claimed under since the start comes between the claim and the record. -/
def Serial (start : Store) (ref : String) (s : Store) (requestId : String) : Prop :=
  ∀ claimId row, s.requests.find claimId = some row → row.fingerprint = .sprint ref →
    start.requests.find claimId = some row ∨ claimId = requestId ∨
      ∃ sprint, s.sprints.find ref = some sprint ∧ sprint.poSession = some row.sessionId

/-- What may happen while the sprint's session is resolved: a resolve, a pump, and the end of a turn. -/
inductive Allowed (start : Store) (ref : String) (s : Store) : Event → Prop
  | resolve {sprintRef requestId : String} (hsprint : stripped sprintRef = ref)
      (hunused : Unused start ref (stripped requestId)) (hserial : Serial start ref s (stripped requestId)) :
      Allowed start ref s (.request (.sprintSession sprintRef requestId))
  | pump : Allowed start ref s .pump
  | settle {sessionId : String} {seq : ℕ} {state : TurnState} : Allowed start ref s (.settle sessionId seq state)

/-- A call that fails does not say that there is no such session. -/
def Mishaps.Calm (mishaps : Mishaps) : Prop :=
  ∀ fault, some fault ∈ mishaps.faults → ∀ message, fault.error ≠ .sessionNotFound message

/-- The event may happen, and the calls that fail are calm. -/
def Serialized (start : Store) (ref : String) (s : Store) (input : Event × Mishaps) : Prop :=
  Allowed start ref s input.1 ∧ input.2.Calm

section Histories

theorem Unresolved.resolving (hstart : Unresolved start record) (requestId : String) :
    Resolving start record requestId start := by
  refine ⟨hstart.named, hstart.previous, hstart.fresh,
    .waiting ⟨fun _ _ hrow _ ↦ hrow, ?_, hstart.found, fun _ hwrote ↦ hwrote⟩⟩
  intro _ hsess
  rw [(mem_rows_iff _ _).mp hsess]
  rfl

/-- A serial request takes over the claim of the one before. -/
theorem Resolving.takeOver (hres : Resolving start record requestId s) {nextId : String}
    (hserial : Serial start record.ref s nextId) : Resolving start record nextId s := by
  refine ⟨hres.named, hres.previous, hres.fresh, ?_⟩
  cases hres.phase with
  | waiting hwait => exact .waiting hwait
  | recorded claimId row hrec => exact .recorded claimId row hrec
  | claimed row hheld =>
    rcases hserial requestId row hheld.claimed hheld.bound with hold | rfl | ⟨_, hfnd, hsess⟩
    · exact absurd hold hheld.new
    · exact .claimed row hheld
    · cases hheld.found.symm.trans hfnd
      exact absurd hsess (hres.poSession_ne hheld.toOpened)

theorem answer_of_raised {w : Acceptance} {error : PoError} {reply : Reply} (hok : raisedAnswer w error = .ok reply) :
    w.answer = some reply := by
  unfold raisedAnswer at hok
  split at hok
  next hans => exact Answer.ok.inj hok ▸ hans
  next =>
    split_ifs at hok
    exact absurd hok (refusal_ne_ok _ _ _)

variable (env : Env) (sessionTitle : String → Except PoError (Option String)) {mishaps : Mishaps}

theorem handle_names {sprintRef : String} (hspr : stripped sprintRef = record.ref)
    (hunused : Unused start record.ref (stripped requestId)) (hres : Resolving start record (stripped requestId) s)
    (hcalm : mishaps.Calm) :
    Meets (fun _ t ↦ Resolving start record (stripped requestId) t)
      (handle env sessionTitle (.sprintSession sprintRef requestId))
      (fun result finish _ ↦ (∃ answer, result = .ok answer) ∧
        ∀ reply, result = .ok (.ok reply) → Names record.ref reply finish) s (Memory.start mishaps) := by
  have hrun := @resolves_sprintSession start record mishaps.unreadable env sprintRef hspr requestId hunused s
    (Memory.start mishaps) ⟨⟨rfl, hcalm⟩, hres, by rintro _ ⟨⟩⟩ rfl
  simp only [handle, answerIdOperation, meets_tryCatch, meets_bind]
  refine hrun.mono ?_
  rintro result _ _ ⟨⟨-, -, hans⟩, hpost⟩
  cases result with
  | ok reply =>
    simp only [meets_pure]
    refine ⟨⟨_, rfl⟩, fun _ hoth ↦ ?_⟩
    cases hoth
    exact hpost reply rfl
  | error error =>
    simp only [meets_remembered, meets_pure]
    exact ⟨⟨_, rfl⟩, fun reply hreply ↦ hans reply (answer_of_raised (Except.ok.inj hreply))⟩

/-- The sprint's session is resolved under some id. -/
def InProgress (start : Store) (record : SprintRecord) (s : Store) : Prop :=
  ∃ requestId, Resolving start record requestId s

theorem tick_inProgress (hprog : InProgress start record s) {input : Event × Mishaps}
    (hallow : Serialized start record.ref s input) :
    (s :: (tick env sessionTitle input s (Memory.start {})).writes).IsChain fun _ t ↦ InProgress start record t := by
  obtain ⟨claimId, hres⟩ := hprog
  obtain ⟨ev, mishaps⟩ := input
  obtain ⟨hevent, hcalm⟩ := hallow
  have hchain {ev : Event} (requestId : String) {Q : Except PoError Unit → Store → Memory → Prop}
      (hmeets : Meets (fun _ t ↦ Resolving start record requestId t) (ev.program env sessionTitle) Q s
        (Memory.start mishaps)) :
      (s :: (tick env sessionTitle (ev, mishaps) s (Memory.start {})).writes).IsChain
        fun _ t ↦ InProgress start record t :=
    hmeets.1.imp fun _ _ hnext ↦ ⟨requestId, hnext⟩
  have hstart : (calm mishaps.unreadable).Admits (Memory.start mishaps) ∧ Resolving start record claimId s ∧
      ∀ reply, (Memory.start mishaps).acceptance.answer = some reply → Names record.ref reply s :=
    ⟨⟨rfl, hcalm⟩, hres, by rintro _ ⟨⟩⟩
  cases hevent with
  | @resolve sprintRef requestId hspr hunused hserial =>
    refine hchain (stripped requestId) (Q := fun _ _ _ ↦ True) ?_
    simp only [Event.program, meets_bind]
    refine (handle_names env sessionTitle hspr hunused (hres.takeOver hserial) hcalm).mono ?_
    rintro _ _ _ ⟨⟨ans, rfl⟩, -⟩
    simp
  | pump => exact hchain claimId (resolves_pump (fun _ ↦ True) s (Memory.start mishaps) hstart trivial)
  | @settle sessionId seq state =>
    have hset : Resolves mishaps.unreadable start record claimId (fun _ _ ↦ True)
        (call fun store ↦ .ok ((), store.settleTurn sessionId seq state)) (fun _ _ _ ↦ True) := by
      refine judged_call ?_
      rintro s _ ans _ hinv - hrun
      cases hrun
      have hsame : SameSprints s (s.settleTurn sessionId seq state) :=
        ⟨rfl, rfl, fun _ ↦ rfl, fun _ ↦ Iff.rfl, fun _ ↦ Iff.rfl⟩
      obtain ⟨hstep, hafter⟩ := resolving_write hinv hsame (hinv.1.named.congr rfl rfl rfl)
      exact ⟨hstep, hafter, trivial⟩
    exact hchain claimId (hset s (Memory.start mishaps) hstart trivial)

theorem storeAfter_inProgress {history : List ((Event × Mishaps) × Option ℕ)}
    (hhist : Admitted (tick env sessionTitle) (fun _ ↦ Memory.start {}) (Serialized start record.ref) s history)
    (hprog : InProgress start record s) : InProgress start record (storeAfter env sessionTitle s history) := by
  induction history generalizing s with
  | nil => exact hprog
  | cons attempt _ ih =>
    obtain ⟨hallow, hrest⟩ := hhist
    refine ih hrest ?_
    refine crashStep_invariant (InProgress start record) attempt hprog ?_ fun _ _ _ hnext ↦ hnext
    exact tick_inProgress env sessionTitle hprog hallow

/-- A sprint gets one fresh session, and every ok answer names the session that it records, if every resolve
that comes between a claim and its record carries the id of the claim, and none repeats an id under which a
session was claimed for the sprint before. -/
theorem handle_sprintSession_single (hstart : Unresolved start record) {history : List ((Event × Mishaps) × Option ℕ)}
    (hhistory : Admitted (tick env sessionTitle) (fun _ ↦ Memory.start {}) (Serialized start record.ref) start history)
    {sprintRef requestId : String} (hsprint : stripped sprintRef = record.ref)
    (hunused : Unused start record.ref (stripped requestId))
    (hserial : Serial start record.ref (storeAfter env sessionTitle start history) (stripped requestId))
    (hcalm : mishaps.Calm) :
    let s := storeAfter env sessionTitle start history
    (∀ first ∈ s.sessions.rows, ∀ second ∈ s.sessions.rows, start.sessions.find first.id = none →
        start.sessions.find second.id = none → first = second) ∧
      ∀ reply, (handle env sessionTitle (.sprintSession sprintRef requestId) s (Memory.start mishaps)).result =
          .ok (.ok reply) →
        Names record.ref reply
          ((handle env sessionTitle (.sprintSession sprintRef requestId)).final s (Memory.start mishaps)) := by
  intro s
  obtain ⟨claimId, hres⟩ : InProgress start record s :=
    storeAfter_inProgress env sessionTitle hhistory ⟨requestId, hstart.resolving requestId⟩
  refine ⟨fun _ hfst _ hsnd ↦ hres.phase.single hfst hsnd, ?_⟩
  exact (handle_names env sessionTitle hsprint hunused (hres.takeOver hserial) hcalm).2.2

end Histories

/-! ### Two ids -/

/-- An open sprint without a session. -/
def bareSprint : SprintRecord := { ref := "s1", status := .opened, poSession := none }

def bareStore : Store := Store.initial ((KeyedTable.empty SprintRecord.ref).put bareSprint)

theorem bareStore_unresolved : Unresolved bareStore bareSprint where
  named := initial_named _
  found := find_put_self _ _
  status := rfl
  previous := by rintro _ ⟨⟩
  fresh _ _ := ⟨rfl, by rintro ⟨⟩⟩

theorem bareStore_unused (requestId : String) : Unused bareStore bareSprint.ref requestId :=
  ⟨by rintro _ ⟨⟩, List.not_mem_nil⟩

/-- A resolve whose seed cannot be queued: the eleventh call fails. -/
def seedFails (requestId : String) : (Event × Mishaps) × Option ℕ :=
  ((.request (.sprintSession "s1" requestId),
    { faults := List.replicate 10 none ++ [some (.before (.queue "no space left"))] }), none)

theorem serial_of_rows {ref : String} (hrows : ∀ row ∈ s.requests.rows, row.requestId = requestId) :
    Serial start ref s requestId := by
  intro _ row hfind _
  have hkey := key_of_find hfind
  subst hkey
  exact .inr (.inl (hrows row ((mem_rows_iff _ _).mpr hfind)))

/-- The first resolve stops after its claim, and the same id goes on. -/
theorem handle_sprintSession_single_witness :
    let s := storeAfter smallEnv (fun _ ↦ .ok none) bareStore [seedFails "a"]
    let run := handle smallEnv (fun _ ↦ .ok none) (.sprintSession "s1" "a")
    s.sessions.rows.map (·.id) = ["po-0"] ∧ (s.sprints.find "s1").map (·.poSession) = some none ∧
      (run s (Memory.start {})).result = .ok (.ok (.sprintSession "po-0" true true)) ∧
      Names "s1" (.sprintSession "po-0" true true) (run.final s (Memory.start {})) := by
  have hhist : Admitted (tick smallEnv fun _ ↦ .ok none) (fun _ ↦ Memory.start {}) (Serialized bareStore bareSprint.ref)
      bareStore [seedFails "a"] := by
    refine ⟨⟨.resolve (by decide +kernel) (bareStore_unused _) (serial_of_rows (by decide +kernel)), ?_⟩, trivial⟩
    simp [Mishaps.Calm, seedFails, Fault.error]
  have hcalm : Mishaps.Calm {} := by simp [Mishaps.Calm]
  refine ⟨by decide +kernel, by decide +kernel, by decide +kernel, ?_⟩
  exact (handle_sprintSession_single smallEnv (fun _ ↦ .ok none) bareStore_unresolved hhist (by decide +kernel)
    (bareStore_unused _) (serial_of_rows (by decide +kernel)) hcalm).2 _ (by decide +kernel)

/-- The first resolve stops after its claim, and another id goes on: the sprint gets two sessions, and the first
id is then answered with the one that the sprint does not record. -/
theorem handle_sprintSession_twoIds :
    let s := storeAfter smallEnv (fun _ ↦ .ok none) bareStore
      [seedFails "a", ((.request (.sprintSession "s1" "b"), {}), none)]
    let run := handle smallEnv (fun _ ↦ .ok none) (.sprintSession "s1" "a")
    Unresolved bareStore bareSprint ∧ s.sessions.rows.map (·.id) = ["po-0", "po-1"] ∧
      (run s (Memory.start {})).result = .ok (.ok (.sprintSession "po-0" true true)) ∧
      ((run.final s (Memory.start {})).sprints.find "s1").map (·.poSession) = some (some "po-1") :=
  ⟨bareStore_unresolved, by decide +kernel, by decide +kernel, by decide +kernel⟩

end Ummanu.Po
