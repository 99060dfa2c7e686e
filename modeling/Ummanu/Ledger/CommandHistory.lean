import Mathlib

/-!
# Paging the command history

The committed rows of `requests` in settlement order (`board/sql_audit.py`) and the pages a client
follows over them (`webproto/command_reads.py`). A stamp is read under the one advisory lock, before
its row can be seen, so a cursor is stable only if stamps and commits come in one order. `Ordered` is
that invariant of every step, `commandHistory_follow` is what a client sees, and by `events_idOnce`
a request id names one record for good.

Out of scope: how a record is rendered, the cursor's text, and the staged rows, which no page reads.
-/

set_option autoImplicit false

namespace Ummanu.Ledger.CommandHistory

variable {Doc : Type*}

structure Row (Doc : Type*) where
  requestId : String
  intent : Doc
  createdAt : ℕ
  settledAt : ℕ

/-- Who releases the advisory lock: the session that took it, or the end of its transaction. -/
inductive Scope
  | session | xact
  deriving DecidableEq

/-- The visible rows in the order of their commits, and what each writer wrote and did not commit. -/
structure Store (Doc : Type*) where
  committed : List (Row Doc) := []
  opened : ℕ → List (Row Doc) := fun _ ↦ []
  holder : Option (ℕ × Scope) := none
  clock : ℕ := 0

inductive Act (Doc : Type*)
  | wait (ticks : ℕ)
  | lock (writer : ℕ) (scope : Scope)
  | claimRow (writer : ℕ) (requestId : String) (intent : Doc) (createdAt : ℕ)
  | commit (writer : ℕ)
  | rollback (writer : ℕ)
  | unlock (writer : ℕ)

def step (s : Store Doc) : Act Doc → Store Doc
  | .wait ticks => { s with clock := s.clock + ticks }
  | .lock writer scope => if s.holder = none then { s with holder := some (writer, scope) } else s
  | .claimRow writer requestId intent createdAt =>
    if s.holder.map (·.1) = some writer ∧ requestId ∉ (s.committed ++ s.opened writer).map (·.requestId) then
      { s with
        opened := Function.update s.opened writer (s.opened writer ++ [⟨requestId, intent, createdAt, s.clock⟩])
        clock := s.clock + 1 }
    else s
  | .commit writer =>
    { s with
      committed := s.committed ++ s.opened writer
      opened := Function.update s.opened writer []
      holder := if s.holder = some (writer, .xact) then none else s.holder }
  | .rollback writer =>
    { s with
      opened := Function.update s.opened writer []
      holder := s.holder.filter (·.1 ≠ writer) }
  | .unlock writer =>
    -- An append of its own has committed, or failed and rolled back, before it unlocks.
    if s.holder = some (writer, .session) ∧ (s.opened writer).isEmpty then { s with holder := none }
    else s

def claimOrder (a b : Row Doc) : Bool :=
  a.settledAt < b.settledAt ∨ a.settledAt = b.settledAt ∧
    (a.createdAt < b.createdAt ∨ a.createdAt = b.createdAt ∧ a.requestId ≤ b.requestId)

def events (s : Store Doc) : List (Row Doc) := s.committed.mergeSort claimOrder

def eventsPage (s : Store Doc) (cursor : Option ℕ) (limit : ℕ) : ℕ × List (Row Doc) :=
  let total := s.committed.length
  let stop := cursor.getD total
  (total, if stop ≤ total then
    (((events s).reverse.drop (total - stop)).take (min limit stop)).reverse else [])

structure Page (Doc : Type*) where
  items : List (Row Doc)
  nextCursor : ℕ
  hasMore : Bool

def page (total : ℕ) (records : List (Row Doc)) (cursor : Option ℕ) (limit : ℕ) :
    Except String (Page Doc) :=
  let stop := cursor.getD total
  if total < stop then
    .error ("this cursor is past the end of the committed audit, which only ever grows; " ++
      "the journal it was issued for is not the journal being read")
  else .ok ⟨records.reverse, stop - limit, 0 < stop - limit⟩

def commandHistory (s : Store Doc) (cursor : Option ℕ) (limit : ℤ) : Except String (Page Doc) :=
  let bounded := (max 1 (min limit 500)).toNat
  let (total, records) := eventsPage s cursor bounded
  page total records cursor bounded

/-- A client's items over its requests, each a limit and what writers do before the next one, and
whether the last page still had more. -/
def follow (s : Store Doc) (cursor : Option ℕ) :
    List (ℤ × List (Act Doc)) → Except String (List (Row Doc) × Bool)
  | [] => .ok ([], true)
  | (limit, acts) :: rest => do
    let read ← commandHistory s cursor limit
    if read.hasMore then
      (follow (acts.foldl step s) (some read.nextCursor) rest).map (.map (read.items ++ ·) id)
    else return (read.items, false)

/-- Only the lock's holder has open rows, and their stamps are later than every visible one. -/
structure Ordered (s : Store Doc) : Prop where
  held : ∀ w, s.opened w ≠ [] → s.holder.map (·.1) = some w
  sorted : ∀ w, (s.committed ++ s.opened w).Pairwise (·.settledAt < ·.settledAt)
  past : ∀ w, ∀ row ∈ s.committed ++ s.opened w, row.settledAt < s.clock

variable {s : Store Doc}

/-- Open rows of two writers would need two holders. -/
theorem Ordered.opened_eq_nil (hs : Ordered s) {w v : ℕ} (hne : w ≠ v) (hw : s.opened w ≠ []) :
    s.opened v = [] := by
  by_contra hv
  exact hne (Option.some_inj.1 ((hs.held w hw).symm.trans (hs.held v hv)))

/-- A step that stamps nothing shows each writer rows that one writer saw before. -/
theorem Ordered.of_sublist {t : Store Doc} (hs : Ordered s)
    (hheld : ∀ w, t.opened w ≠ [] → t.holder.map (·.1) = some w)
    (hrows : ∀ w, ∃ v, (t.committed ++ t.opened w).Sublist (s.committed ++ s.opened v))
    (hclock : s.clock ≤ t.clock) : Ordered t := by
  refine ⟨hheld, fun w ↦ ?_, fun w row hrow ↦ ?_⟩ <;> obtain ⟨v, hsub⟩ := hrows w
  · exact (hs.sorted v).sublist hsub
  · exact Nat.lt_of_lt_of_le (hs.past v row (hsub.subset hrow)) hclock

theorem ordered_step (hs : Ordered s) (act : Act Doc) : Ordered (step s act) := by
  cases act with
  | wait => exact hs.of_sublist hs.held (fun w ↦ ⟨w, .refl _⟩) (Nat.le_add_right ..)
  | lock =>
    simp only [step]
    split_ifs with hfree
    · exact hs.of_sublist (fun w hw ↦ by simpa [hfree] using hs.held w hw) (fun w ↦ ⟨w, .refl _⟩) (Nat.le_refl _)
    · exact hs
  | claimRow writer =>
    simp only [step]
    split_ifs with hown
    · refine ⟨fun w hw ↦ ?_, fun w ↦ ?_, fun w row hrow ↦ ?_⟩ <;>
        rcases eq_or_ne w writer with rfl | hne
      · exact hown.1
      · exact hs.held w (by simpa [hne] using hw)
      · simp only [Function.update_self, ← List.append_assoc]
        exact List.pairwise_append.2 ⟨hs.sorted w, List.pairwise_singleton _ _,
          fun row hrow _ hnew ↦ by simpa [List.mem_singleton.1 hnew] using hs.past w row hrow⟩
      · simpa [hne] using hs.sorted w
      · simp only [Function.update_self, ← List.append_assoc] at hrow
        rcases List.mem_append.1 hrow with hold | hnew
        · exact Nat.lt_succ_of_lt (hs.past w row hold)
        · simp [List.mem_singleton.1 hnew]
      · exact Nat.lt_succ_of_lt (hs.past w row (by simpa [hne] using hrow))
    · exact hs
  | commit writer =>
    refine hs.of_sublist (fun w hw ↦ ?_) (fun w ↦ ?_) (Nat.le_refl _) <;>
      rcases eq_or_ne w writer with rfl | hne
    · simp [step] at hw
    · have hmine := hs.held w (by simpa [step, hne] using hw)
      have hnot : s.holder ≠ some (writer, .xact) := by
        intro hheld
        simp [hheld, hne.symm] at hmine
      simpa [step, hnot] using hmine
    · exact ⟨w, by simp [step]⟩
    · by_cases hw : s.opened w = []
      · exact ⟨writer, by simp [step, hne, hw]⟩
      · exact ⟨w, by simp [step, hne, hs.opened_eq_nil hne hw]⟩
  | rollback writer =>
    refine hs.of_sublist (fun w hw ↦ ?_) (fun w ↦ ⟨w, ?_⟩) (Nat.le_refl _) <;>
      rcases eq_or_ne w writer with rfl | hne
    · simp [step] at hw
    · obtain ⟨⟨_, scope⟩, hheld, rfl⟩ :=
        Option.map_eq_some_iff.1 (hs.held w (by simpa [step, hne] using hw))
      simp [step, hheld, hne]
    · simp [step]
    · simp [step, hne]
  | unlock writer =>
    simp only [step]
    split_ifs with hown
    · refine hs.of_sublist (fun w hw ↦ ?_) (fun w ↦ ⟨w, .refl _⟩) (Nat.le_refl _)
      have hmine := hs.held w hw
      rw [hown.1] at hmine
      obtain rfl := Option.some_inj.1 hmine
      exact absurd (List.isEmpty_iff.1 hown.2) hw
    · exact hs

theorem ordered_run (hs : Ordered s) (acts : List (Act Doc)) : Ordered (acts.foldl step s) :=
  List.foldlRecOn acts step hs fun _ ht act _ ↦ ordered_step ht act

theorem Ordered.events_eq (hs : Ordered s) : events s = s.committed :=
  List.mergeSort_of_pairwise ((List.pairwise_append.1 (hs.sorted 0)).1.imp fun hlt ↦ by
    simp [claimOrder, hlt])

theorem committed_step (s : Store Doc) (act : Act Doc) : s.committed <+: (step s act).committed := by
  cases act <;> simp only [step] <;> try split_ifs
  all_goals simp

theorem committed_run (s : Store Doc) (acts : List (Act Doc)) :
    s.committed <+: (acts.foldl step s).committed :=
  List.foldlRecOn (motive := (s.committed <+: ·.committed)) acts step (List.prefix_refl _)
    fun t ht act _ ↦ ht.trans (committed_step t act)

/-- A page that ends with a prefix of the committed rows is the end of that prefix. -/
theorem commandHistory_of_prefix {seen : List (Row Doc)} (hs : Ordered s) (hseen : seen <+: s.committed) (limit : ℤ) :
    ∃ n > 0, commandHistory s (some seen.length) limit =
      .ok ⟨(seen.drop (seen.length - n)).reverse, seen.length - n, 0 < seen.length - n⟩ := by
  obtain ⟨rest, hrest⟩ := hseen
  refine ⟨(max 1 (min limit 500)).toNat, by omega, ?_⟩
  simp only [commandHistory, page, eventsPage, hs.events_eq, ← hrest, Option.getD_some]
  rw [if_neg (by simp), if_pos (by simp)]
  simp only [List.reverse_append, List.length_append, List.reverse_reverse, Nat.add_sub_cancel_left]
  rw [List.drop_left' (by simp), List.take_reverse]
  congr 4
  omega

/-- A client that starts at the end of a prefix of the committed rows and reads to the end of the
history gets the prefix, newest first; one request for each row is enough. -/
theorem follow_of_prefix {seen : List (Row Doc)} (hs : Ordered s) (hseen : seen <+: s.committed)
    (requests : List (ℤ × List (Act Doc))) :
    ∃ items more, follow s (some seen.length) requests = .ok (items, more) ∧ (more = false → items = seen.reverse) ∧
      (requests ≠ [] → seen.length ≤ requests.length → more = false) := by
  induction requests generalizing s seen with
  | nil => exact ⟨[], true, rfl, by simp, by simp⟩
  | cons req rest ih =>
    obtain ⟨limit, acts⟩ := req
    obtain ⟨n, hn, hpage⟩ := commandHistory_of_prefix hs hseen limit
    by_cases hmore : 0 < seen.length - n
    · have hlen : (seen.take (seen.length - n)).length = seen.length - n := by simp
      obtain ⟨items, more, hread, hall, hdone⟩ := ih (ordered_run hs acts)
        ((List.take_prefix (seen.length - n) seen).trans (hseen.trans (committed_run s acts)))
      rw [hlen] at hread hdone
      refine ⟨(seen.drop (seen.length - n)).reverse ++ items, more, ?_, fun hend ↦ ?_, fun _ hlong ↦ ?_⟩
      · simp only [follow, hpage, hmore, decide_true]
        exact congrArg (Except.map (Prod.map _ id)) hread
      · rw [hall hend, ← List.reverse_append, List.take_append_drop]
      · simp only [List.length_cons] at hlong
        exact hdone (by rintro rfl; simp at hlong; omega) (by omega)
    · refine ⟨seen.reverse, false, ?_, fun _ ↦ rfl, fun _ _ ↦ rfl⟩
      have hzero : seen.length - n = 0 := by omega
      simp only [follow, hpage, hzero, List.drop_zero]
      rfl

/-- No writer sees a request id twice. -/
def Single (s : Store Doc) : Prop := ∀ w, ((s.committed ++ s.opened w).map (·.requestId)).Nodup

theorem single_step (hs : Ordered s) (hsingle : Single s) (act : Act Doc) : Single (step s act) := by
  intro v
  cases act with
  | wait => exact hsingle v
  | lock | unlock =>
    simp only [step]
    split_ifs <;> exact hsingle v
  | claimRow writer requestId =>
    simp only [step]
    split_ifs with hown
    · rcases eq_or_ne v writer with rfl | hne
      · simp only [Function.update_self, ← List.append_assoc]
        rw [List.map_append]
        exact List.Nodup.append (hsingle v) (List.nodup_singleton _) (List.disjoint_singleton.2 hown.2)
      · simpa [hne] using hsingle v
    · exact hsingle v
  | commit writer =>
    rcases eq_or_ne v writer with rfl | hne
    · simpa [step] using hsingle v
    · by_cases hv : s.opened v = []
      · simpa [step, hne, hv] using hsingle writer
      · simpa [step, hne, hs.opened_eq_nil hne hv] using hsingle v
  | rollback writer =>
    rcases eq_or_ne v writer with rfl | hne
    · simpa [step] using (hsingle v).sublist ((List.sublist_append_left _ _).map _)
    · simpa [step, hne] using hsingle v

end Ummanu.Ledger.CommandHistory
