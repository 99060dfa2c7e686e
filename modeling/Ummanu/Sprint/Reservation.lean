import Ummanu.Library.Texts
import Ummanu.Sprint.Close

/-!
# The index of reserved projects

Which open sprints reserve a project is kept in a file of its own, so that a write need not read the board. The
module embeds `SprintReservationIndex` and `update_active_sprint_projects`, which takes one sprint out of the
index and puts it back as it now stands. `updates_eq_rebuild` says that after any writes the file is the one
that `from_sprints` would write of all sprints, and `updates_lookup` what it lists.

An index is a set of pairs of a project and a sprint that guards it, written down in order: `ofPairs` is that
writing, and every operation of the index is one on the set. The file is its JSON value; an item of it that is
no string is read as its text.
-/

set_option autoImplicit false

namespace Ummanu.Sprint

open Library

structure SprintAdmission where
  ref : String
  product : String := ""
  reservations : List String := []
  repositories : List String := []
  state : Option SprintState := some .opened
  deriving DecidableEq

def SprintAdmission.isOpen (sprint : SprintAdmission) : Bool := sprint.state = some .opened

/-- `project.strip()`. -/
def stripText (text : String) : String := String.ofList (strip text.toList)

def SprintAdmission.guardProjects (sprint : SprintAdmission) : List String :=
  sortedSet ((sprint.reservations.map stripText).filter (· ≠ ""))

/-- `SprintReservationIndex`: its `entries`. -/
abbrev ReservationIndex := List (String × List String)

namespace ReservationIndex

def refsOf (index : ReservationIndex) (project : String) : List String := (index.lookup project).getD []

/-- `with_sprint`. The new entries are the sorted items of the dictionary that the sprint was entered in. -/
def withSprint (index : ReservationIndex) (sprint : SprintAdmission) : ReservationIndex :=
  if sprint.ref = "" ∨ sprint.isOpen = false then index
  else
    (sortedSet (index.map (·.1) ++ sprint.guardProjects)).map fun project ↦
      (project, if project ∈ sprint.guardProjects then sortedSet (index.refsOf project ++ [sprint.ref])
        else index.refsOf project)

def withoutSprint (index : ReservationIndex) (reference : String) : ReservationIndex :=
  (index.map fun entry ↦ (entry.1, entry.2.filter (· ≠ reference))).filter (·.2 ≠ [])

def fromSprints (sprints : List SprintAdmission) : ReservationIndex := sprints.foldl withSprint []

/-- `to_document` under the version of the guard index. -/
def toDocument (index : ReservationIndex) : Json :=
  .obj [("version", .num "2"), ("projects", .obj (index.map fun entry ↦ (entry.1, .arr (entry.2.map .str))))]

/-- `str` of an item. Of an array or an object, which Python writes with its own quotes, it is the JSON text. -/
def itemText : Json → String
  | .str text => text
  | .null => "None"
  | .bool value => if value then "True" else "False"
  | other => other.render

/-- One member of the document, unless it is passed over. -/
def readEntry : String × Json → Option (String × List String)
  | (project, .arr items) =>
    if project = "" then none else some (project, sortedSet ((items.map itemText).filter (· ≠ "")))
  | _ => none

def fromDocument (value : Json) : Option ReservationIndex :=
  if value.get "version" = .num "2" then
    match value.get "projects" with
    | .obj members => some ((members.filterMap readEntry).insertionSort (·.1 ≤ ·.1))
    | _ => none
  else none

end ReservationIndex

open ReservationIndex

/-- `update_active_sprint_projects` on the file, if there is one. A file of another kind is removed, for the board
to be read again. -/
def updateActiveSprintProjects (file : Option Json) (sprint : SprintAdmission) : Option Json :=
  match file, file.bind fromDocument with
  | some _, none => none
  | _, index => some (((index.getD []).withoutSprint sprint.ref).withSprint sprint).toDocument

/-- A sprint as it stands after a write. -/
def writeSprint (sprints : List SprintAdmission) (sprint : SprintAdmission) : List SprintAdmission :=
  sprints.filter (·.ref ≠ sprint.ref) ++ [sprint]

/-! ### Pairs in order -/

theorem sortedSet_eq (texts : List String) : sortedSet texts = texts.toFinset.sort (· ≤ ·) := by
  refine List.Perm.eq_of_pairwise (fun _ _ _ _ ↦ le_antisymm) (List.pairwise_insertionSort _ _)
    (Finset.pairwise_sort _ _) ((List.perm_insertionSort _ _).trans ?_)
  exact (List.perm_ext_iff_of_nodup texts.nodup_dedup (Finset.sort_nodup _ _)).mpr (by simp)

/-- The sprints that guard a project. -/
def refsAt (pairs : Finset (String × String)) (project : String) : Finset String :=
  (pairs.filter (·.1 = project)).image (·.2)

theorem mem_refsAt {pairs : Finset (String × String)} {project ref : String} :
    ref ∈ refsAt pairs project ↔ (project, ref) ∈ pairs := by
  simp [refsAt]

/-- The index of a set of pairs. -/
def ofPairs (pairs : Finset (String × String)) : ReservationIndex :=
  ((pairs.image (·.1)).sort (· ≤ ·)).map fun project ↦ (project, (refsAt pairs project).sort (· ≤ ·))

variable {pairs : Finset (String × String)}

theorem map_fst_ofPairs : (ofPairs pairs).map (·.1) = (pairs.image (·.1)).sort (· ≤ ·) := by
  rw [ofPairs, List.map_map]
  exact List.map_id _

theorem sort_refsAt_eq_nil {project : String} :
    (refsAt pairs project).sort (· ≤ ·) = [] ↔ project ∉ pairs.image (·.1) := by
  rw [← List.toFinset_eq_empty_iff, Finset.sort_toFinset, refsAt, Finset.image_eq_empty, Finset.filter_eq_empty_iff]
  simp only [Finset.mem_image, not_exists, not_and]

theorem refsOf_ofPairs (project : String) : (ofPairs pairs).refsOf project = (refsAt pairs project).sort (· ≤ ·) := by
  have hfind (projects : List String) (f : String → List String) :
      (projects.map fun project ↦ (project, f project)).lookup project =
        if project ∈ projects then some (f project) else none := by
    induction projects with
    | nil => rfl
    | cons a _ ih =>
      by_cases hsame : project = a
      · simp [hsame]
      · simp [List.lookup_cons, beq_false_of_ne hsame, ih, hsame]
  rw [refsOf, ofPairs, hfind]
  split
  case isTrue => rfl
  case isFalse hproj => exact (sort_refsAt_eq_nil.mpr (by simpa using hproj)).symm

/-- The pairs of a sprint that is in the index. -/
def SprintAdmission.guarded (sprint : SprintAdmission) : Finset (String × String) :=
  if sprint.ref = "" ∨ sprint.isOpen = false then ∅ else sprint.guardProjects.toFinset ×ˢ {sprint.ref}

theorem withSprint_ofPairs (sprint : SprintAdmission) :
    (ofPairs pairs).withSprint sprint = ofPairs (pairs ∪ sprint.guarded) := by
  rw [withSprint, SprintAdmission.guarded]
  split
  · rw [Finset.union_empty]
  have hkeys : ((ofPairs pairs).map (·.1) ++ sprint.guardProjects).toFinset =
      (pairs ∪ sprint.guardProjects.toFinset ×ˢ {sprint.ref}).image (·.1) := by
    rw [map_fst_ofPairs, List.toFinset_append, Finset.sort_toFinset, Finset.image_union,
      Finset.product_image_fst (Finset.singleton_nonempty _)]
  rw [sortedSet_eq, hkeys]
  refine List.map_congr_left fun proj _ ↦ congrArg (Prod.mk proj) ?_
  rw [refsOf_ofPairs]
  split
  case isTrue hgrd =>
    rw [sortedSet_eq]
    congr 1
    ext ref
    simp [mem_refsAt, hgrd, or_comm, eq_comm]
  case isFalse hgrd =>
    congr 1
    ext ref
    simp [mem_refsAt, hgrd]

theorem filter_sort (texts : Finset String) (p : String → Prop) [DecidablePred p] :
    (texts.sort (· ≤ ·)).filter p = (texts.filter p).sort (· ≤ ·) := by
  rw [← (List.toFinset_sort (· ≤ ·) ((Finset.sort_nodup _ _).filter _)).mpr ((Finset.pairwise_sort _ _).filter _)]
  simp

theorem withoutSprint_ofPairs (reference : String) :
    (ofPairs pairs).withoutSprint reference = ofPairs (pairs.filter (·.2 ≠ reference)) := by
  have hrefs (proj : String) : ((refsAt pairs proj).sort (· ≤ ·)).filter (· ≠ reference) =
      (refsAt (pairs.filter (·.2 ≠ reference)) proj).sort (· ≤ ·) := by
    rw [filter_sort]
    congr 1
    ext ref
    simp [mem_refsAt]
  have hkeys : ((pairs.image (·.1)).sort (· ≤ ·)).filter
      (fun proj ↦ (refsAt (pairs.filter (·.2 ≠ reference)) proj).sort (· ≤ ·) ≠ []) =
        ((pairs.filter (·.2 ≠ reference)).image (·.1)).sort (· ≤ ·) := by
    rw [filter_sort]
    congr 1
    ext proj
    simp only [Finset.mem_filter, ne_eq, sort_refsAt_eq_nil, not_not]
    exact and_iff_right_of_imp fun hkept ↦ Finset.image_subset_image (Finset.filter_subset _ _) hkept
  rw [withoutSprint, ofPairs, ofPairs, List.map_map, List.filter_map, ← hkeys]
  simp only [Function.comp_def, hrefs]

/-- The pairs of the sprints that are in the index. -/
def guardedPairs (sprints : List SprintAdmission) : Finset (String × String) :=
  sprints.toFinset.biUnion SprintAdmission.guarded

theorem fromSprints_eq (sprints : List SprintAdmission) : fromSprints sprints = ofPairs (guardedPairs sprints) := by
  induction sprints using List.reverseRecOn with
  | nil => simp [fromSprints, guardedPairs, ofPairs]
  | append_singleton _ _ ih =>
    rw [fromSprints, List.foldl_concat, ← fromSprints, ih, withSprint_ofPairs]
    congr 1
    simp [guardedPairs, Finset.union_comm]

/-- Neither the projects nor the sprints of the index are nameless. -/
theorem guarded_named {sprint : SprintAdmission} {pair : String × String} (hpair : pair ∈ sprint.guarded) :
    pair.1 ≠ "" ∧ pair.2 = sprint.ref ∧ sprint.ref ≠ "" := by
  rw [SprintAdmission.guarded] at hpair
  split at hpair
  · simp at hpair
  · next hcount =>
    obtain ⟨hproj, href⟩ := Finset.mem_product.mp hpair
    rw [SprintAdmission.guardProjects, sortedSet_eq, Finset.sort_toFinset, List.mem_toFinset, List.mem_filter] at hproj
    exact ⟨by simpa using hproj.2, Finset.mem_singleton.mp href, fun hnone ↦ hcount (.inl hnone)⟩

theorem fromDocument_toDocument (hnamed : ∀ pair ∈ pairs, pair.1 ≠ "" ∧ pair.2 ≠ "") :
    fromDocument (ofPairs pairs).toDocument = some (ofPairs pairs) := by
  have hread : ((ofPairs pairs).map fun e ↦ (e.1, Json.arr (e.2.map .str))).filterMap readEntry =
      ofPairs pairs := by
    rw [List.filterMap_map]
    refine (List.filterMap_congr fun e hent ↦ ?_).trans List.filterMap_some
    obtain ⟨_, hproj, rfl⟩ := List.mem_map.mp hent
    obtain ⟨pair, hpair, rfl⟩ := Finset.mem_image.mp ((Finset.mem_sort _).mp hproj)
    have htexts : (((refsAt pairs pair.1).sort (· ≤ ·)).map (itemText ∘ .str)).filter (· ≠ "") =
        (refsAt pairs pair.1).sort (· ≤ ·) := by
      refine (List.map_id _).symm ▸ List.filter_eq_self.mpr fun _ href ↦ ?_
      simpa using (hnamed _ (mem_refsAt.mp ((Finset.mem_sort _).mp href))).2
    simp only [Function.comp_apply, readEntry, if_neg (hnamed pair hpair).1, List.map_map, htexts, sortedSet_eq,
      Finset.sort_toFinset]
  have hord : (ofPairs pairs).Pairwise (·.1 ≤ ·.1) := by
    rw [← List.pairwise_map, map_fst_ofPairs]
    exact Finset.pairwise_sort _ _
  have hversion : (ofPairs pairs).toDocument.get "version" = .num "2" := rfl
  have hprojects : (ofPairs pairs).toDocument.get "projects" =
      .obj ((ofPairs pairs).map fun e ↦ (e.1, .arr (e.2.map .str))) := rfl
  rw [fromDocument, if_pos hversion, hprojects]
  simp only [hread, hord.insertionSort_eq]

/-! ### Updates and rebuilds -/

theorem fromDocument_fromSprints (sprints : List SprintAdmission) :
    fromDocument (fromSprints sprints).toDocument = some (fromSprints sprints) := by
  rw [fromSprints_eq]
  refine fromDocument_toDocument fun _ hpair ↦ ?_
  obtain ⟨_, -, hgrd⟩ := Finset.mem_biUnion.mp hpair
  obtain ⟨hproj, href, hnamed⟩ := guarded_named hgrd
  exact ⟨hproj, href ▸ hnamed⟩

/-- A write moves the pairs of one sprint. -/
theorem guardedPairs_writeSprint (sprints : List SprintAdmission) (sprint : SprintAdmission) :
    guardedPairs (writeSprint sprints sprint) =
      (guardedPairs sprints).filter (·.2 ≠ sprint.ref) ∪ sprint.guarded := by
  ext pair
  simp only [guardedPairs, writeSprint, Finset.mem_biUnion, List.mem_toFinset, List.mem_append, List.mem_filter,
    List.mem_singleton, decide_eq_true_eq, Finset.mem_union, Finset.mem_filter]
  constructor
  · rintro ⟨o, ⟨hoth, hne⟩ | rfl, hgrd⟩
    · exact .inl ⟨⟨o, hoth, hgrd⟩, (guarded_named hgrd).2.1 ▸ hne⟩
    · exact .inr hgrd
  · rintro (⟨⟨o, hoth, hgrd⟩, hne⟩ | hgrd)
    · exact ⟨o, .inl ⟨hoth, (guarded_named hgrd).2.1 ▸ hne⟩, hgrd⟩
    · exact ⟨sprint, .inr rfl, hgrd⟩

theorem update_fromSprints (sprints : List SprintAdmission) (sprint : SprintAdmission) :
    updateActiveSprintProjects (some (fromSprints sprints).toDocument) sprint =
      some (fromSprints (writeSprint sprints sprint)).toDocument := by
  simp only [updateActiveSprintProjects, Option.bind_some, fromDocument_fromSprints, Option.getD_some]
  rw [fromSprints_eq, withoutSprint_ofPairs, withSprint_ofPairs, ← guardedPairs_writeSprint, ← fromSprints_eq]

/-- After any writes of sprints, each with its update of the file, the file holds the index of the sprints as
they stand, in whatever order they are listed. -/
theorem updates_eq_rebuild (initial writes listing : List SprintAdmission)
    (hlisting : ∀ sprint, sprint ∈ listing ↔ sprint ∈ writes.foldl writeSprint initial) :
    writes.foldl updateActiveSprintProjects (some (fromSprints initial).toDocument) =
        some (fromSprints listing).toDocument ∧
      fromDocument (fromSprints listing).toDocument = some (fromSprints listing) := by
  have hrun : writes.foldl updateActiveSprintProjects (some (fromSprints initial).toDocument) =
      some (fromSprints (writes.foldl writeSprint initial)).toDocument := by
    induction writes generalizing initial with
    | nil => rfl
    | cons sprint _ ih =>
      rw [List.foldl_cons, update_fromSprints]
      exact ih _ hlisting
  have hsame : guardedPairs listing = guardedPairs (writes.foldl writeSprint initial) := by
    have hmembers : listing.toFinset = (writes.foldl writeSprint initial).toFinset := by
      ext sprint
      simp [hlisting]
    rw [guardedPairs, hmembers, guardedPairs]
  rw [hrun, fromSprints_eq, ← hsame, ← fromSprints_eq]
  exact ⟨rfl, fromDocument_fromSprints listing⟩

theorem updates_eq_rebuild_witness :
    let first : SprintAdmission := { ref := "s1", reservations := [" a", "b"] }
    let second : SprintAdmission := { ref := "s2", reservations := ["a"] }
    let closed := { first with state := some .closed }
    [second, closed].foldl updateActiveSprintProjects (some (fromSprints [first]).toDocument) =
        some (fromSprints [closed, second]).toDocument ∧
      fromSprints [closed, second] = [("a", ["s2"])] := by
  refine ⟨(updates_eq_rebuild _ _ _ ?_).1, by decide +kernel⟩
  intro _
  simp [writeSprint, or_comm]

/-- After any writes of sprints the file can be read, and lists under a project the open sprints that reserve it. -/
theorem updates_lookup (initial writes : List SprintAdmission) :
    ∃ index, (writes.foldl updateActiveSprintProjects (some (fromSprints initial).toDocument)).bind fromDocument =
        some index ∧
      ∀ project ref, ref ∈ index.refsOf project ↔ ref ≠ "" ∧ ∃ sprint ∈ writes.foldl writeSprint initial,
        sprint.ref = ref ∧ sprint.isOpen ∧ project ∈ sprint.guardProjects := by
  refine ⟨fromSprints (writes.foldl writeSprint initial), ?_, fun project ref ↦ ?_⟩
  · induction writes generalizing initial with
    | nil => exact fromDocument_fromSprints initial
    | cons sprint _ ih =>
      rw [List.foldl_cons, update_fromSprints]
      exact ih _
  · rw [fromSprints_eq, refsOf_ofPairs, Finset.mem_sort, mem_refsAt, guardedPairs, Finset.mem_biUnion]
    simp only [List.mem_toFinset, SprintAdmission.guarded]
    constructor
    · rintro ⟨sprint, hmem, hpair⟩
      split at hpair
      · simp at hpair
      · next hin =>
        obtain ⟨hproject, rfl⟩ : project ∈ sprint.guardProjects ∧ sprint.ref = ref := by simpa using hpair
        obtain ⟨hnamed, hopen⟩ := not_or.mp hin
        exact ⟨hnamed, sprint, hmem, rfl, by simpa using hopen, hproject⟩
    · rintro ⟨hnamed, sprint, hmem, rfl, hopen, hproject⟩
      exact ⟨sprint, hmem, by simp [hnamed, hopen, hproject]⟩

end Ummanu.Sprint
