import Ummanu.Canon.Undo

/-!
# Canon writes are all or nothing

From the first entry of the journal to its retirement, the journal tells how the tree comes back to what it was.
`Undoing base saved entries view` says it of a tree that reads `view`: every entry keeps what `base` has at its
path, and away from the entries and the directories they name, `view` is `base`. `Holds base` says of a disk that
recovery will read `base` on it, with a journal or without. Every write of a recovery and of a transaction keeps
it, but for the rename that retires the undo area of a transaction that returned.

Scope. The paths of one transaction do not lie in one another. A transaction that removes a file and then writes
below it leaves a journal from which no recovery comes back.
-/

set_option autoImplicit false

namespace Ummanu.Canon

open Library Durable PathTree

/-- Named, for the tests of membership below to be stated with it. -/
local instance lawfulPath : LawfulBEq Path := inferInstance

variable {base : TreeView} {disk : Disk} {entries : List Entry} {dir : Path} {value : Option TreeNode}
  {tree : PathTree}
variable {ops : List Op}

/-! ### What the journal keeps -/

/-- The entry keeps what stands at its path. -/
def Entry.Keeps (base : TreeView) (saved : ℕ → Option String) (entry : Entry) : Prop :=
  match entry.state with
  | .absent => base entry.path = none
  | .file number mode => ∃ bytes, saved number = some bytes ∧ base entry.path = some (.file bytes mode)
  | .link target => base entry.path = some (.link target)

/-- The entries lead from a tree back to the tree that they were made on. -/
structure Undoing (base : TreeView) (saved : ℕ → Option String) (entries : List Entry) (view : TreeView) : Prop where
  keeps : ∀ entry ∈ entries, entry.Keeps base saved
  created : ∀ entry ∈ entries, ∀ dir ∈ entry.createdDirs, dir ∈ parents entry.path ∧ base dir = none
  apart : ∀ entry ∈ entries, ∀ other ∈ entries, entry.path ∉ parents other.path
  covered : ∀ entry ∈ entries, ∀ dir ∈ parents entry.path,
    (∃ mode, base dir = some (.dir mode)) ∨ ∃ other ∈ entries, dir ∈ other.createdDirs
  same : ∀ path, (∀ entry ∈ entries, path ≠ entry.path ∧ path ∉ entry.createdDirs) → view path = base path
  plain : ∀ entry ∈ entries, ∀ node, view entry.path = some node → node.isDir = false
  dirs : ∀ entry ∈ entries, ∀ dir ∈ entry.createdDirs, ∀ node, view dir = some node → node.isDir = true

/-- The disk has a journal of these entries. -/
structure Guarded (base : TreeView) (undo : Undo) (entries : List Entry) (disk : Disk) : Prop where
  area : disk.undo = some undo
  journal : undo.journal = some entries
  undoing : Undoing base undo.saved entries disk.tree.look

/-- The disk has no journal, and its tree reads as given. -/
structure Untouched (base : TreeView) (disk : Disk) : Prop where
  journal : ∀ undo, disk.undo = some undo → undo.journal = none
  same : disk.tree.look = base

/-- Recovery reads `base` on the disk. -/
def Holds (base : TreeView) (disk : Disk) : Prop :=
  Untouched base disk ∨ ∃ undo entries, Guarded base undo entries disk

/-- The disk has no undo area, and its tree reads as given. -/
structure Restored (base : TreeView) (disk : Disk) : Prop where
  area : disk.undo = none
  same : disk.tree.look = base

theorem Restored.untouched (hback : Restored base disk) : Untouched base disk :=
  ⟨fun _ hundo ↦ absurd (hback.area.symm.trans hundo) (by simp), hback.same⟩

theorem Restored.holds (hback : Restored base disk) : Holds base disk :=
  Or.inl hback.untouched

theorem Guarded.holds {undo : Undo} (hguard : Guarded base undo entries disk) : Holds base disk :=
  Or.inr ⟨undo, entries, hguard⟩

namespace Undoing

variable {view : TreeView} {saved : ℕ → Option String} {entry : Entry}

section

variable (hjournal : Undoing base saved entries view) (hentry : entry ∈ entries)
include hjournal hentry

/-- A directory that an entry creates is the path of none. -/
theorem created_ne (hdir : dir ∈ entry.createdDirs) : ∀ other ∈ entries, dir ≠ other.path := by
  rintro other hoth rfl
  exact hjournal.apart other hoth entry hentry (hjournal.created entry hentry _ hdir).1

/-- What `base` has at a parent of an entry's path still stands there. -/
theorem parent_same (hdir : dir ∈ parents entry.path) (hbase : base dir ≠ none) : view dir = base dir := by
  refine hjournal.same dir fun o hoth ↦ ⟨?_, fun hmade ↦ hbase (hjournal.created o hoth dir hmade).2⟩
  rintro rfl
  exact hjournal.apart o hoth entry hentry hdir

/-- The parents of an entry's path are directories or absent. -/
theorem parent_isDir (hdir : dir ∈ parents entry.path) : ∀ node, view dir = some node → node.isDir = true := by
  intro node hnode
  rcases hjournal.covered entry hentry dir hdir with ⟨_, hbase⟩ | ⟨o, hoth, hmade⟩
  · have hsame := hjournal.parent_same hentry hdir (by simp [hbase])
    rw [hnode, hbase] at hsame
    cases hsame
    rfl
  · exact hjournal.dirs o hoth dir hmade node hnode

/-- A parent that is not there is one that an entry creates. -/
theorem parent_created (hdir : dir ∈ parents entry.path) (hnone : view dir = none) :
    ∃ other ∈ entries, dir ∈ other.createdDirs := by
  rcases hjournal.covered entry hentry dir hdir with ⟨_, hbase⟩ | hmade
  · have hsame := hjournal.parent_same hentry hdir (by simp [hbase])
    rw [hnone, hbase] at hsame
    cases hsame
  · exact hmade

/-- A change at the path of an entry, to a file, a link or nothing. -/
theorem setPath (hplain : ∀ node, value = some node → node.isDir = false) :
    Undoing base saved entries (Function.update view entry.path value) :=
  { hjournal with
    same := fun path haway ↦ (Function.update_of_ne (haway entry hentry).1 ..).trans (hjournal.same path haway)
    plain := by
      intro o hin node hnode
      by_cases hsame : o.path = entry.path
      · rw [hsame, Function.update_self] at hnode
        exact hplain node hnode
      · exact hjournal.plain o hin node (Function.update_of_ne hsame value view ▸ hnode)
    dirs := by
      intro o hin dir hdir node hnode
      rw [Function.update_of_ne (hjournal.created_ne hin hdir entry hentry)] at hnode
      exact hjournal.dirs o hin dir hdir node hnode }

/-- A change at a directory that an entry creates, to a directory or nothing. -/
theorem setDir (hdir : dir ∈ entry.createdDirs) (hisDir : ∀ node, value = some node → node.isDir = true) :
    Undoing base saved entries (Function.update view dir value) :=
  { hjournal with
    same := by
      intro path haway
      have hne : path ≠ dir := fun hsame ↦ (haway entry hentry).2 (hsame ▸ hdir)
      exact (Function.update_of_ne hne ..).trans (hjournal.same path haway)
    plain := by
      intro o hin node hnode
      rw [Function.update_of_ne (hjournal.created_ne hentry hdir o hin).symm] at hnode
      exact hjournal.plain o hin node hnode
    dirs := by
      intro o hin path hpath node hnode
      by_cases hsame : path = dir
      · rw [hsame, Function.update_self] at hnode
        exact hisDir node hnode
      · exact hjournal.dirs o hin path hpath node (Function.update_of_ne hsame value view ▸ hnode) }

end

end Undoing

/-! ### Restoring -/

section Restoring

variable {undo : Undo} {entry : Entry} (memory : List Entry)

theorem lstat_eq_ok {path : Path}
    (hdirs : ∀ dir ∈ parents path, ∀ node, tree.look dir = some node → node.isDir = true) :
    lstat tree path = .ok (tree.look path) := by
  rw [lstat, if_neg]
  simp only [List.any_eq_true, Option.any_eq_true, not_exists, not_and]
  rintro dir hdir node hnode
  simp [hdirs dir hdir node hnode]

theorem Guarded.lstat_eq (hguard : Guarded base undo entries disk) (hentry : entry ∈ entries) :
    lstat disk.tree entry.path = .ok (disk.tree.look entry.path) :=
  lstat_eq_ok fun _ hdir ↦ hguard.undoing.parent_isDir hentry hdir

/-- The tree of a disk, changed in a way its journal allows. -/
theorem Guarded.withTree (hguard : Guarded base undo entries disk)
    (hjournal : Undoing base undo.saved entries tree.look) : Guarded base undo entries { disk with tree } :=
  { area := hguard.area
    journal := hguard.journal
    undoing := hjournal }

variable (base) in
/-- The writes that a recovery may make. -/
def Keeping (s t : Disk) : Prop := Holds base s → Holds base t

/-- A change of the tree that does not raise, under the journal that is there. -/
abbrev Turning (base : TreeView) (undo : Undo) (entries memory : List Entry) (view : TreeView) :
    Except String Unit → Disk → List Entry → Prop :=
  Ends (fun t w ↦ w = memory ∧ Guarded base undo entries t ∧ t.tree.look = view) fun _ _ ↦ False

theorem unlink_meets (hguard : Guarded base undo entries disk) (hentry : entry ∈ entries) :
    Meets (Keeping base) (unlink entry.path)
      (Turning base undo entries memory (Function.update disk.tree.look entry.path none)) disk memory := by
  simp only [unlink, meets_bind, meets_stored, hguard.lstat_eq hentry]
  cases hlook : disk.tree.look entry.path with
  | none =>
    rw [meets_pure]
    exact ⟨rfl, hguard, (Function.update_eq_self_iff.mpr hlook.symm).symm⟩
  | some node =>
    have hplain := hguard.undoing.plain entry hentry node hlook
    have hafter : Guarded base undo entries { disk with tree := disk.tree.erase entry.path } :=
      hguard.withTree (look_erase ▸ hguard.undoing.setPath hentry (by simp))
    cases node with
    | dir _ => cases hplain
    | file _ _ | link _ =>
      rw [meets_commit]
      exact ⟨fun _ ↦ hafter.holds, rfl, hafter, look_erase⟩

/-- A tree with some directories more. -/
def withDirs (view : TreeView) (dirs : List Path) : TreeView := fun path ↦
  if path ∈ dirs then some (.dir newDirMode) else view path

@[simp] theorem withDirs_nil (view : TreeView) : withDirs view [] = view := by
  funext path
  simp [withDirs]

section

variable (hguard : Guarded base undo entries disk)
include hguard

theorem makeDirs_meets (hentry : entry ∈ entries) :
    Meets (Keeping base) (each makeDir (disk.tree.missing entry.path).reverse)
      (Turning base undo entries memory (withDirs disk.tree.look (disk.tree.missing entry.path).reverse)) disk memory := by
  refine meets_each (J := fun done t w ↦ w = memory ∧ Guarded base undo entries t ∧
    t.tree.look = withDirs disk.tree.look done) ?_ ⟨rfl, hguard, (withDirs_nil _).symm⟩
  rintro done dir _ hitems t w ⟨rfl, hguard, hlook⟩
  have hmiss : dir ∈ disk.tree.missing entry.path := by
    rw [← List.mem_reverse, hitems]
    simp
  obtain ⟨hpar, hnone⟩ := mem_missing hmiss
  obtain ⟨_, hoth, hmade⟩ := ‹Guarded base undo entries disk›.undoing.parent_created hentry hpar hnone
  have hafter : Guarded base undo entries { t with tree := t.tree.set dir (.dir newDirMode) } := by
    refine hguard.withTree (look_set ▸ hguard.undoing.setDir hoth hmade ?_)
    rintro _ ⟨⟩
    rfl
  rw [makeDir, meets_commit]
  refine ⟨fun _ ↦ hafter.holds, rfl, hafter, ?_⟩
  funext path
  by_cases hpath : path = dir
  · simp [hpath, withDirs, look_set]
  · simp [look_set, hlook, withDirs, hpath]

theorem replaceAt_meets (hentry : entry ∈ entries) {node : TreeNode} (hnode : node.isDir = false) :
    Meets (Keeping base) (replaceAt entry.path node)
      (Turning base undo entries memory
        (Function.update (withDirs disk.tree.look (disk.tree.missing entry.path).reverse) entry.path (some node)))
      disk memory := by
  have hplace : Meets (Keeping base)
      (do
        each makeDir (disk.tree.missing entry.path).reverse
        commit fun disk ↦ { disk with tree := disk.tree.set entry.path node })
      (Turning base undo entries memory
        (Function.update (withDirs disk.tree.look (disk.tree.missing entry.path).reverse) entry.path (some node)))
      disk memory := by
    refine (makeDirs_meets memory hguard hentry).seq ?_ fun _ _ _ herr ↦ herr
    rintro t _ ⟨rfl, hguard, hlook⟩
    have hafter : Guarded base undo entries { t with tree := t.tree.set entry.path node } := by
      refine hguard.withTree (look_set ▸ hguard.undoing.setPath hentry ?_)
      rintro _ ⟨⟩
      exact hnode
    rw [meets_commit]
    exact ⟨fun _ ↦ hafter.holds, rfl, hafter, hlook ▸ look_set⟩
  simp only [replaceAt, meets_bind, meets_stored, hguard.lstat_eq hentry]
  cases hlook : disk.tree.look entry.path with
  | none => exact hplace
  | some old =>
    have hplain := hguard.undoing.plain entry hentry old hlook
    cases old with
    | dir _ => cases hplain
    | file _ _ | link _ => exact hplace

/-- An entry for something that was there lacks no parent. -/
theorem Guarded.missing_eq_nil (hformed : WellFormed base) (hentry : entry ∈ entries)
    (hbase : base entry.path ≠ none) : disk.tree.missing entry.path = [] := by
  rw [List.eq_nil_iff_forall_not_mem]
  intro dir hmiss
  obtain ⟨hpar, hnone⟩ := mem_missing hmiss
  obtain ⟨_, hdir⟩ := hformed entry.path hbase dir hpar
  have hsame := hguard.undoing.parent_same hentry hpar (by simp [hdir])
  rw [hnone, hdir] at hsame
  cases hsame

/-- What was there is put back. -/
theorem replaceAt_base_meets (hformed : WellFormed base) (hentry : entry ∈ entries) {node : TreeNode}
    (hnode : node.isDir = false) (hbase : base entry.path = some node) :
    Meets (Keeping base) (replaceAt entry.path node)
      (Turning base undo entries memory (Function.update disk.tree.look entry.path (base entry.path))) disk memory := by
  have hmeets := replaceAt_meets memory hguard hentry hnode
  rwa [hguard.missing_eq_nil hformed hentry (by simp [hbase]), List.reverse_nil, withDirs_nil, ← hbase] at hmeets

theorem restoreEntry_meets (hformed : WellFormed base) (hentry : entry ∈ entries) :
    Meets (Keeping base) (restoreEntry undo.saved entry)
      (Turning base undo entries memory (Function.update disk.tree.look entry.path (base entry.path))) disk memory := by
  have hdir : ¬ (disk.tree.look entry.path).any (·.isDir) = true := by
    simp only [Option.any_eq_true, not_exists, not_and]
    intro node hnode
    simp [hguard.undoing.plain entry hentry node hnode]
  have hkeeps := hguard.undoing.keeps entry hentry
  simp only [restoreEntry, meets_bind, meets_stored]
  rw [if_neg hdir]
  rw [Entry.Keeps] at hkeeps
  cases hstate : entry.state with
  | absent =>
    simp only [hstate] at hkeeps ⊢
    rw [hkeeps]
    exact unlink_meets memory hguard hentry
  | file _ _ =>
    simp only [hstate] at hkeeps ⊢
    obtain ⟨_, hsaved, hbase⟩ := hkeeps
    rw [hsaved]
    exact replaceAt_base_meets memory hguard hformed hentry rfl hbase
  | link _ =>
    simp only [hstate] at hkeeps ⊢
    refine (unlink_meets memory hguard hentry).seq ?_ fun _ _ _ herr ↦ herr
    rintro _ w ⟨rfl, hunlinked, hlook⟩
    have hmeets := replaceAt_base_meets w hunlinked hformed hentry rfl hkeeps
    rwa [hlook, Function.update_idem] at hmeets

theorem restoreEntries_meets (hformed : WellFormed base) :
    Meets (Keeping base) (each (restoreEntry undo.saved) entries.reverse)
      (Ends (fun t w ↦ w = memory ∧ Guarded base undo entries t ∧
        ∀ entry ∈ entries, t.tree.look entry.path = base entry.path) fun _ _ ↦ False) disk memory := by
  suffices hloop : Meets (Keeping base) (each (restoreEntry undo.saved) entries.reverse)
      (Ends (fun t w ↦ w = memory ∧ Guarded base undo entries t ∧
        ∀ entry ∈ entries.reverse, t.tree.look entry.path = base entry.path) fun _ _ ↦ False) disk memory by
    simpa only [List.mem_reverse] using hloop
  refine meets_each (J := fun (done : List Entry) t w ↦ w = memory ∧ Guarded base undo entries t ∧
    ∀ entry ∈ done, t.tree.look entry.path = base entry.path) ?_ ⟨rfl, hguard, by simp⟩
  rintro done entry _ hitems t w ⟨rfl, hguard, hdone⟩
  have hentry : entry ∈ entries := by
    rw [← List.mem_reverse, hitems]
    simp
  refine (restoreEntry_meets w hguard hformed hentry).done ?_
  rintro _ memory ⟨rfl, hguard, hlook⟩
  refine ⟨rfl, hguard, fun o hoth ↦ ?_⟩
  rw [hlook]
  by_cases hsame : o.path = entry.path
  · rw [hsame, Function.update_self]
  · rw [Function.update_of_ne hsame]
    rcases List.mem_append.mp hoth with hoth | hoth
    · exact hdone o hoth
    · rw [List.mem_singleton.mp hoth] at hsame
      exact absurd rfl hsame

end

theorem mem_createdDirs : dir ∈ createdDirs entries ↔ ∃ entry ∈ entries, dir ∈ entry.createdDirs := by
  rw [createdDirs, List.mem_insertionSort, List.mem_dedup, List.mem_flatMap]

/-- Of the created directories those below another one come before it. -/
theorem createdDirs_before {done rest : List Path} {below : Path}
    (hitems : createdDirs entries = done ++ dir :: rest) (hbelow : dir ∈ parents below)
    (hmem : below ∈ createdDirs entries) : below ∈ done := by
  have hlen := length_lt_of_mem_parents hbelow
  have hord : (createdDirs entries).Pairwise fun a b ↦ b.length ≤ a.length := by
    exact List.pairwise_insertionSort _ _
  rw [hitems] at hmem hord
  rcases List.mem_append.mp hmem with hmem | hmem
  · exact hmem
  · rcases List.mem_cons.mp hmem with rfl | hmem
    · exact absurd hlen (lt_irrefl _)
    · have hle := (List.pairwise_cons.mp (List.pairwise_append.mp hord).2.1).1 below hmem
      omega

section

variable (hguard : Guarded base undo entries disk) (hformed : WellFormed base)
include hguard hformed

/-- A created directory is empty when those below it are gone and the paths are restored. -/
theorem Guarded.isEmpty_created (hpaths : ∀ entry ∈ entries, disk.tree.look entry.path = base entry.path)
    (hdir : base dir = none)
    (hbelow : ∀ below ∈ createdDirs entries, dir ∈ parents below → disk.tree.look below = none) :
    disk.tree.isEmpty dir = true := by
  rw [PathTree.isEmpty_iff]
  intro below hpar
  have hbase : base below = none := by
    by_contra hthere
    obtain ⟨_, hmode⟩ := hformed below hthere dir hpar
    cases hdir.symm.trans hmode
  by_cases hmade : below ∈ createdDirs entries
  · exact hbelow below hmade hpar
  by_cases hentry : ∃ entry ∈ entries, below = entry.path
  · obtain ⟨entry, hentry, rfl⟩ := hentry
    rw [hpaths entry hentry, hbase]
  · rw [hguard.undoing.same below, hbase]
    exact fun entry hin ↦ ⟨fun hsame ↦ hentry ⟨entry, hin, hsame⟩, fun hmem ↦ hmade (mem_createdDirs.mpr ⟨entry, hin, hmem⟩)⟩

/-- The directories are removed, the deepest first: each is empty when its turn comes. -/
theorem removeDirs_meets (hpaths : ∀ entry ∈ entries, disk.tree.look entry.path = base entry.path) :
    Meets (Keeping base) (each removeDir (createdDirs entries))
      (Turning base undo entries memory base) disk memory := by
  suffices hloop : Meets (Keeping base) (each removeDir (createdDirs entries))
      (Ends (fun t w ↦ w = memory ∧ Guarded base undo entries t ∧
        (∀ entry ∈ entries, t.tree.look entry.path = base entry.path) ∧
          ∀ dir ∈ createdDirs entries, t.tree.look dir = none) fun _ _ ↦ False) disk memory by
    refine hloop.done ?_
    rintro t w ⟨rfl, hguard, hpaths, hdirs⟩
    refine ⟨rfl, hguard, ?_⟩
    funext path
    by_cases haway : ∀ entry ∈ entries, path ≠ entry.path ∧ path ∉ entry.createdDirs
    · exact hguard.undoing.same path haway
    push Not at haway
    obtain ⟨entry, hentry, hnear⟩ := haway
    by_cases hpath : path = entry.path
    · rw [hpath, hpaths entry hentry]
    · rw [hdirs path (mem_createdDirs.mpr ⟨entry, hentry, hnear hpath⟩),
        (hguard.undoing.created entry hentry path (hnear hpath)).2]
  refine meets_each (J := fun done t w ↦ w = memory ∧ Guarded base undo entries t ∧
    (∀ entry ∈ entries, t.tree.look entry.path = base entry.path) ∧ ∀ dir ∈ done, t.tree.look dir = none) ?_
      ⟨rfl, hguard, hpaths, by simp⟩
  rintro done dir _ hitems t w ⟨rfl, hguard, hpaths, hdone⟩
  have hmem : dir ∈ createdDirs entries := by
    rw [hitems]
    simp
  obtain ⟨entry, hentry, hmade⟩ := mem_createdDirs.mp hmem
  have hempty := hguard.isEmpty_created hformed hpaths (hguard.undoing.created entry hentry dir hmade).2
    fun below hbelow hpar ↦ hdone below (createdDirs_before hitems hpar hbelow)
  rw [removeDir, meets_commit]
  cases hlook : t.tree.look dir with
  | none =>
    simp only [Option.any_none, Bool.false_eq_true, false_and, if_false]
    refine ⟨id, rfl, hguard, hpaths, fun o hoth ↦ ?_⟩
    rcases List.mem_append.mp hoth with hoth | hoth
    · exact hdone o hoth
    · rw [List.mem_singleton.mp hoth, hlook]
  | some node =>
    have hisDir := hguard.undoing.dirs entry hentry dir hmade node hlook
    have hafter : Guarded base undo entries { t with tree := t.tree.erase dir } :=
      hguard.withTree (look_erase ▸ hguard.undoing.setDir hentry hmade nofun)
    rw [if_pos ⟨by simpa using hisDir, hempty⟩]
    refine ⟨fun _ ↦ hafter.holds, rfl, hafter, fun o hoth ↦ ?_, fun o hoth ↦ ?_⟩
    · have hne := (hguard.undoing.created_ne hentry hmade o hoth).symm
      rw [look_erase, Function.update_of_ne hne, hpaths o hoth]
    · rw [look_erase]
      by_cases hsame : o = dir
      · rw [hsame, Function.update_self]
      · rw [Function.update_of_ne hsame]
        exact hdone o (by simpa [hsame] using hoth)

theorem restore_meets :
    Meets (Keeping base) (restore undo.saved entries) (Turning base undo entries memory base) disk memory := by
  refine (restoreEntries_meets memory hguard hformed).seq ?_ fun _ _ _ herr ↦ herr
  rintro _ w ⟨rfl, hguard, hpaths⟩
  exact removeDirs_meets w hguard hformed hpaths

end

/-- `discard` on a tree that is back. -/
theorem discard_meets (hsame : disk.tree.look = base) :
    Meets (Keeping base) discard (Ends (fun t w ↦ w = memory ∧ Restored base t) fun _ _ ↦ False) disk memory := by
  have hback : Restored base { disk with undo := none } := ⟨rfl, hsame⟩
  rw [discard, meets_commit]
  exact ⟨fun _ ↦ hback.holds, rfl, hback⟩

/-- Recovery does not fail, and brings the tree back. -/
theorem recoverCanonUndo_meets (hholds : Holds base disk) (hformed : WellFormed base) :
    Meets (Keeping base) recoverCanonUndo (Ends (fun t w ↦ w = memory ∧ Restored base t) fun _ _ ↦ False) disk memory := by
  simp only [recoverCanonUndo, meets_bind, meets_stored]
  rcases hholds with hkept | ⟨undo, _, hguard⟩
  · cases hundo : disk.undo with
    | none =>
      rw [meets_pure]
      exact ⟨rfl, hundo, hkept.same⟩
    | some undo =>
      simp only [hkept.journal undo hundo]
      exact discard_meets memory hkept.same
  · simp only [hguard.area, hguard.journal]
    refine (restore_meets memory hguard hformed).seq ?_ fun _ _ _ herr ↦ herr
    rintro _ w ⟨rfl, -, hsame⟩
    exact discard_meets w hsame

end Restoring

/-! ### Guarding a path -/

section Guarding

variable {saved : ℕ → Option String} {undo : Undo} {path : Path}

theorem undoing_nil : Undoing base saved [] base where
  keeps := by simp
  created := by simp
  apart := by simp
  covered := by simp
  same := fun _ _ ↦ rfl
  plain := by simp
  dirs := by simp

theorem Undoing.eq_of_nil {view : TreeView} (hjournal : Undoing base saved [] view) : view = base :=
  funext fun path ↦ hjournal.same path (by simp)

/-- What a successful `lstat` tells. -/
theorem lstat_ok {info : Option TreeNode} (hlstat : lstat tree path = .ok info) :
    info = tree.look path ∧ ∀ dir ∈ parents path, ∀ node, tree.look dir = some node → node.isDir = true := by
  rw [lstat] at hlstat
  split_ifs at hlstat with hblock
  refine ⟨(Except.ok.inj hlstat).symm, fun dir hdir _ hnode ↦ ?_⟩
  by_contra hplain
  refine hblock (List.any_eq_true.mpr ⟨dir, hdir, ?_⟩)
  simpa [hnode] using hplain

/-- A path that lies in no entry's path and has none in it. -/
def Away (entries : List Entry) (path : Path) : Prop :=
  ∀ entry ∈ entries, entry.path ∉ parents path ∧ path ∉ parents entry.path

namespace Undoing

section

variable (hjournal : Undoing base saved entries tree.look)
include hjournal

/-- A path that is not guarded is as it was. -/
theorem same_new (haway : Away entries path) (hnew : ∀ entry ∈ entries, entry.path ≠ path) :
    tree.look path = base path :=
  hjournal.same path fun entry hentry ↦
    ⟨(hnew entry hentry).symm, fun hmade ↦ (haway entry hentry).2 (hjournal.created entry hentry path hmade).1⟩

/-- A parent of the path that differs from what it was is one that an entry creates. -/
theorem parent_new (haway : Away entries path) (hdir : dir ∈ parents path) :
    tree.look dir = base dir ∨ ∃ entry ∈ entries, dir ∈ entry.createdDirs := by
  by_cases hmade : ∃ entry ∈ entries, dir ∈ entry.createdDirs
  · exact .inr hmade
  · refine .inl (hjournal.same dir fun entry hentry ↦ ⟨?_, fun hmem ↦ hmade ⟨entry, hentry, hmem⟩⟩)
    rintro rfl
    exact (haway entry hentry).1 hdir

theorem missing_new (haway : Away entries path) (hdir : dir ∈ tree.missing path) :
    base dir = none := by
  obtain ⟨hpar, hnone⟩ := mem_missing hdir
  rcases hjournal.parent_new haway hpar with hsame | ⟨entry, hentry, hmade⟩
  · rw [← hsame, hnone]
  · exact (hjournal.created entry hentry dir hmade).2

variable (hformed : WellFormed tree.look) (haway : Away entries path)
  (hdirs : ∀ dir ∈ parents path, ∀ node, tree.look dir = some node → node.isDir = true)
include hformed haway hdirs

/-- The parents of a path that can be inspected were directories, or are created by an entry, or by its own. -/
theorem covered_new (hdir : dir ∈ parents path) :
    (∃ mode, base dir = some (.dir mode)) ∨ (∃ entry ∈ entries, dir ∈ entry.createdDirs) ∨ dir ∈ tree.missing path := by
  cases hlook : tree.look dir with
  | none => exact .inr (.inr (mem_missing_of_wellFormed hformed hdir hlook))
  | some node =>
    rcases hjournal.parent_new haway hdir with hsame | hmade
    · have hisDir := hdirs dir hdir node hlook
      cases node with
      | dir mode => exact .inl ⟨mode, hsame ▸ hlook⟩
      | file _ _ | link _ => cases hisDir
    · exact .inr (.inl hmade)

/-- The entries with the one that a guard adds. -/
theorem guard {state : Prior} (hkeeps : Entry.Keeps base saved ⟨path, tree.missing path, state⟩)
    (hplain : ∀ node, tree.look path = some node → node.isDir = false) :
    Undoing base saved (entries ++ [⟨path, tree.missing path, state⟩]) tree.look where
  keeps := by
    rw [List.forall_mem_append, List.forall_mem_singleton]
    exact ⟨hjournal.keeps, hkeeps⟩
  created := by
    rw [List.forall_mem_append, List.forall_mem_singleton]
    exact ⟨hjournal.created, fun dir hdir ↦ ⟨(mem_missing hdir).1, hjournal.missing_new haway hdir⟩⟩
  apart := by
    have hself : path ∉ parents path := fun hmem ↦ lt_irrefl _ (length_lt_of_mem_parents hmem)
    simp only [List.forall_mem_append, List.forall_mem_singleton, forall_and]
    exact ⟨⟨hjournal.apart, fun entry hentry ↦ (haway entry hentry).2⟩, fun entry hentry ↦ (haway entry hentry).1, hself⟩
  covered := by
    simp only [List.mem_append, List.mem_singleton, or_and_right, exists_or, exists_eq_left]
    rintro entry (hentry | rfl) dir hdir
    · exact (hjournal.covered entry hentry dir hdir).imp_right Or.inl
    · exact hjournal.covered_new hformed haway hdirs hdir
  same := fun o haway ↦ hjournal.same o fun entry hentry ↦ haway entry (List.mem_append_left _ hentry)
  plain := by
    rw [List.forall_mem_append, List.forall_mem_singleton]
    exact ⟨hjournal.plain, hplain⟩
  dirs := by
    rw [List.forall_mem_append, List.forall_mem_singleton]
    refine ⟨hjournal.dirs, fun dir hdir _ hnode ↦ ?_⟩
    rw [(mem_missing hdir).2] at hnode
    cases hnode

end

end Undoing

/-- The undo area of a transaction that has these entries: it has no journal before the first. -/
structure Opened (base : TreeView) (undo : Undo) (entries : List Entry) (disk : Disk) : Prop where
  area : disk.undo = some undo
  journal : undo.journal = if entries = [] then none else some entries
  undoing : Undoing base undo.saved entries disk.tree.look

/-- What a rollback needs. -/
structure Recoverable (base : TreeView) (disk : Disk) (entries : List Entry) : Prop where
  fresh : entries = [] → disk.tree.look = base
  guarded : entries ≠ [] → ∃ undo, Guarded base undo entries disk

theorem Opened.recoverable (hopen : Opened base undo entries disk) : Recoverable base disk entries where
  fresh := by
    rintro rfl
    exact hopen.undoing.eq_of_nil
  guarded := fun hlist ↦ ⟨undo, hopen.area, by rw [hopen.journal, if_neg hlist], hopen.undoing⟩

theorem Opened.holds (hopen : Opened base undo entries disk) : Holds base disk := by
  by_cases hlist : entries = []
  · refine .inl ⟨fun _ hoth ↦ ?_, hopen.recoverable.fresh hlist⟩
    cases hopen.area.symm.trans hoth
    rw [hopen.journal, if_pos hlist]
  · obtain ⟨_, hguard⟩ := hopen.recoverable.guarded hlist
    exact hguard.holds

/-- Inside the block of a transaction. -/
structure Working (base : TreeView) (ops : List Op) (disk : Disk) (entries : List Entry) : Prop where
  formed : WellFormed disk.tree.look
  fresh : entries = [] → Restored base disk
  guarded : entries ≠ [] → ∃ undo, Guarded base undo entries disk
  numbered : ∀ entry ∈ entries, ∀ number mode, entry.state = .file number mode → number < entries.length
  named : ∀ entry ∈ entries, ∃ op ∈ ops, op.path = entry.path

theorem Working.recoverable (hwork : Working base ops disk entries) : Recoverable base disk entries :=
  ⟨fun hlist ↦ (hwork.fresh hlist).same, hwork.guarded⟩

/-- The paths of a transaction do not lie in one another. -/
def Apart (ops : List Op) : Prop := ∀ op ∈ ops, ∀ other ∈ ops, op.path ∉ parents other.path

theorem Working.away (hwork : Working base ops disk entries) (hapart : Apart ops) {op : Op}
    (hop : op ∈ ops) : Away entries op.path := by
  intro entry hentry
  obtain ⟨o, hoth, hpath⟩ := hwork.named entry hentry
  rw [← hpath]
  exact ⟨hapart o hoth op hop, hapart op hop o hoth⟩

theorem openUndo_meets (hwork : Working base ops disk entries) :
    Meets (Keeping base) (openUndo entries)
      (Ends (fun t w ↦ w = entries ∧ t.tree = disk.tree ∧ ∃ undo, Opened base undo entries t) fun _ _ ↦ False)
      disk entries := by
  rw [openUndo]
  by_cases hlist : entries = []
  · have hback := hwork.fresh hlist
    have hopen : Opened base {} entries { disk with undo := some {} } := by
      refine ⟨rfl, by rw [if_pos hlist], ?_⟩
      rw [hlist, ← hback.same]
      exact undoing_nil
    rw [if_neg (not_not.mpr hlist)]
    simp only [meets_bind, meets_stored]
    rw [if_neg (by simp [hback.area]), meets_commit]
    exact ⟨fun _ ↦ hopen.holds, rfl, rfl, {}, hopen⟩
  · obtain ⟨undo, hguard⟩ := hwork.guarded hlist
    rw [if_pos hlist, meets_pure]
    exact ⟨rfl, rfl, undo, hguard.area, by rw [hguard.journal, if_neg hlist], hguard.undoing⟩

/-- Bytes kept under a new number leave what the entries keep. -/
theorem Opened.save (hopen : Opened base undo entries disk)
    (hnum : ∀ entry ∈ entries, ∀ number mode, entry.state = .file number mode → number < entries.length)
    (bytes : String) :
    Opened base { undo with saved := Function.update undo.saved entries.length (some bytes) } entries
      { disk with undo := disk.undo.map fun undo ↦
        { undo with saved := Function.update undo.saved entries.length (some bytes) } } where
  area := by rw [hopen.area]; rfl
  journal := hopen.journal
  undoing :=
    { hopen.undoing with
      keeps := by
        intro entry hentry
        have hkeeps := hopen.undoing.keeps entry hentry
        rw [Entry.Keeps] at hkeeps ⊢
        cases hstate : entry.state with
        | absent | link _ => simpa only [hstate] using hkeeps
        | file number mode =>
          simp only [hstate] at hkeeps ⊢
          rwa [Function.update_of_ne (hnum entry hentry number mode hstate).ne] }

/-- What stood at a path is kept, and it was no directory. -/
structure Kept (base : TreeView) (entries : List Entry) (tree : PathTree) (entry : Entry) (disk : Disk) : Prop where
  unchanged : disk.tree = tree
  opened : ∃ undo, Opened base undo entries disk ∧ entry.Keeps base undo.saved
  plain : ∀ node, tree.look entry.path = some node → node.isDir = false
  numbered : ∀ number mode, entry.state = .file number mode → number = entries.length

theorem keepPrior_meets (hopen : Opened base undo entries disk)
    (hnum : ∀ entry ∈ entries, ∀ number mode, entry.state = .file number mode → number < entries.length)
    (hbase : disk.tree.look path = base path) (dirs : List Path) :
    Meets (Keeping base) (keepPrior path entries.length (disk.tree.look path))
      (fun r t w ↦ match r with
        | .ok state => w = entries ∧ Kept base entries disk.tree ⟨path, dirs, state⟩ t
        | .error _ => Recoverable base t w) disk entries := by
  cases hlook : disk.tree.look path with
  | none =>
    rw [keepPrior, meets_pure]
    exact ⟨rfl, rfl, ⟨undo, hopen, hbase.symm.trans hlook⟩, by simp [hlook], by simp⟩
  | some node =>
    cases node with
    | link _ =>
      rw [keepPrior, meets_pure]
      refine ⟨rfl, rfl, ⟨undo, hopen, hbase.symm.trans hlook⟩, ?_, by simp⟩
      simp [hlook, TreeNode.isDir]
    | dir mode =>
      rw [keepPrior, meets_throw]
      exact hopen.recoverable
    | file bytes mode =>
      have hsaved := hopen.save hnum bytes
      simp only [keepPrior, meets_bind, meets_commit, meets_pure]
      refine ⟨fun _ ↦ hsaved.holds, trivial, rfl, ⟨_, hsaved, bytes, by simp, hbase.symm.trans hlook⟩, ?_, ?_⟩
      · simp [hlook, TreeNode.isDir]
      · rintro _ _ heq
        cases heq
        rfl

section

variable (hwork : Working base ops disk entries) (hapart : Apart ops)
include hwork hapart

/-- The journal with one entry more. -/
theorem writeJournal_meets {op : Op} {state : Prior} {t : Disk} (hop : op ∈ ops)
    (hdirs : ∀ dir ∈ parents op.path, ∀ node, disk.tree.look dir = some node → node.isDir = true)
    (hkept : Kept base entries disk.tree ⟨op.path, disk.tree.missing op.path, state⟩ t) :
    Meets (Keeping base) (writeJournal ⟨op.path, disk.tree.missing op.path, state⟩)
      (Ends (fun t w ↦ Working base ops t w ∧ t.tree = disk.tree ∧ ∃ entry ∈ w, entry.path = op.path)
        (Recoverable base)) t entries := by
  obtain ⟨undo, hopen, hkeeps⟩ := hkept.opened
  have hjournal := hopen.undoing
  rw [hkept.unchanged] at hjournal
  have hmore := hjournal.guard hwork.formed (hwork.away hapart hop) hdirs hkeeps hkept.plain
  generalize hentry : (⟨op.path, disk.tree.missing op.path, state⟩ : Entry) = entry at hkept hkeeps hmore
  have hpath : entry.path = op.path := by rw [← hentry]
  have hguard : Guarded base { undo with journal := some (entries ++ [entry]) } (entries ++ [entry])
      { t with undo := t.undo.map fun undo ↦ { undo with journal := some (entries ++ [entry]) } } := by
    refine ⟨by rw [hopen.area]; rfl, rfl, ?_⟩
    rw [hkept.unchanged]
    exact hmore
  simp only [writeJournal, meets_bind, meets_remembered, meets_commit, meets_remember]
  refine ⟨fun _ ↦ hguard.holds, ⟨?_, by simp, fun _ ↦ ⟨_, hguard⟩, ?_, ?_⟩, hkept.unchanged, entry, by simp, hpath⟩
  · rw [hkept.unchanged]
    exact hwork.formed
  · rw [List.forall_mem_append, List.forall_mem_singleton, List.length_append, List.length_singleton]
    refine ⟨fun o hoth n mode hstate ↦ ?_, fun n mode hstate ↦ ?_⟩
    · exact (hwork.numbered o hoth n mode hstate).trans (Nat.lt_succ_self _)
    · rw [hkept.numbered n mode hstate]
      exact Nat.lt_succ_self _
  · rw [List.forall_mem_append, List.forall_mem_singleton]
    exact ⟨hwork.named, op, hop, hpath.symm⟩

theorem guardNew_meets {op : Op} (hop : op ∈ ops) (hnew : ∀ entry ∈ entries, entry.path ≠ op.path) :
    Meets (Keeping base) (guardNew op.path)
      (Ends (fun t w ↦ Working base ops t w ∧ t.tree = disk.tree ∧ ∃ entry ∈ w, entry.path = op.path)
        (Recoverable base)) disk entries := by
  simp only [guardNew, meets_bind, meets_remembered, meets_stored]
  cases hlstat : lstat disk.tree op.path with
  | error raised =>
    rw [meets_throw]
    exact hwork.recoverable
  | ok _ =>
    obtain ⟨rfl, hdirs⟩ := lstat_ok hlstat
    refine (openUndo_meets hwork).seq ?_ fun _ _ _ herr ↦ herr.elim
    rintro t w ⟨rfl, htree, _, hopen⟩
    have hbase : t.tree.look op.path = base op.path := hopen.undoing.same_new (hwork.away hapart hop) hnew
    rw [meets_bind, ← htree]
    refine (keepPrior_meets hopen hwork.numbered hbase (disk.tree.missing op.path)).mono ?_
    rintro (raised | _) _ w hends
    · exact hends
    · obtain ⟨rfl, hkept⟩ := hends
      rw [htree] at hkept ⊢
      exact writeJournal_meets hwork hapart hop hdirs hkept

theorem guard_meets {op : Op} (hop : op ∈ ops) :
    Meets (Keeping base) (guard op.path)
      (Ends (fun t w ↦ Working base ops t w ∧ t.tree = disk.tree ∧ ∃ entry ∈ w, entry.path = op.path)
        (Recoverable base)) disk entries := by
  rw [guard]
  split
  · rw [meets_throw]
    exact hwork.recoverable
  simp only [meets_bind, meets_remembered]
  split
  · rename_i hknown
    rw [meets_pure]
    refine ⟨hwork, rfl, ?_⟩
    simpa using hknown
  · rename_i hnew
    exact guardNew_meets hwork hapart hop (by simpa using hnew)

end

end Guarding

/-! ### Transactions -/

/-- The tree with directories for the parents that a path lacks. -/
def withParents (view : TreeView) (path : Path) : TreeView := fun other ↦
  if other ∈ parents path ∧ view other = none then some (.dir newDirMode) else view other

/-- What an operation is for. -/
def Op.effect : Op → TreeView → TreeView
  | .write path text, view => Function.update (withParents view path) path (some (.file text newFileMode))
  | .remove path, view => Function.update view path none

section Effects

variable {view : TreeView} {path : Path}

theorem withDirs_missing (hformed : WellFormed tree.look) :
    withDirs tree.look (tree.missing path).reverse = withParents tree.look path := by
  funext other
  have hiff : other ∈ tree.missing path ↔ other ∈ parents path ∧ tree.look other = none :=
    ⟨mem_missing, fun hmiss ↦ mem_missing_of_wellFormed hformed hmiss.1 hmiss.2⟩
  simp [withDirs, withParents, hiff]

theorem wellFormed_withParents (hformed : WellFormed view)
    (hdirs : ∀ dir ∈ parents path, ∀ node, view dir = some node → node.isDir = true) :
    WellFormed (withParents view path) ∧ ∀ dir ∈ parents path, ∃ mode, withParents view path dir = some (.dir mode) := by
  have hparents : ∀ dir ∈ parents path, ∃ mode, withParents view path dir = some (.dir mode) := by
    intro dir hdir
    rw [withParents]
    cases hview : view dir with
    | none => exact ⟨newDirMode, by simp [hdir]⟩
    | some node =>
      have hisDir := hdirs dir hdir node hview
      cases node with
      | dir mode => exact ⟨mode, by simp⟩
      | file _ _ | link _ => cases hisDir
  refine ⟨fun o hoth dir hdir ↦ ?_, hparents⟩
  by_cases hpar : o ∈ parents path
  · exact hparents dir (parents_trans hdir hpar)
  · have hview : view o ≠ none := by simpa [withParents, hpar] using hoth
    obtain ⟨mode, hmode⟩ := hformed o hview dir hdir
    exact ⟨mode, by simp [withParents, hmode]⟩

/-- A change at a path that is no directory, with directories for parents where something is put. -/
theorem wellFormed_update (hformed : WellFormed view) (hplain : ∀ node, view path = some node → node.isDir = false)
    (hpar : value ≠ none → ∀ dir ∈ parents path, ∃ mode, view dir = some (.dir mode)) :
    WellFormed (Function.update view path value) := by
  intro o hoth dir hdir
  have hmode : ∃ mode, view dir = some (.dir mode) := by
    by_cases hsame : o = path
    · subst hsame
      rw [Function.update_self] at hoth
      exact hpar hoth dir hdir
    · rw [Function.update_of_ne hsame] at hoth
      exact hformed o hoth dir hdir
  obtain ⟨mode, hmode⟩ := hmode
  refine ⟨mode, ?_⟩
  rw [Function.update_of_ne, hmode]
  rintro rfl
  cases hplain _ hmode

end Effects

section Transactions

variable {undo : Undo} {ops : List Op} {op : Op}

/-- The block goes on after a change at a guarded path. -/
theorem Working.change (hwork : Working base ops disk entries) {t : Disk} (hlist : entries ≠ [])
    (hguard : Guarded base undo entries t) (hformed : WellFormed t.tree.look) : Working base ops t entries :=
  { hwork with
    formed := hformed
    fresh := fun hnil ↦ absurd hnil hlist
    guarded := fun _ ↦ ⟨undo, hguard⟩ }

/-- A guard, and a change that has the effect of the operation. -/
theorem guarded_meets {program : Program Unit} (hwork : Working base ops disk entries) (hapart : Apart ops)
    (hop : op ∈ ops)
    (hprog : ∀ t w undo entry, Working base ops t w → Guarded base undo w t → entry ∈ w → entry.path = op.path →
      Meets (Keeping base) program (Turning base undo w w (op.effect t.tree.look)) t w ∧
        WellFormed (op.effect t.tree.look)) :
    Meets (Keeping base) (guard op.path >>= fun _ ↦ program)
      (Ends (fun t w ↦ Working base ops t w ∧ t.tree.look = op.effect disk.tree.look) (Recoverable base))
      disk entries := by
  refine (guard_meets hwork hapart hop).seq ?_ fun _ _ _ herr ↦ herr
  rintro t w ⟨hwork, htree, entry, hentry, hpath⟩
  have hlist := List.ne_nil_of_mem hentry
  obtain ⟨undo, hguard⟩ := hwork.guarded hlist
  obtain ⟨hmeets, hformed⟩ := hprog t w undo entry hwork hguard hentry hpath
  rw [htree] at hmeets hformed
  refine hmeets.mono ?_
  rintro (_ | _) _ w hends
  · exact hends.elim
  · obtain ⟨rfl, hafter, hlook⟩ := hends
    exact ⟨hwork.change hlist hafter (hlook ▸ hformed), hlook⟩

theorem Op.run_meets (hwork : Working base ops disk entries) (hapart : Apart ops) (hop : op ∈ ops) :
    Meets (Keeping base) op.run
      (Ends (fun t w ↦ Working base ops t w ∧ t.tree.look = op.effect disk.tree.look) (Recoverable base))
      disk entries := by
  cases op with
  | write path text =>
    refine guarded_meets hwork hapart hop fun t w undo entry hwork hguard hentry hpath ↦ ?_
    have hmeets := replaceAt_meets w hguard hentry (rfl : (TreeNode.file text newFileMode).isDir = false)
    have hplain := hguard.undoing.plain entry hentry
    have hdirs := fun dir (hdir : dir ∈ parents entry.path) ↦ hguard.undoing.parent_isDir hentry hdir
    rw [withDirs_missing hwork.formed] at hmeets
    rw [hpath] at hmeets hplain hdirs
    obtain ⟨hformed, hpar⟩ := wellFormed_withParents hwork.formed hdirs
    refine ⟨hmeets, wellFormed_update hformed (fun node hnode ↦ hplain node ?_) fun _ ↦ hpar⟩
    have hself : path ∉ parents path := fun hmem ↦ lt_irrefl _ (length_lt_of_mem_parents hmem)
    simpa [withParents, hself, Op.path] using hnode
  | remove path =>
    refine guarded_meets hwork hapart hop fun t w undo entry hwork hguard hentry hpath ↦ ?_
    have hmeets := unlink_meets w hguard hentry
    have hplain := hguard.undoing.plain entry hentry
    rw [hpath] at hmeets hplain
    exact ⟨hmeets, wellFormed_update hwork.formed hplain fun hvalue ↦ absurd rfl hvalue⟩

/-- A rollback does not fail, and brings the tree back. -/
theorem rollback_meets (hrec : Recoverable base disk entries) (hformed : WellFormed base) :
    Meets (Keeping base) rollback (Ends (fun t _ ↦ Restored base t) fun _ _ ↦ False) disk entries := by
  simp only [rollback, meets_bind, meets_remembered]
  split
  · rename_i hlist
    exact (discard_meets entries (hrec.fresh hlist)).done fun _ _ ↦ And.right
  · rename_i hlist
    obtain ⟨_, hguard⟩ := hrec.guarded hlist
    rw [meets_bind, meets_stored]
    dsimp only
    rw [hguard.area]
    refine (restore_meets entries hguard hformed).seq ?_ fun _ _ _ herr ↦ herr
    rintro _ w ⟨rfl, -, hsame⟩
    exact (discard_meets w hsame).done fun _ _ ↦ And.right

/-- What a list of operations is for. -/
def effects (ops : List Op) (view : TreeView) : TreeView := ops.foldl (fun view op ↦ op.effect view) view

theorem ops_meets (hback : Restored base disk) (hformed : WellFormed base) (hapart : Apart ops) :
    Meets (Keeping base) (each Op.run ops)
      (Ends (fun t w ↦ Working base ops t w ∧ t.tree.look = effects ops base) (Recoverable base)) disk [] := by
  have hwork : Working base ops disk [] :=
    ⟨hback.same ▸ hformed, fun _ ↦ hback, fun hnil ↦ absurd rfl hnil, by simp, by simp⟩
  refine meets_each (J := fun done t w ↦ Working base ops t w ∧ t.tree.look = effects done base) ?_
    ⟨hwork, hback.same⟩
  rintro done op _ hops t w ⟨hwork, hlook⟩
  have hop : op ∈ ops := by
    rw [hops]
    simp
  refine (Op.run_meets hwork hapart hop).done ?_
  rintro _ w ⟨hwork, hafter⟩
  exact ⟨hwork, by simpa [effects, hlook] using hafter⟩

/-- The block of a transaction either runs all its operations under the journal, or leaves the tree as it was. -/
theorem block_meets (raises : Bool) (hback : Restored base disk) (hformed : WellFormed base) (hapart : Apart ops) :
    Meets (Keeping base) (block ops raises)
      (Ends (fun t _ ↦ WellFormed (effects ops base) ∧ t.tree.look = effects ops base) fun t _ ↦ Restored base t)
      disk [] := by
  rw [block, meets_tryCatch]
  have hbody : Meets (Keeping base)
      (do
        each Op.run ops
        if raises then throw "the block raises" else return ())
      (Ends (fun t _ ↦ WellFormed (effects ops base) ∧ t.tree.look = effects ops base) (Recoverable base)) disk [] := by
    refine (ops_meets hback hformed hapart).seq ?_ fun _ _ _ herr ↦ herr
    rintro t w ⟨hwork, hlook⟩
    cases raises with
    | true => exact meets_throw.mpr hwork.recoverable
    | false => exact meets_pure.mpr ⟨hlook ▸ hwork.formed, hlook⟩
  refine hbody.mono ?_
  rintro (_ | _) t w hends
  · refine (rollback_meets hends hformed).seq ?_ fun _ _ _ hfalse ↦ hfalse.elim
    exact fun u w hback ↦ meets_throw.mpr hback
  · exact hends

/-- A transaction up to the retirement of its undo area. -/
def beforeRetiring (ops : List Op) (raises : Bool) : Program Unit := do
  recoverCanonUndo
  Durable.remember fun _ ↦ []
  block ops raises

theorem canonTransaction_eq (ops : List Op) (raises : Bool) :
    canonTransaction ops raises = beforeRetiring ops raises >>= fun _ ↦ discard := by
  simp only [canonTransaction, beforeRetiring, bind_assoc]

theorem beforeRetiring_meets (raises : Bool) (memory : List Entry) (hholds : Holds base disk) (hformed : WellFormed base)
    (hapart : Apart ops) :
    Meets (Keeping base) (beforeRetiring ops raises)
      (Ends (fun t _ ↦ WellFormed (effects ops base) ∧ t.tree.look = effects ops base) fun t _ ↦ Restored base t)
      disk memory := by
  refine (recoverCanonUndo_meets memory hholds hformed).seq ?_ fun _ _ _ hfalse ↦ hfalse.elim
  rintro _ _ ⟨rfl, hback⟩
  exact block_meets raises hback hformed hapart

end Transactions

/-! ### Histories -/

section Histories

/-- What a history has kept after one more attempt: a transaction that retired its undo area has its effect, and
every other attempt has none. -/
def keptAfter (disk : Disk) (base : TreeView) : Event × Option ℕ → TreeView
  | (.transaction ops raises, cut) =>
    let outcome := canonTransaction ops raises disk []
    if outcome.result.isOk ∧ cut.all (outcome.writes.length ≤ ·) then effects ops base else base
  | (.recover, _) => base

/-- The disk that an attempt leaves; a crash loses the memory. -/
abbrev leave (disk : Disk) (attempt : Event × Option ℕ) : Disk := crashStep Event.program (fun _ ↦ []) disk attempt

/-- What a history keeps. -/
def kept : Disk → TreeView → List (Event × Option ℕ) → TreeView
  | _, base, [] => base
  | disk, base, attempt :: rest => kept (leave disk attempt) (keptAfter disk base attempt) rest

/-- The paths of a transaction do not lie in one another. -/
def Event.Apart : Event → Prop
  | .transaction ops _ => Canon.Apart ops
  | .recover => True

instance (ops : List Op) : Decidable (Canon.Apart ops) :=
  inferInstanceAs (Decidable (∀ op ∈ ops, ∀ other ∈ ops, op.path ∉ parents other.path))

instance (event : Event) : Decidable event.Apart :=
  match event with
  | .transaction ops _ => inferInstanceAs (Decidable (Canon.Apart ops))
  | .recover => .isTrue trivial

/-- The disk that is left after some of the writes of a program that keeps `Holds`. -/
theorem holds_take {states : List Disk} (hholds : Holds base disk) (hchain : (disk :: states).IsChain (Keeping base))
    (n : ℕ) : Holds base ((states.take n).getLastD disk) := by
  have htake := hchain.take (n + 1)
  exact (isChain_invariant (Holds base) hholds htake fun _ _ hs hkeep ↦ hkeep hs).2

section

variable (hholds : Holds base disk) (hformed : WellFormed base)
include hholds hformed

theorem leave_transaction (raises : Bool) (hapart : Canon.Apart ops) (cut : Option ℕ) :
    Holds (keptAfter disk base (.transaction ops raises, cut)) (leave disk (.transaction ops raises, cut)) ∧
      WellFormed (keptAfter disk base (.transaction ops raises, cut)) := by
  obtain ⟨hchain, hends⟩ := beforeRetiring_meets raises [] hholds hformed hapart
  have hevent : (Event.transaction ops raises).program = canonTransaction ops raises := rfl
  cases hres : (beforeRetiring ops raises disk []).result with
  | error raised =>
    have hrun : canonTransaction ops raises disk [] = { beforeRetiring ops raises disk [] with result := .error raised } := by
      rw [canonTransaction_eq, bind_of_error _ hres]
    have hkept : keptAfter disk base (.transaction ops raises, cut) = base := by
      simp [keptAfter, hrun, Except.isOk, Except.toBool]
    have hwrite : (disk :: ((Event.transaction ops raises).program disk []).writes).IsChain (Keeping base) := by
      rw [hevent, hrun]
      exact hchain
    rw [hkept]
    exact ⟨crashStep_invariant (Holds base) _ hholds hwrite fun _ _ hs hkeep ↦ hkeep hs, hformed⟩
  | ok _ =>
    rw [hres] at hends
    obtain ⟨hafter, hlook⟩ := hends
    have hwrite : ((Event.transaction ops raises).program disk []).writes =
        (beforeRetiring ops raises disk []).writes ++
          [{ (beforeRetiring ops raises).final disk [] with undo := none }] := by
      rw [hevent, canonTransaction_eq, bind_of_ok _ hres]
      rfl
    have hok : (canonTransaction ops raises disk []).result.isOk = true := by
      rw [canonTransaction_eq, bind_of_ok _ hres]
      rfl
    have hretired : Restored (effects ops base) { (beforeRetiring ops raises).final disk [] with undo := none } :=
      ⟨rfl, hlook⟩
    by_cases hall : cut.all (((Event.transaction ops raises).program disk []).writes.length ≤ ·) = true
    · have hkept : keptAfter disk base (.transaction ops raises, cut) = effects ops base := if_pos ⟨hok, hall⟩
      have hleft : survivingWrites Event.program (fun _ ↦ []) disk (.transaction ops raises) cut =
          ((Event.transaction ops raises).program disk []).writes := by
        cases cut with
        | none => rfl
        | some n => exact List.take_of_length_le (by simpa using hall)
      rw [hkept, leave, crashStep, hleft, hwrite, List.getLastD_concat]
      exact ⟨hretired.holds, hafter⟩
    · have hkept : keptAfter disk base (.transaction ops raises, cut) = base := if_neg fun hboth ↦ hall hboth.2
      cases cut with
      | none => exact absurd rfl hall
      | some n =>
        have hlt : n ≤ (beforeRetiring ops raises disk []).writes.length := by
          simpa [hwrite, Nat.lt_succ_iff] using hall
        rw [hkept, leave, crashStep, survivingWrites, hwrite, List.take_append_of_le_length hlt]
        exact ⟨holds_take hholds hchain n, hformed⟩

theorem leave_recover (cut : Option ℕ) : Holds base (leave disk (.recover, cut)) :=
  crashStep_invariant (Holds base) _ hholds (recoverCanonUndo_meets [] hholds hformed).1 fun _ _ hs hkeep ↦ hkeep hs

/-- What the history has kept is what a recovery would bring back, at every point of it. -/
theorem holds_history {attempts : List (Event × Option ℕ)} (hapart : ∀ attempt ∈ attempts, attempt.1.Apart) :
    Holds (kept disk base attempts) (attempts.foldl leave disk) ∧ WellFormed (kept disk base attempts) := by
  induction attempts generalizing disk base with
  | nil => exact ⟨hholds, hformed⟩
  | cons attempt rest ih =>
    have hrest := fun o (hoth : o ∈ rest) ↦ hapart o (List.mem_cons_of_mem _ hoth)
    obtain ⟨ev, cut⟩ := attempt
    cases ev with
    | recover => exact ih (leave_recover hholds hformed cut) hformed hrest
    | transaction _ rs =>
      obtain ⟨hnext, hafter⟩ := leave_transaction hholds hformed rs (hapart _ List.mem_cons_self) cut
      exact ih hnext hafter hrest

end

/-- After any history of transactions and recoveries, each of which may have been cut short, recovery does not fail.
It leaves no undo area and the tree that the transactions that retired theirs have made. -/
theorem recoverCanonUndo_history (tree : PathTree) (hformed : WellFormed tree.look)
    {attempts : List (Event × Option ℕ)} (hapart : ∀ attempt ∈ attempts, attempt.1.Apart) :
    (recoverCanonUndo (attempts.foldl leave { tree }) []).result = .ok () ∧
      Restored (kept { tree } tree.look attempts) (recoverCanonUndo.final (attempts.foldl leave { tree }) []) := by
  have hstart : Restored tree.look { tree } := ⟨rfl, rfl⟩
  obtain ⟨hholds, hformed⟩ := holds_history hstart.holds hformed hapart
  obtain ⟨-, hends⟩ := recoverCanonUndo_meets [] hholds hformed
  cases hres : (recoverCanonUndo (attempts.foldl leave { tree }) []).result with
  | error _ =>
    rw [hres] at hends
    exact hends.elim
  | ok _ =>
    rw [hres] at hends
    exact ⟨rfl, hends.2⟩

/-- A tree of one file. -/
def oneFile : PathTree := PathTree.set (KeyedTable.empty TreeItem.path) ["a"] (.file "old" 0o644)

theorem wellFormed_oneFile : WellFormed oneFile.look := by
  intro path hpath _ hdir
  have hsame : path = ["a"] := by
    by_contra hne
    exact hpath (by rw [oneFile, look_set, Function.update_of_ne hne]; rfl)
  have hnone : parents ["a"] = [] := by decide
  rw [hsame, hnone] at hdir
  cases hdir

/-- A transaction is cut after it has removed the file, its recovery is cut, and the next transaction goes on from
the file that was there. -/
theorem recoverCanonUndo_history_witness :
    let attempts : List (Event × Option ℕ) :=
      [(.transaction [.write ["d", "b"] "new", .remove ["a"]] false, some 7), (.recover, some 1),
        (.transaction [.write ["d", "c"] "next"] false, none)]
    ((attempts.take 1).foldl leave { tree := oneFile }).tree.look ["a"] = none ∧
      (recoverCanonUndo (attempts.foldl leave { tree := oneFile }) []).result = .ok () ∧
      Restored (kept { tree := oneFile } oneFile.look attempts)
        (recoverCanonUndo.final (attempts.foldl leave { tree := oneFile }) []) ∧
      kept { tree := oneFile } oneFile.look attempts ["a"] = some (.file "old" 0o644) ∧
      kept { tree := oneFile } oneFile.look attempts ["d", "b"] = none ∧
      kept { tree := oneFile } oneFile.look attempts ["d", "c"] = some (.file "next" newFileMode) := by
  intro attempts
  have hapart : ∀ attempt ∈ attempts, attempt.1.Apart := by decide
  obtain ⟨hres, hback⟩ := recoverCanonUndo_history oneFile wellFormed_oneFile hapart
  exact ⟨by decide +kernel, hres, hback, by decide +kernel, by decide +kernel, by decide +kernel⟩

/-- A transaction that removes a file, writes below its path and raises: neither its rollback nor any recovery gets
past the directory that stands in the file's place. -/
theorem recoverCanonUndo_nested :
    let disk := leave { tree := oneFile } (.transaction [.remove ["a"], .write ["a", "b"] "new"] true, none)
    (recoverCanonUndo disk []).result = .error "memory canon path became a directory: a" ∧
      (recoverCanonUndo.final disk []).tree.look ["a"] = some (.dir newDirMode) ∧
      (recoverCanonUndo (leave disk (.recover, none)) []).result = .error "memory canon path became a directory: a" := by
  decide +kernel

end Histories

end Ummanu.Canon
