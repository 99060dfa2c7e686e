import Ummanu.Library.KeyedTable

/-!
# Trees of paths

A directory tree as the finite table of its paths. A path is the list of its components below the root; its
`parents` are the directories it lies in, the nearest first. In a well-formed tree whatever stands at a path has
directories for parents, so that the parents that are missing are the nearest ones.
-/

set_option autoImplicit false

namespace Ummanu.Library

open KeyedTable

/-- The components of a path below the root. -/
abbrev Path := List String

/-- What stands at a path. -/
inductive TreeNode
  | file (bytes : String) (mode : ℕ)
  | link (target : String)
  | dir (mode : ℕ)
  deriving DecidableEq

def TreeNode.isDir : TreeNode → Bool
  | .dir _ => true
  | _ => false

structure TreeItem where
  path : Path
  node : TreeNode

abbrev PathTree := KeyedTable TreeItem.path

/-- What a tree is to those who read it. -/
abbrev TreeView := Path → Option TreeNode

/-- The directories that a path lies in, the nearest first. -/
def parents (path : Path) : List Path := (path.inits.filter fun dir ↦ dir ≠ [] ∧ dir ≠ path).reverse

@[simp] theorem mem_parents {dir path : Path} : dir ∈ parents path ↔ dir <+: path ∧ dir ≠ [] ∧ dir ≠ path := by
  simp [parents]

theorem length_lt_of_mem_parents {dir path : Path} (hdir : dir ∈ parents path) : dir.length < path.length := by
  obtain ⟨hinit, -, hne⟩ := mem_parents.mp hdir
  exact lt_of_le_of_ne hinit.length_le fun hlen ↦ hne (hinit.eq_of_length hlen)

theorem parents_trans {outer dir path : Path} (houter : outer ∈ parents dir) (hdir : dir ∈ parents path) :
    outer ∈ parents path := by
  have hlen := (length_lt_of_mem_parents houter).trans (length_lt_of_mem_parents hdir)
  rw [mem_parents] at houter hdir ⊢
  refine ⟨houter.1.trans hdir.1, houter.2.1, fun hsame ↦ ?_⟩
  rw [hsame] at hlen
  exact lt_irrefl _ hlen

theorem pairwise_inits {α : Type} (path : List α) :
    path.inits.Pairwise fun first second ↦ first <+: second ∧ first ≠ second := by
  induction path with
  | nil => simp
  | cons name _ ih =>
    rw [List.inits_cons, List.pairwise_cons, List.pairwise_map]
    refine ⟨by simp, ih.imp ?_⟩
    rintro _ _ ⟨hinit, hne⟩
    exact ⟨(List.prefix_cons_inj name).mpr hinit, by simpa using hne⟩

/-- Every parent that follows is a parent of those before. -/
theorem pairwise_parents (path : Path) : (parents path).Pairwise fun near far ↦ far ∈ parents near := by
  rw [parents, List.pairwise_reverse]
  refine ((pairwise_inits path).filter _).imp_of_mem ?_
  rintro _ _ hfst _ ⟨hinit, hne⟩
  simp only [List.mem_filter, decide_eq_true_eq] at hfst
  exact mem_parents.mpr ⟨hinit, hfst.2.1, hne⟩

/-- What holds of an element and, with it, of all before it is taken as long as it holds. -/
theorem mem_takeWhile_of_pairwise {α : Type} {p : α → Bool} {R : α → α → Prop} {items : List α} {a : α}
    (hpair : items.Pairwise R) (hback : ∀ first second, R first second → p second = true → p first = true)
    (hmem : a ∈ items) (ha : p a = true) : a ∈ items.takeWhile p := by
  induction items with
  | nil => cases hmem
  | cons head _ ih =>
    obtain ⟨hhead, hrest⟩ := List.pairwise_cons.mp hpair
    rcases List.mem_cons.mp hmem with rfl | hin
    · rw [List.takeWhile_cons_of_pos ha]
      exact List.mem_cons_self
    · rw [List.takeWhile_cons_of_pos (hback head a (hhead a hin) ha)]
      exact List.mem_cons_of_mem _ (ih hrest hin)

/-- Whatever stands at a path has directories for parents. -/
def WellFormed (view : TreeView) : Prop :=
  ∀ path, view path ≠ none → ∀ dir ∈ parents path, ∃ mode, view dir = some (.dir mode)

namespace PathTree

variable {tree : PathTree} {path other : Path} {node : TreeNode}

def look (tree : PathTree) : TreeView := fun path ↦ (tree.find path).map (·.node)

def set (tree : PathTree) (path : Path) (node : TreeNode) : PathTree := tree.put ⟨path, node⟩

theorem look_set : (set tree path node).look = Function.update tree.look path (some node) := by
  funext other
  by_cases hoth : other = path
  · rw [hoth, Function.update_self, look, set, find_put_self tree ⟨path, node⟩]
    rfl
  · rw [Function.update_of_ne hoth, look, set, find_put_of_ne tree ⟨path, node⟩ hoth]
    rfl

theorem look_erase : look (tree.erase path) = Function.update tree.look path none := by
  funext other
  by_cases hoth : other = path
  · rw [hoth, Function.update_self, look, find_erase_self]
    rfl
  · rw [Function.update_of_ne hoth, look, find_erase_of_ne _ hoth]
    rfl

/-- The parents that a path lacks, the nearest first. -/
def missing (tree : PathTree) (path : Path) : List Path := (parents path).takeWhile fun dir ↦ (look tree dir).isNone

theorem mem_missing (hmiss : other ∈ missing tree path) : other ∈ parents path ∧ look tree other = none := by
  have hnone := (List.all_eq_true.mp List.all_takeWhile) other hmiss
  exact ⟨(List.takeWhile_sublist _).subset hmiss, Option.isNone_iff_eq_none.mp hnone⟩

/-- Nothing stands below a path. -/
def isEmpty (tree : PathTree) (path : Path) : Bool := tree.rows.all fun item ↦ path ∉ parents item.path

theorem isEmpty_iff : isEmpty tree path = true ↔ ∀ below, path ∈ parents below → look tree below = none := by
  simp only [isEmpty, List.all_eq_true, decide_eq_true_eq]
  constructor
  · intro hnil below hbelow
    cases hfind : tree.find below with
    | none => rw [look, hfind]; rfl
    | some item =>
      have hkey := key_of_find hfind
      subst hkey
      exact absurd hbelow (hnil item ((mem_rows_iff _ _).mpr hfind))
  · intro hbelow item hitem hpar
    have hlook := hbelow item.path hpar
    rw [look, (mem_rows_iff _ _).mp hitem] at hlook
    cases hlook

/-- In a well-formed tree every parent that is not there is missing. -/
theorem mem_missing_of_wellFormed (hwf : WellFormed tree.look) (hpar : other ∈ parents path)
    (hnone : look tree other = none) : other ∈ missing tree path := by
  refine mem_takeWhile_of_pairwise (pairwise_parents path) (fun near far hfar hmiss ↦ ?_) hpar (by simp [hnone])
  rw [Option.isNone_iff_eq_none] at hmiss ⊢
  by_contra hthere
  obtain ⟨_, hdir⟩ := hwf near hthere far hfar
  cases hmiss.symm.trans hdir

end PathTree

end Ummanu.Library
