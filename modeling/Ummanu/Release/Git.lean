import Ummanu.Library.CommitGraph

/-!
# The Git commands the dispatch host reads a checkout with

A repository is a finite history of commits, each with a tree from paths to contents, and a table
of the remote-tracking branches. The commands answer by Git's documented semantics: an answer of
`none` is an exit status other than zero, which the host turns into a `HostError`.

- `revParseVerify` resolves a branch name or a full object name to a commit.
- `mergeBaseIsAncestor` is `git merge-base --is-ancestor`.
- `revListNoMerges` is `git rev-list --no-merges a..b --not c`: what `b` reaches and neither `a` nor
  `c` does, commits with two or more parents left out.
- `mergeBase` is `git merge-base`: a best common ancestor. Of several it takes the one listed first,
  and a history may be listed in any order that keeps children before parents.
- `diffNameOnly` is `git diff --name-only -z --no-renames`: the changed paths, each ended by a NUL.
- `diffQuiet` is `git diff --quiet a b -- paths`: it succeeds when no path the pathspecs select
  differs.

How a list of pathspecs selects paths (magic words, wildcards, directories) is a parameter of the
host, `Pathspecs`: none of the results depends on it. `plainPathspecs` is its reading of names that
hold neither.

Scope. Object names are full hexadecimal ones. Blobs, modes and submodule entries are one type of
contents, and names that are not text (which the host refuses) have no counterpart.
-/

set_option autoImplicit false

namespace Ummanu.Release

open Library

variable {path : String}

/-! ### Object names -/

/-- A hexadecimal digit in either case. -/
def isHexDigit (c : Char) : Bool :=
  c.isDigit || ('a' ≤ c && c ≤ 'f') || ('A' ≤ c && c ≤ 'F')

/-- `is_exact_sha`: a full SHA-1 or SHA-256 object name. -/
def isExactSha (value : String) : Bool :=
  (value.length == 40 || value.length == 64) && value.toList.all isHexDigit

/-- An object name in the case Git prints it. -/
def lowerCase (value : String) : String :=
  String.ofList (value.toList.map Char.toLower)

/-! ### Trees and repositories -/

/-- The character that ends each path of a `-z` listing. -/
def nul : Char := '\x00'

/-- A commit's tree: distinct paths, none of which is empty or holds a NUL, and their contents. -/
structure Tree (γ : Type*) where
  entries : List (String × γ)
  distinct : (entries.map Prod.fst).Nodup
  named : ∀ entry ∈ entries, entry.1 ≠ "" ∧ nul ∉ entry.1.toList
  deriving DecidableEq

variable {γ : Type*}

/-- The paths of a tree. -/
def Tree.paths (tree : Tree γ) : List String :=
  tree.entries.map Prod.fst

/-- What a tree holds at a path. -/
def Tree.content (tree : Tree γ) (path : String) : Option γ :=
  tree.entries.lookup path

/-- A commit: its object name, its parents' names, its tree. -/
abbrev Commit (γ : Type*) := Node String (Tree γ)

/-- A merge commit has two parents or more. -/
def isMerge (commit : Commit γ) : Bool :=
  2 ≤ commit.parents.length

/-- A repository: its commits, newest first, and its remote-tracking branches. -/
structure Repository (γ : Type*) where
  commits : List (Commit γ)
  ordered : Ordered commits
  fullNamed : ∀ commit ∈ commits, isExactSha commit.id = true ∧ lowerCase commit.id = commit.id
  branches : List (String × String)

/-- The commit a name stands for: a full object name in either case, or a branch. -/
def Repository.resolve (repo : Repository γ) (name : String) : Option (Commit γ) :=
  if isExactSha name then
    repo.commits.find? fun commit ↦ commit.id = lowerCase name
  else
    match repo.branches.lookup name with
    | none => none
    | some sha => repo.commits.find? fun commit ↦ commit.id = sha

/-- The commits a name reaches, itself included. -/
def Repository.history (repo : Repository γ) (name : String) : List (Commit γ) :=
  match repo.resolve name with
  | none => []
  | some tip => ancestors repo.commits [tip.id]

/-- What the tree of a named commit holds at a path. -/
def Repository.contentAt (repo : Repository γ) (name path : String) : Option γ :=
  match repo.resolve name with
  | none => none
  | some commit => commit.label.content path

variable {repo : Repository γ} {name : String} {tree : Tree γ}

open Repository

theorem Repository.mem_of_resolve {commit : Commit γ} (hres : repo.resolve name = some commit) :
    commit ∈ repo.commits := by
  unfold resolve at hres
  by_cases hexact : isExactSha name = true
  · rw [if_pos hexact] at hres
    exact List.mem_of_find?_eq_some hres
  · rw [if_neg hexact] at hres
    cases hlook : repo.branches.lookup name with
    | none => simp [hlook] at hres
    | some _ =>
      rw [hlook] at hres
      exact List.mem_of_find?_eq_some hres

/-- The printed name of a commit resolves to the commit. -/
theorem Repository.resolve_id {commit : Commit γ} (hcom : commit ∈ repo.commits) :
    repo.resolve commit.id = some commit := by
  obtain ⟨hexact, hlower⟩ := repo.fullNamed commit hcom
  rw [resolve, if_pos hexact, hlower]
  cases hfind : repo.commits.find? fun o ↦ o.id = commit.id with
  | none => exact absurd (by simp) (List.find?_eq_none.mp hfind commit hcom)
  | some o =>
    have hid : o.id = commit.id := by simpa using List.find?_some hfind
    rw [repo.ordered.eq_of_id_eq (List.mem_of_find?_eq_some hfind) hcom hid]

/-- The history of a name is what its commit reaches. -/
theorem Repository.mem_history_iff {commit : Commit γ} :
    commit ∈ repo.history name ↔ commit ∈ repo.commits ∧
      ∃ tip, repo.resolve name = some tip ∧ Reaches repo.commits tip.id commit.id := by
  unfold history
  cases hres : repo.resolve name with
  | none => simp
  | some _ => simp [mem_ancestors_singleton_iff repo.ordered]

theorem Repository.contentAt_of_resolve {commit : Commit γ} (hres : repo.resolve name = some commit)
    (path : String) : repo.contentAt name path = commit.label.content path := by
  rw [contentAt, hres]

/-- A tree holds something at exactly its own paths. -/
theorem Tree.mem_paths_iff : path ∈ tree.paths ↔ ∃ content, tree.content path = some content := by
  rw [← Option.ne_none_iff_exists', ← not_iff_not, ne_eq, not_not, Tree.content, List.lookup_eq_none_iff]
  constructor
  · intro hpath e hent
    have hne : path ≠ e.1 := fun heq ↦ hpath (heq ▸ List.mem_map_of_mem hent)
    simpa using hne
  · intro hnone hpath
    obtain ⟨e, hent, heq⟩ := List.mem_map.mp hpath
    simpa [heq] using hnone e hent

theorem Tree.content_eq_none (hpath : path ∉ tree.paths) : tree.content path = none := by
  by_contra hsome
  exact hpath (Tree.mem_paths_iff.mpr (Option.ne_none_iff_exists'.mp hsome))

/-- No path of a tree holds the character that ends a listed path. -/
theorem Tree.nul_notMem (hpath : path ∈ tree.paths) : nul ∉ path.toList := by
  obtain ⟨e, hent, rfl⟩ := List.mem_map.mp hpath
  exact (tree.named e hent).2

/-! ### Commands about ancestry -/

/-- `git rev-parse --verify name^commit`, which prints the object name of the commit. -/
def Repository.revParseVerify (repo : Repository γ) (name : String) : Option String :=
  (repo.resolve name).map Node.id

/-- A name and the object name it resolves to stand for one commit. -/
theorem Repository.resolve_revParseVerify {name sha : String} (hparse : repo.revParseVerify name = some sha) :
    repo.resolve sha = repo.resolve name := by
  obtain ⟨_, hres, rfl⟩ := Option.map_eq_some_iff.mp hparse
  rw [hres, resolve_id (mem_of_resolve hres)]

/-- `git merge-base --is-ancestor older newer`. -/
def Repository.mergeBaseIsAncestor (repo : Repository γ) (older newer : String) : Option Unit :=
  match repo.resolve older, repo.resolve newer with
  | some ancestor, some _ =>
    if (repo.history newer).any fun commit ↦ commit.id = ancestor.id then some () else none
  | _, _ => none

/-- `git rev-list --no-merges excluded..included --not hidden`, the names it prints. -/
def Repository.revListNoMerges (repo : Repository γ) (excluded included hidden : String) :
    Option (List String) :=
  match repo.resolve excluded, repo.resolve included, repo.resolve hidden with
  | some first, some tip, some second =>
    let known := ancestors repo.commits [first.id, second.id]
    let listed := (ancestors repo.commits [tip.id]).filter fun commit ↦
      !isMerge commit && !known.any fun other ↦ other.id = commit.id
    some (listed.map Node.id)
  | _, _, _ => none

/-- `git merge-base first second`, which fails when the two share no ancestor. -/
def Repository.mergeBase (repo : Repository γ) (first second : String) : Option String :=
  match repo.resolve first, repo.resolve second with
  | some one, some other => (firstCommon repo.commits one.id other.id).map Node.id
  | _, _ => none

/-- An empty listing leaves only merge commits in the range. -/
theorem Repository.isMerge_of_revListNoMerges {excluded included hidden : String}
    (hlist : repo.revListNoMerges excluded included hidden = some []) {commit : Commit γ}
    (hin : commit ∈ repo.history included) (hexcluded : commit ∉ repo.history excluded)
    (hhidden : commit ∉ repo.history hidden) : isMerge commit = true := by
  obtain ⟨hmem, _, hinTip, hreach⟩ := mem_history_iff.mp hin
  rw [revListNoMerges, hinTip] at hlist
  cases hfst : repo.resolve excluded with
  | none => simp [hfst] at hlist
  | some a =>
    cases hsnd : repo.resolve hidden with
    | none => simp [hfst, hsnd] at hlist
    | some b =>
      rw [hfst, hsnd] at hlist
      have hnil := List.map_eq_nil_iff.mp (Option.some.inj hlist)
      have hkept := List.filter_eq_nil_iff.mp hnil commit
        ((mem_ancestors_singleton_iff repo.ordered).mpr ⟨hmem, hreach⟩)
      have hknown : ((ancestors repo.commits [a.id, b.id]).any fun o ↦
          o.id = commit.id) = false := by
        rw [List.any_eq_false]
        intro o hoth hid
        obtain ⟨homem, _, hstart, hsreach⟩ := (mem_ancestors_iff repo.ordered).mp hoth
        have hsame : o = commit :=
          repo.ordered.eq_of_id_eq homem hmem (by simpa using hid)
        rw [hsame] at hsreach
        rcases List.mem_pair.mp hstart with rfl | rfl
        · exact hexcluded (mem_history_iff.mpr ⟨hmem, a, hfst, hsreach⟩)
        · exact hhidden (mem_history_iff.mpr ⟨hmem, b, hsnd, hsreach⟩)
      simpa [hknown] using hkept

/-! ### Commands about trees -/

section Trees

variable [DecidableEq γ]

/-- The paths at which two trees differ. -/
def changedPaths (first second : Tree γ) : List String :=
  (first.paths ++ second.paths.filter (· ∉ first.paths)).filter fun path ↦
    first.content path ≠ second.content path

/-- A listing of paths in the `-z` format: each is ended by a NUL. -/
def zListing (paths : List String) : List Char :=
  paths.flatMap fun path ↦ path.toList ++ [nul]

/-- `git diff --name-only -z --no-renames first second`, the text it prints. -/
def Repository.diffNameOnly (repo : Repository γ) (first second : String) : Option (List Char) :=
  match repo.resolve first, repo.resolve second with
  | some one, some other => some (zListing (changedPaths one.label other.label))
  | _, _ => none

/-- How Git reads a list of pathspecs: `none` when it refuses them, else the paths they select. -/
abbrev Pathspecs := List String → Option (String → Bool)

/-- The reading of pathspecs without magic and wildcards: a path selects itself and what lies
below it. -/
def plainPathspecs : Pathspecs := fun specs ↦ some fun path ↦
  specs.any fun spec ↦ path == spec || (spec.toList ++ ['/']).isPrefixOf path.toList

/-- `git diff --quiet first second -- specs`. -/
def Repository.diffQuiet (repo : Repository γ) (pathspecs : Pathspecs) (first second : String)
    (specs : List String) : Option Unit :=
  match repo.resolve first, repo.resolve second, pathspecs specs with
  | some one, some other, some selects =>
    if (changedPaths one.label other.label).any selects then none else some ()
  | _, _, _ => none

/-- The listing of changed paths names exactly the paths at which the trees differ. -/
theorem mem_changedPaths_iff {first second : Tree γ} :
    path ∈ changedPaths first second ↔ first.content path ≠ second.content path := by
  rw [changedPaths, List.mem_filter]
  refine ⟨fun hpath ↦ by simpa using hpath.2, fun hne ↦ ⟨?_, by simpa using hne⟩⟩
  by_cases hfst : path ∈ first.paths
  · exact List.mem_append_left _ hfst
  · by_cases hsnd : path ∈ second.paths
    · exact List.mem_append_right _ (List.mem_filter.mpr ⟨hsnd, by simpa using hfst⟩)
    · rw [Tree.content_eq_none hfst, Tree.content_eq_none hsnd] at hne
      exact absurd rfl hne

theorem nul_notMem_of_mem_changedPaths {first second : Tree γ} (hpath : path ∈ changedPaths first second) :
    nul ∉ path.toList := by
  rcases List.mem_append.mp (List.mem_filter.mp hpath).1 with hfst | hsnd
  · exact first.nul_notMem hfst
  · exact second.nul_notMem (List.mem_filter.mp hsnd).1

end Trees

end Ummanu.Release
