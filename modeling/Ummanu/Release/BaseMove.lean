import Ummanu.Release.Git

/-!
# Reconciling a reviewed commit with a move of its base

After a review the card's checkout may move because its integration base was merged into it. The
host accepts such a move without a new review when `reconcile_reviewed_base_move` answers: the
reviewed commit is an ancestor of the current one, the range between them holds no commit of its
own outside the base's history, and the paths the review changed are the same in both.

`reconcileReviewedBaseMove` transcribes it, and `reconcileReviewedBaseMove_accepts` says what an
answer means about the history (`Accepts`).

That nothing lands that was neither reviewed nor part of the base's history
(`CarriesOnlyReviewed`) does not hold of every history. The listing of candidate commits leaves
merge commits out, so content of a merge commit's own passes (`mergeCommit_smuggles`), and a
commit of the reviewed branch whose content the review no longer has may come back through a merge.
`carriesOnlyReviewed_iff` says that there is nothing else: the property holds exactly when no such
commit authored content that the current commit has at a path the move changed.
-/

set_option autoImplicit false

namespace Ummanu.Release

open Library Repository

variable {reviewedCommit currentCommit : String} {paths : List String}
variable {γ : Type*}

/-! ### The host's check -/

/-- What the check reads of the host, the task and the record: the mode, the record's workspace, the
integration base the catalog gives for the task (`none` when it refuses one), and the repository in
the workspace with its reading of pathspecs. -/
structure GitHost (γ : Type*) where
  noop : Bool
  workspace : String
  integrationBase : Option String
  repo : Repository γ
  pathspecs : Pathspecs

/-- The answer of an accepted move. -/
structure BaseMove where
  reviewedSha : String
  headSha : String
  baseSha : String
  reviewedPaths : ℕ
  deriving DecidableEq

/-- The paths of a NUL-ended listing: `changed.split("\0")[:-1] if changed else []`. -/
def splitListing (changed : List Char) : List String :=
  if changed = [] then [] else ((changed.splitOn nul).dropLast).map String.ofList

/-- The name of the integration base's remote-tracking branch. -/
def GitHost.baseName (host : GitHost γ) : Option String :=
  host.integrationBase.map ("origin/" ++ ·)

/-- `reconcile_reviewed_base_move`. Any failed command denies the reconciliation. -/
def reconcileReviewedBaseMove [DecidableEq γ] (host : GitHost γ)
    (reviewedCommit currentCommit : String) : Option BaseMove :=
  if host.noop = true ∨ host.workspace = "" then none
  else do
    let baseName ← host.baseName
    let baseSha ← host.repo.revParseVerify baseName
    if ¬ [reviewedCommit, currentCommit, baseSha].all isExactSha then none
    else do
      host.repo.mergeBaseIsAncestor reviewedCommit currentCommit
      let unreviewed ← host.repo.revListNoMerges reviewedCommit currentCommit baseSha
      if unreviewed ≠ [] then none
      else do
        let fork ← host.repo.mergeBase reviewedCommit baseSha
        if ¬ isExactSha fork then none
        else do
          let changed ← host.repo.diffNameOnly fork reviewedCommit
          if changed ≠ [] ∧ changed.getLast? ≠ some nul then none
          else do
            let paths := splitListing changed
            if paths ≠ [] then
              host.repo.diffQuiet host.pathspecs reviewedCommit currentCommit paths
            some
              { reviewedSha := reviewedCommit
                headSha := currentCommit
                baseSha := baseSha
                reviewedPaths := paths.length }

/-- The commits the integration base reaches. -/
def GitHost.baseHistory (host : GitHost γ) : List (Commit γ) :=
  match host.baseName with
  | none => []
  | some name => host.repo.history name

theorem GitHost.baseHistory_of_baseName {host : GitHost γ} {name : String}
    (hname : host.baseName = some name) : host.baseHistory = host.repo.history name := by
  rw [GitHost.baseHistory, hname]

/-- What an accepted move says about the history: the base resolves to `base`, the reviewed commit
and the base meet in `fork`, only merge commits of the range are outside the base's history, and
the paths changed since the fork were compared. -/
structure Accepts [DecidableEq γ] (host : GitHost γ) (reviewedCommit currentCommit : String)
    (fork : String) (paths : List String) : Prop where
  merges : ∀ commit ∈ host.repo.history currentCommit,
    commit ∉ host.repo.history reviewedCommit → commit ∉ host.baseHistory → isMerge commit = true
  forked : ∃ name sha, host.baseName = some name ∧ host.repo.revParseVerify name = some sha ∧
    host.repo.mergeBase reviewedCommit sha = some fork
  listed : (host.repo.diffNameOnly fork reviewedCommit).map splitListing = some paths
  compared : paths ≠ [] → host.repo.diffQuiet host.pathspecs reviewedCommit currentCommit paths = some ()

/-- An answer of the check means what `Accepts` says. -/
theorem reconcileReviewedBaseMove_accepts [DecidableEq γ] {host : GitHost γ} {move : BaseMove}
    (hmove : reconcileReviewedBaseMove host reviewedCommit currentCommit = some move) :
    ∃ fork paths, Accepts host reviewedCommit currentCommit fork paths := by
  obtain ⟨-, hmove⟩ := Option.ite_none_left_eq_some.mp hmove
  obtain ⟨name, hname, hmove⟩ := Option.bind_eq_some_iff.mp hmove
  obtain ⟨sha, hsha, hmove⟩ := Option.bind_eq_some_iff.mp hmove
  obtain ⟨-, hmove⟩ := Option.ite_none_left_eq_some.mp hmove
  obtain ⟨-, -, hmove⟩ := Option.bind_eq_some_iff.mp hmove
  obtain ⟨_, hlist, hmove⟩ := Option.bind_eq_some_iff.mp hmove
  obtain ⟨hunreviewed, hmove⟩ := Option.ite_none_left_eq_some.mp hmove
  obtain ⟨fork, hfork, hmove⟩ := Option.bind_eq_some_iff.mp hmove
  obtain ⟨-, hmove⟩ := Option.ite_none_left_eq_some.mp hmove
  obtain ⟨changed, hchg, hmove⟩ := Option.bind_eq_some_iff.mp hmove
  obtain ⟨-, hmove⟩ := Option.ite_none_left_eq_some.mp hmove
  refine ⟨fork, splitListing changed, ?_, ⟨name, sha, hname, hsha, hfork⟩, by rw [hchg]; rfl, ?_⟩
  · intro _ hin hrev _
    rw [not_not.mp hunreviewed] at hlist
    apply isMerge_of_revListNoMerges hlist hin hrev
    rwa [history, resolve_revParseVerify hsha, ← history, ← GitHost.baseHistory_of_baseName hname]
  · intro hpaths
    rw [if_pos hpaths] at hmove
    obtain ⟨_, hquiet, -⟩ := Option.bind_eq_some_iff.mp hmove
    exact hquiet

/-! ### What an accepted move keeps -/

theorem splitOn_zListing (hplain : ∀ path ∈ paths, nul ∉ path.toList) :
    (zListing paths).splitOn nul = paths.map String.toList ++ [[]] := by
  induction paths with
  | nil => rfl
  | cons path rest ih =>
    have hhead : nul ∉ path.toList := hplain path List.mem_cons_self
    have hlist : zListing (path :: rest) = path.toList ++ nul :: zListing rest := by
      simp [zListing]
    rw [hlist, List.splitOn_append_cons_self_of_not_mem hhead, ih fun o hoth ↦ hplain o (List.mem_cons_of_mem _ hoth)]
    rfl

/-- Splitting a listing gives the listed paths back. -/
theorem splitListing_zListing (hplain : ∀ path ∈ paths, nul ∉ path.toList) :
    splitListing (zListing paths) = paths := by
  unfold splitListing
  by_cases hnil : zListing paths = []
  · cases paths with
    | nil => rfl
    | cons path _ => simp [zListing] at hnil
  · rw [if_neg hnil, splitOn_zListing hplain, List.dropLast_concat, List.map_map]
    exact (List.map_congr_left fun path _ ↦ String.ofList_toList).trans (List.map_id paths)

section Accepted

variable [DecidableEq γ] {host : GitHost γ} {fork : String}
  (hacc : Accepts host reviewedCommit currentCommit fork paths)
include hacc

/-- The compared paths are those at which the reviewed commit differs from the fork. -/
theorem Accepts.mem_paths_iff {path : String} :
    path ∈ paths ↔
      host.repo.contentAt fork path ≠ host.repo.contentAt reviewedCommit path := by
  have hlisted := hacc.listed
  unfold diffNameOnly at hlisted
  split at hlisted
  · next _ _ hone hoth =>
    rw [Option.map_some, splitListing_zListing fun _ ↦ nul_notMem_of_mem_changedPaths] at hlisted
    rw [← Option.some.inj hlisted, mem_changedPaths_iff, contentAt_of_resolve hone, contentAt_of_resolve hoth]
  · cases hlisted

end Accepted

/-! ### What an accepted move may carry -/

/-- Every path of the current commit has the content the reviewed commit has there, or one that
some commit of the base's history has there. -/
def CarriesOnlyReviewed (host : GitHost γ) (reviewedCommit currentCommit : String) : Prop :=
  ∀ path content, host.repo.contentAt currentCommit path = some content →
    host.repo.contentAt reviewedCommit path = some content ∨
      ∃ commit ∈ host.baseHistory, commit.label.content path = some content

/-- A commit authored its content at a path: neither a parent nor any commit of the base's history
has it there. -/
def Authors (host : GitHost γ) (commit : Commit γ) (path : String) : Prop :=
  (∀ parent ∈ host.repo.commits, parent.id ∈ commit.parents → parent.label.content path ≠ commit.label.content path) ∧
    ∀ older ∈ host.baseHistory, older.label.content path ≠ commit.label.content path

instance Authors.decidable [DecidableEq γ] (host : GitHost γ) (commit : Commit γ)
    (path : String) : Decidable (Authors host commit path) :=
  inferInstanceAs (Decidable (_ ∧ _))

/-- A merge commit of the current history, or a commit of the reviewed history, authored content
that the current commit has at a path where it differs from the reviewed commit. -/
def Smuggles (host : GitHost γ) (reviewedCommit currentCommit : String) : Prop :=
  ∃ commit ∈ host.repo.history currentCommit,
    (isMerge commit = true ∨ commit ∈ host.repo.history reviewedCommit) ∧
      ∃ path ∈ commit.label.paths, Authors host commit path ∧
        host.repo.contentAt currentCommit path = commit.label.content path ∧
          host.repo.contentAt currentCommit path ≠ host.repo.contentAt reviewedCommit path

instance Smuggles.decidable [DecidableEq γ] (host : GitHost γ)
    (reviewedCommit currentCommit : String) :
    Decidable (Smuggles host reviewedCommit currentCommit) :=
  inferInstanceAs (Decidable (∃ commit ∈ host.repo.history currentCommit, _ ∧ ∃ path ∈ _, _))

/-- Content that neither the reviewed commit nor the base's history has at a path was authored by a
commit the check does not look at. -/
theorem smuggles_of_foreign [DecidableEq γ] {host : GitHost γ} {fork : String}
    (hacc : Accepts host reviewedCommit currentCommit fork paths) {path : String} {content : γ}
    (hcur : host.repo.contentAt currentCommit path = some content)
    (hrev : host.repo.contentAt reviewedCommit path ≠ some content)
    (hbase : ∀ commit ∈ host.baseHistory, commit.label.content path ≠ some content) :
    Smuggles host reviewedCommit currentCommit := by
  cases htip : host.repo.resolve currentCommit with
  | none => simp [contentAt, htip] at hcur
  | some tip =>
    have htipContent : tip.label.content path = some content := by
      rwa [contentAt_of_resolve htip] at hcur
    obtain ⟨origin, horig, hreach, horiginContent, hfresh⟩ :=
      exists_origin host.repo.ordered (fun tree : Tree γ ↦ tree.content path = some content)
        (mem_of_resolve htip) htipContent
    have hin : origin ∈ host.repo.history currentCommit :=
      mem_history_iff.mpr ⟨horig, tip, htip, hreach⟩
    have hnotBase : origin ∉ host.baseHistory := fun hmem ↦ hbase origin hmem horiginContent
    refine ⟨origin, hin, ?_, path, Tree.mem_paths_iff.mpr ⟨content, horiginContent⟩, ⟨?_, ?_⟩, ?_, ?_⟩
    · by_cases hold : origin ∈ host.repo.history reviewedCommit
      · exact .inr hold
      · exact .inl (hacc.merges origin hin hold hnotBase)
    · rw [horiginContent]
      exact hfresh
    · rw [horiginContent]
      exact hbase
    · rw [horiginContent, hcur]
    · rw [hcur]
      exact hrev.symm

/-- For every history and every reviewed and current commit the check accepts, the current commit
carries only reviewed content and content of the base's history exactly when no merge commit and no
commit of the reviewed branch smuggles content in. -/
theorem carriesOnlyReviewed_iff [DecidableEq γ] (host : GitHost γ)
    (reviewedCommit currentCommit : String) (move : BaseMove)
    (hmove : reconcileReviewedBaseMove host reviewedCommit currentCommit = some move) :
    CarriesOnlyReviewed host reviewedCommit currentCommit ↔
      ¬ Smuggles host reviewedCommit currentCommit := by
  obtain ⟨_, _, hacc⟩ := reconcileReviewedBaseMove_accepts hmove
  constructor
  · rintro hcarry ⟨_, -, -, path, hpath, ⟨-, hfresh⟩, hcur, hmov⟩
    obtain ⟨content, hcontent⟩ := Tree.mem_paths_iff.mp hpath
    rw [hcontent] at hfresh hcur
    rcases hcarry path content hcur with hrev | ⟨older, holder, hsame⟩
    · exact hmov (hcur.trans hrev.symm)
    · exact hfresh older holder hsame
  · intro hcln path content hcur
    by_contra hfor
    obtain ⟨hrev, hbase⟩ := not_or.mp hfor
    push Not at hbase
    exact hcln (smuggles_of_foreign hacc hcur hrev hbase)

/-! ### A merge commit with content of its own -/

/-- An object name made of one hexadecimal digit. -/
def sampleSha (digit : Char) : String :=
  String.ofList (List.replicate 40 digit)

theorem sampleSha_exact {digit : Char} (hdigit : isHexDigit digit = true) (hlower : digit.toLower = digit) :
    isExactSha (sampleSha digit) = true ∧ lowerCase (sampleSha digit) = sampleSha digit := by
  simp [isExactSha, sampleSha, lowerCase, hdigit, hlower]

/-- A tree of one-line files. -/
def sampleTree (entries : List (String × String))
    (hvalid : (entries.map Prod.fst).Nodup ∧ ∀ entry ∈ entries, entry.1 ≠ "" ∧ nul ∉ entry.1.toList) :
    Tree String :=
  ⟨entries, hvalid.1, hvalid.2⟩

/-- The base adds a file, the review changes another, and a merge of the two has a given tree. -/
def sampleCommits (merged : Tree String) : List (Commit String) :=
  [ ⟨sampleSha 'd', [sampleSha 'c', sampleSha 'b'], merged⟩,
    ⟨sampleSha 'c', [sampleSha 'a'], sampleTree [("app.py", "reviewed")] (by decide +kernel)⟩,
    ⟨sampleSha 'b', [sampleSha 'a'], sampleTree [("app.py", "old"), ("base.py", "base")] (by decide +kernel)⟩,
    ⟨sampleSha 'a', [], sampleTree [("app.py", "old")] (by decide +kernel)⟩ ]

/-- The tree of a merge that takes both sides. -/
def cleanMerge : Tree String :=
  sampleTree [("app.py", "reviewed"), ("base.py", "base")] (by decide +kernel)

/-- The tree of a merge that adds a file neither side has. -/
def evilMerge : Tree String :=
  sampleTree [("app.py", "reviewed"), ("base.py", "base"), ("hook.py", "unreviewed")] (by decide +kernel)

/-- A workspace on the merge, whose integration base is `main`. -/
def sampleHost (merged : Tree String) : GitHost String where
  noop := false
  workspace := "/workspaces/card"
  integrationBase := some "main"
  repo :=
    { commits := sampleCommits merged
      ordered := of_decide_eq_true rfl
      fullNamed := by
        intro commit hcommit
        simp only [sampleCommits, List.mem_cons, List.not_mem_nil, or_false] at hcommit
        rcases hcommit with rfl | rfl | rfl | rfl <;> exact sampleSha_exact rfl rfl
      branches := [("origin/main", sampleSha 'b')] }
  pathspecs := plainPathspecs

/-- The check accepts a merge commit that adds a file neither the review nor the base has. -/
theorem mergeCommit_smuggles :
    (reconcileReviewedBaseMove (sampleHost evilMerge) (sampleSha 'c') (sampleSha 'd')).isSome ∧
      ¬ CarriesOnlyReviewed (sampleHost evilMerge) (sampleSha 'c') (sampleSha 'd') := by
  refine ⟨by decide +kernel, fun hcarry ↦ ?_⟩
  rcases hcarry "hook.py" "unreviewed" (by decide +kernel) with hrev | hbase
  · exact absurd hrev (by decide +kernel)
  · exact absurd hbase (by decide +kernel)

/-- The merge that takes both sides is accepted and carries only reviewed and base content. -/
theorem carriesOnlyReviewed_iff_witness :
    CarriesOnlyReviewed (sampleHost cleanMerge) (sampleSha 'c') (sampleSha 'd') := by
  have hmove : reconcileReviewedBaseMove (sampleHost cleanMerge) (sampleSha 'c') (sampleSha 'd') =
      some ⟨sampleSha 'c', sampleSha 'd', sampleSha 'b', 1⟩ := by decide +kernel
  apply (carriesOnlyReviewed_iff _ _ _ _ hmove).mpr
  decide +kernel

end Ummanu.Release
