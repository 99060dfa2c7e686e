import Mathlib

/-!
# Histories: finite acyclic graphs of labelled nodes

A history is a finite list of nodes, newest first: every node names its parents, each parent stands
behind it in the list, and no two nodes have one id. Every finite acyclic graph has such a listing,
and it is the listing that makes the graph acyclic here (`Ordered`).

`Reaches` is the reflexive transitive closure of the parent relation. `ancestors` computes it in
one pass over the listing, and `mem_ancestors_iff` says so. `firstCommon` is the common ancestor of
two nodes that is listed first.

The rule the developments use is `exists_origin`: whatever holds of the label of a node was
introduced by some node it reaches, one of which it holds and of no parent of which it does.
-/

set_option autoImplicit false

namespace Ummanu.Library

/-- A node of a history: its id, the ids of its parents, and what it carries. -/
structure Node (ι α : Type*) where
  id : ι
  parents : List ι
  label : α
  deriving DecidableEq

variable {ι α : Type*}

/-- The listing is newest first: ids differ, and every parent is listed behind its child. -/
def Ordered : List (Node ι α) → Prop
  | [] => True
  | node :: rest =>
    (∀ other ∈ rest, other.id ≠ node.id) ∧ (∀ parent ∈ node.parents, ∃ other ∈ rest, other.id = parent) ∧ Ordered rest

instance Ordered.decidable [DecidableEq ι] :
    ∀ nodes : List (Node ι α), Decidable (Ordered nodes)
  | [] => .isTrue trivial
  | node :: rest =>
    have := Ordered.decidable rest
    inferInstanceAs (Decidable ((∀ other ∈ rest, other.id ≠ node.id) ∧
      (∀ parent ∈ node.parents, ∃ other ∈ rest, other.id = parent) ∧ Ordered rest))

/-- One step into the past: the second id is a parent of the node with the first. -/
def ParentOf (nodes : List (Node ι α)) (child parent : ι) : Prop :=
  ∃ node ∈ nodes, node.id = child ∧ parent ∈ node.parents

/-- The second id is the first or one of its ancestors. -/
def Reaches (nodes : List (Node ι α)) : ι → ι → Prop :=
  Relation.ReflTransGen (ParentOf nodes)

theorem Reaches.refl (nodes : List (Node ι α)) (id : ι) : Reaches nodes id id :=
  Relation.ReflTransGen.refl

variable {nodes rest : List (Node ι α)} {head : Node ι α}

theorem Ordered.eq_of_id_eq (hord : Ordered nodes) {first second : Node ι α}
    (hfst : first ∈ nodes) (hsnd : second ∈ nodes) (hid : first.id = second.id) : first = second := by
  induction nodes with
  | nil => cases hfst
  | cons _ _ ih =>
    rcases List.mem_cons.mp hfst with hfhead | hfrest <;>
      rcases List.mem_cons.mp hsnd with hshead | hsrest
    · rw [hfhead, hshead]
    · rw [hfhead] at hid
      exact absurd hid.symm (hord.1 second hsrest)
    · rw [hshead] at hid
      exact absurd hid (hord.1 first hfrest)
    · exact ih hord.2.2 hfrest hsrest

theorem Ordered.exists_parent (hord : Ordered nodes) {node : Node ι α} (hnode : node ∈ nodes)
    {parent : ι} (hpar : parent ∈ node.parents) : ∃ other ∈ nodes, other.id = parent := by
  induction nodes with
  | nil => cases hnode
  | cons _ _ ih =>
    rcases List.mem_cons.mp hnode with rfl | hnode
    · obtain ⟨other, hoth, hid⟩ := hord.2.1 parent hpar
      exact ⟨other, List.mem_cons_of_mem _ hoth, hid⟩
    · obtain ⟨other, hoth, hid⟩ := ih hord.2.2 hnode
      exact ⟨other, List.mem_cons_of_mem _ hoth, hid⟩

open Reaches

theorem Reaches.cons {first second : ι} (hreach : Reaches rest first second) :
    Reaches (head :: rest) first second := by
  induction hreach with
  | refl => exact refl _ _
  | tail _ hstep ih =>
    obtain ⟨node, hnode, hid, hpar⟩ := hstep
    exact ih.tail ⟨node, List.mem_cons_of_mem _ hnode, hid, hpar⟩

/-- A path that does not start at the newest node never meets it. -/
theorem Reaches.of_cons (hord : Ordered (head :: rest)) {first second : ι}
    (hreach : Reaches (head :: rest) first second) (hne : first ≠ head.id) :
    Reaches rest first second ∧ second ≠ head.id := by
  induction hreach with
  | refl => exact ⟨refl rest first, hne⟩
  | tail _ hstep ih =>
    obtain ⟨node, hnode, hid, hpar⟩ := hstep
    rcases List.mem_cons.mp hnode with rfl | hnode
    · exact absurd hid.symm ih.2
    · obtain ⟨o, hoth, hoid⟩ := hord.2.2.exists_parent hnode hpar
      refine ⟨ih.1.tail ⟨node, hnode, hid, hpar⟩, ?_⟩
      rw [← hoid]
      exact hord.1 o hoth

/-- A path from the newest node to an older one leaves it through a parent. -/
theorem Reaches.of_head (hord : Ordered (head :: rest)) {second : ι}
    (hreach : Reaches (head :: rest) head.id second) (hne : second ≠ head.id) :
    ∃ parent ∈ head.parents, Reaches rest parent second := by
  rcases Relation.ReflTransGen.cases_head hreach with heq | ⟨parent, hstep, htail⟩
  · exact absurd heq.symm hne
  · obtain ⟨node, hnode, hid, hpar⟩ := hstep
    have hhead : node = head := hord.eq_of_id_eq hnode List.mem_cons_self hid
    rw [hhead] at hpar
    obtain ⟨o, hoth, hoid⟩ := hord.2.1 parent hpar
    have hparentNe : parent ≠ head.id := by
      rw [← hoid]
      exact hord.1 o hoth
    exact ⟨parent, hpar, (of_cons hord htail hparentNe).1⟩

/-! ### Ancestors in one pass -/

section Ancestors

variable [DecidableEq ι]

/-- The nodes the tips reach, in listing order. -/
def ancestors : List (Node ι α) → List ι → List (Node ι α)
  | [], _ => []
  | node :: rest, tips =>
    if node.id ∈ tips then node :: ancestors rest (node.parents ++ tips) else ancestors rest tips

/-- The one pass over the listing finds exactly the nodes some tip reaches. -/
theorem mem_ancestors_iff (hord : Ordered nodes) {tips : List ι} {node : Node ι α} :
    node ∈ ancestors nodes tips ↔ node ∈ nodes ∧ ∃ tip ∈ tips, Reaches nodes tip node.id := by
  induction nodes generalizing tips with
  | nil => simp [ancestors]
  | cons head rest ih =>
    by_cases hnode : node = head
    · subst hnode
      have hnot : node ∉ rest := fun hmem ↦ hord.1 node hmem rfl
      have hback : (∃ tip ∈ tips, Reaches (node :: rest) tip node.id) ↔ node.id ∈ tips := by
        refine ⟨?_, fun htip ↦ ⟨node.id, htip, refl _ _⟩⟩
        rintro ⟨tip, htip, hreach⟩
        by_cases heq : tip = node.id
        · rwa [← heq]
        · exact absurd rfl (of_cons hord hreach heq).2
      rw [hback, ancestors]
      by_cases htip : node.id ∈ tips
      · simp [htip]
      · rw [if_neg htip, ih hord.2.2]
        simp [htip, hnot]
    · rw [List.mem_cons, or_iff_right hnode, ancestors]
      by_cases htip : head.id ∈ tips
      · rw [if_pos htip, List.mem_cons, or_iff_right hnode, ih hord.2.2]
        refine and_congr_right fun hmem ↦ ?_
        constructor
        · rintro ⟨tip, hmemTip, hreach⟩
          rcases List.mem_append.mp hmemTip with hpar | hold
          · have hstep : ParentOf (head :: rest) head.id tip :=
              ⟨head, List.mem_cons_self, rfl, hpar⟩
            exact ⟨head.id, htip, Relation.ReflTransGen.head hstep hreach.cons⟩
          · exact ⟨tip, hold, hreach.cons⟩
        · rintro ⟨tip, hmemTip, hreach⟩
          by_cases heq : tip = head.id
          · rw [heq] at hreach
            obtain ⟨par, hpar, hfrom⟩ :=
              of_head hord hreach (hord.1 node hmem)
            exact ⟨par, List.mem_append_left _ hpar, hfrom⟩
          · exact ⟨tip, List.mem_append_right _ hmemTip, (of_cons hord hreach heq).1⟩
      · rw [if_neg htip, ih hord.2.2]
        refine and_congr_right fun _ ↦ exists_congr fun tip ↦ and_congr_right fun hmemTip ↦ ?_
        have hne : tip ≠ head.id := fun heq ↦ htip (heq ▸ hmemTip)
        exact ⟨cons, fun hreach ↦ (of_cons hord hreach hne).1⟩

/-- The common ancestor of two nodes that is listed first. -/
def firstCommon (nodes : List (Node ι α)) (first second : ι) : Option (Node ι α) :=
  (ancestors nodes [first]).find? fun node ↦
    (ancestors nodes [second]).any fun other ↦ other.id = node.id

section Common

variable (hord : Ordered nodes)
include hord

variable {first second : ι} {node : Node ι α}

theorem mem_ancestors_singleton_iff {tip : ι} :
    node ∈ ancestors nodes [tip] ↔ node ∈ nodes ∧ Reaches nodes tip node.id := by
  rw [mem_ancestors_iff hord]
  simp

end Common

end Ancestors

/-! ### Where a label comes from -/

/-- Whatever holds of a node was introduced by a node it reaches: one of which it holds and of no
parent of which it does. -/
theorem exists_origin (hord : Ordered nodes) (holds : α → Prop)
    {node : Node ι α} (hnode : node ∈ nodes) (hholds : holds node.label) :
    ∃ origin ∈ nodes, Reaches nodes node.id origin.id ∧ holds origin.label ∧
      ∀ parent ∈ nodes, parent.id ∈ origin.parents → ¬ holds parent.label := by
  -- the listing is walked from its oldest end, so a holding parent has its origin by induction
  induction nodes generalizing node with
  | nil => cases hnode
  | cons head rest ih =>
    have hrest : ∀ older ∈ rest, holds older.label → ∃ origin ∈ head :: rest,
        Reaches (head :: rest) older.id origin.id ∧ holds origin.label ∧
          ∀ parent ∈ head :: rest, parent.id ∈ origin.parents → ¬ holds parent.label := by
      intro older holder hlabel
      obtain ⟨origin, horig, hreach, hlabelled, hfresh⟩ := ih hord.2.2 holder hlabel
      refine ⟨origin, List.mem_cons_of_mem _ horig, hreach.cons, hlabelled, ?_⟩
      intro parent hpar hid
      rcases List.mem_cons.mp hpar with rfl | hpar
      · obtain ⟨o, hoth, hoid⟩ := hord.2.2.exists_parent horig hid
        exact absurd hoid (hord.1 o hoth)
      · exact hfresh parent hpar hid
    rcases List.mem_cons.mp hnode with rfl | holder
    · by_cases hdirs : ∃ parent ∈ rest, parent.id ∈ node.parents ∧ holds parent.label
      · obtain ⟨parent, hpar, hid, hlabel⟩ := hdirs
        obtain ⟨origin, horig, hreach, hlabelled⟩ := hrest parent hpar hlabel
        have hstep : ParentOf (node :: rest) node.id parent.id :=
          ⟨node, List.mem_cons_self, rfl, hid⟩
        exact ⟨origin, horig, Relation.ReflTransGen.head hstep hreach, hlabelled⟩
      · refine ⟨node, List.mem_cons_self, refl _ _, hholds, ?_⟩
        intro parent hpar hid hlabel
        rcases List.mem_cons.mp hpar with rfl | hpar
        · obtain ⟨o, hoth, hoid⟩ := hord.2.1 parent.id hid
          exact hord.1 o hoth hoid
        · exact hdirs ⟨parent, hpar, hid, hlabel⟩
    · exact hrest node holder hholds

end Ummanu.Library
