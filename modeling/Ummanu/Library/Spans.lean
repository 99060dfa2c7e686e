import Mathlib

/-!
# Alarms that fire once per span

A watcher is shown a condition that holds and is released again. Each time the condition is seen
to begin holding a span opens and the watcher announces it; within a span it may raise the alarm
once; a sight of the condition released closes the span. A sight of nothing changes no span.

`SpanStep` is one step of such a watcher and `SpanRun` a run. How often a run announces is decided
by the sights alone (`SpanRun.count_announce`), and a run raises at most once for every span it
was in (`SpanRun.count_raise_le`). `openings_held_le_one_iff` says when the sights open no more
than one span: no sight of the condition follows a sight of it released.
-/

set_option autoImplicit false

namespace Ummanu.Library

/-- What one look at a condition shows. -/
inductive Sight
  | nothing | held | released
deriving DecidableEq, Repr

/-- Where a watcher stands: outside a span, inside one, or inside one that was raised. -/
inductive SpanPhase
  | closed | opened | raised
deriving DecidableEq, Repr

/-- What a watcher does on one look. -/
inductive SpanOutput
  | silent | announce | raise
deriving DecidableEq, Repr

/-- One step of a watcher that announces every span and raises at most once in it. -/
inductive SpanStep : SpanPhase → Sight → SpanOutput → SpanPhase → Prop
  | outside : SpanStep .closed .nothing .silent .closed
  | announce : SpanStep .closed .held .announce .opened
  | wait {sight : Sight} (hsight : sight ≠ .released) : SpanStep .opened sight .silent .opened
  | raise {sight : Sight} (hsight : sight ≠ .released) : SpanStep .opened sight .raise .raised
  | rest {sight : Sight} (hsight : sight ≠ .released) : SpanStep .raised sight .silent .raised
  | release (phase : SpanPhase) : SpanStep phase .released .silent .closed

/-- A run of a watcher. -/
inductive SpanRun : SpanPhase → List Sight → List SpanOutput → Prop
  | nil (phase : SpanPhase) : SpanRun phase [] []
  | cons {phase next : SpanPhase} {sight : Sight} {output : SpanOutput} {sights : List Sight}
      {outputs : List SpanOutput} (hstep : SpanStep phase sight output next)
      (hrest : SpanRun next sights outputs) : SpanRun phase (sight :: sights) (output :: outputs)

/-- The number of spans that some sights open, from inside a span or from outside. -/
def openings : Bool → List Sight → ℕ
  | _, [] => 0
  | inside, .nothing :: rest => openings inside rest
  | true, .held :: rest => openings true rest
  | false, .held :: rest => openings true rest + 1
  | _, .released :: rest => openings false rest

theorem openings_true_cons {sight : Sight} (hsight : sight ≠ .released) (rest : List Sight) :
    openings true (sight :: rest) = openings true rest := by
  cases sight with
  | nothing | held => rfl
  | released => exact absurd rfl hsight

/-- A phase inside a span. -/
def SpanPhase.inside : SpanPhase → Bool
  | closed => false
  | opened | raised => true

open SpanPhase

/-- A watcher announces exactly the spans its sights open. -/
theorem SpanRun.count_announce {phase : SpanPhase} {sights : List Sight}
    {outputs : List SpanOutput} (hrun : SpanRun phase sights outputs) :
    outputs.count .announce = openings phase.inside sights := by
  induction hrun with
  | nil phase => rfl
  | cons hstep _ ih =>
    cases hstep with
    | outside => simpa [openings, inside] using ih
    | announce => simpa [openings, inside] using ih
    | wait hsight | raise hsight | rest hsight =>
      simpa [inside, openings_true_cons hsight] using ih
    | release phase =>
      cases phase <;> simpa [openings, inside] using ih

/-- The spans a phase can still raise in. -/
def SpanPhase.raisable : SpanPhase → ℕ
  | opened => 1
  | closed | raised => 0

/-- A watcher raises at most once in every span. -/
theorem SpanRun.count_raise_le {phase : SpanPhase} {sights : List Sight}
    {outputs : List SpanOutput} (hrun : SpanRun phase sights outputs) :
    outputs.count .raise ≤ outputs.count .announce + phase.raisable := by
  induction hrun with
  | nil phase => simp
  | cons hstep _ ih =>
    cases hstep with
    | outside => simpa [raisable] using ih
    | announce => simpa [raisable, Nat.add_comm] using ih
    | wait => simpa [raisable] using ih
    | raise => simpa [raisable] using ih
    | rest => simpa [raisable] using ih
    | release phase =>
      have hshut : closed.raisable = 0 := rfl
      simp only [List.count_cons_of_ne (by simp : SpanOutput.silent ≠ .raise),
        List.count_cons_of_ne (by simp : SpanOutput.silent ≠ .announce)]
      omega

/-- From outside a span, sights open none exactly when the condition is never seen. -/
theorem openings_false_eq_zero_iff {sights : List Sight} :
    openings false sights = 0 ↔ .held ∉ sights := by
  induction sights with
  | nil => simp [openings]
  | cons sight _ ih =>
    cases sight with
    | nothing => simpa [openings] using ih
    | held => simp [openings]
    | released => simpa [openings] using ih

/-- From inside a span, sights open no other exactly when the condition is not seen again after a
release. -/
theorem openings_true_eq_zero_iff {sights : List Sight} :
    openings true sights = 0 ↔
      sights.Pairwise fun earlier later ↦ earlier = .released → later ≠ .held := by
  induction sights with
  | nil => simp [openings]
  | cons sight _ ih =>
    cases sight with
    | nothing => simpa [openings] using ih
    | held => simpa [openings] using ih
    | released =>
      rw [openings, openings_false_eq_zero_iff, List.pairwise_cons]
      constructor
      · intro hnone
        refine ⟨fun _ hlater _ heq ↦ hnone (heq ▸ hlater), ?_⟩
        exact List.Pairwise.imp_of_mem (fun _ hlater _ _ heq ↦ hnone (heq ▸ hlater))
          (List.pairwise_of_forall fun _ _ ↦ trivial)
      · exact fun hpair hheld ↦ hpair.1 .held hheld rfl rfl

/-- Sights that begin with the condition open one span exactly when it is not seen again after a
release. -/
theorem openings_held_le_one_iff {rest : List Sight} :
    openings false (.held :: rest) ≤ 1 ↔
      (Sight.held :: rest).Pairwise fun earlier later ↦ earlier = .released → later ≠ .held := by
  rw [openings, List.pairwise_cons, ← openings_true_eq_zero_iff]
  simp

end Ummanu.Library
