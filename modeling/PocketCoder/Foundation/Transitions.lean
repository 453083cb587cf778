import Mathlib.Logic.Relation

/-!
Labelled transition systems: runs of a step relation, and the rules that
carry a fact about one step to a fact about a run.

`Run.invariant` is for facts about single states, `Run.relates` for facts
about the first and the last state of a run, which must compose: what the
relation keeps is then kept for good.
-/

namespace PocketCoder.Foundation

universe u v

variable {σ : Type u} {α : Type v}

/-- The runs of a step relation, with the labels of their steps. -/
inductive Run (step : σ → α → σ → Prop) : σ → List α → σ → Prop
  | nil (s : σ) : Run step s [] s
  | cons {s s' s'' : σ} {a : α} {as : List α} :
      step s a s' → Run step s' as s'' → Run step s (a :: as) s''

namespace Run

variable {step : σ → α → σ → Prop} {s s' s'' : σ} {a : α} {as bs : List α}

theorem single (h : step s a s') : Run step s [a] s' := .cons h (.nil s')

theorem append (h : Run step s as s') (h' : Run step s' bs s'') : Run step s (as ++ bs) s'' := by
  induction h with
  | nil => exact h'
  | cons hstep _ ih => exact .cons hstep (ih h')

/-- The steps of a run may be seen as steps of a larger relation. -/
theorem mono {step' : σ → α → σ → Prop} (h : Run step s as s')
    (hstep : ∀ {s a s'}, step s a s' → step' s a s') : Run step' s as s' := by
  induction h with
  | nil s => exact .nil s
  | cons hfirst _ ih => exact .cons (hstep hfirst) ih

/-- The runs of a function. -/
theorem of_foldl (f : σ → α → σ) (as : List α) (s : σ) :
    Run (fun s a s' => s' = f s a) s as (as.foldl f s) := by
  induction as generalizing s with
  | nil => exact .nil s
  | cons a as ih => exact .cons rfl (ih (f s a))

/-- A run goes through each of its labels. -/
theorem of_mem (h : Run step s as s') (ha : a ∈ as) :
    ∃ bs cs t t', Run step s bs t ∧ step t a t' ∧ Run step t' cs s' := by
  induction h with
  | nil => cases ha
  | @cons s t s' b as hstep hrun ih =>
      rcases List.mem_cons.1 ha with rfl | htail
      · exact ⟨[], as, s, t, .nil s, hstep, hrun⟩
      · obtain ⟨bs, cs, u, u', hbefore, hlabel, hafter⟩ := ih htail
        exact ⟨b :: bs, cs, u, u', .cons hstep hbefore, hlabel, hafter⟩

/-- A property that every step keeps holds at the end of a run. -/
theorem invariant {I : σ → Prop} (h : Run step s as s')
    (hstep : ∀ {s a s'}, step s a s' → I s → I s') (hs : I s) : I s' := by
  induction h with
  | nil => exact hs
  | cons hfirst _ ih => exact ih (hstep hfirst hs)

/-- A preorder that every step from an invariant state respects relates the
ends of a run. -/
theorem relates {I : σ → Prop} {R : σ → σ → Prop} (h : Run step s as s') (hrefl : ∀ s, R s s)
    (htrans : ∀ {s s' s''}, R s s' → R s' s'' → R s s'')
    (hstep : ∀ {s a s'}, step s a s' → I s → I s')
    (hrel : ∀ {s a s'}, step s a s' → I s → R s s') (hs : I s) : R s s' := by
  induction h with
  | nil s => exact hrefl s
  | cons hfirst _ ih => exact htrans (hrel hfirst hs) (ih (hstep hfirst hs))

end Run

end PocketCoder.Foundation
