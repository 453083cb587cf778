import Mathlib.Data.List.Basic

/-!
Lists of grants with a wildcard: a list that has the wildcard grants
everything, any other list what is in it.

`Within` compares what two lists grant. It is a preorder, coarser than
inclusion: a list without the wildcard may be within one that has nothing
but the wildcard.
-/

namespace PocketCoder.Foundation

variable {α : Type} {wildcard a : α} {grants grants' grants'' : List α}

/-- The list grants `a`. -/
def Covers (wildcard : α) (grants : List α) (a : α) : Prop := wildcard ∈ grants ∨ a ∈ grants

/-- The first list grants nothing that the second does not. -/
def Within (wildcard : α) (grants grants' : List α) : Prop :=
  ∀ a ∈ grants, Covers wildcard grants' a

theorem contains_iff_covers [BEq α] [LawfulBEq α] :
    (grants.contains wildcard || grants.contains a) = true ↔ Covers wildcard grants a := by
  rw [Bool.or_eq_true, List.contains_iff_mem, List.contains_iff_mem]
  rfl

namespace Within

theorem of_subset (h : grants ⊆ grants') : Within wildcard grants grants' :=
  fun _ ha => .inr (h ha)

theorem refl (grants : List α) : Within wildcard grants grants := of_subset fun _ ha => ha

/-- Everything is within a list that has the wildcard. -/
theorem of_wildcard (h : wildcard ∈ grants') : Within wildcard grants grants' := fun _ _ => .inl h

/-- Only a list with the wildcard covers the wildcard. -/
theorem wildcard_mem (h : Within wildcard grants grants') (hmem : wildcard ∈ grants) :
    wildcard ∈ grants' := by
  rcases h wildcard hmem with hwildcard | hwildcard
  · exact hwildcard
  · exact hwildcard

theorem trans (h : Within wildcard grants grants') (h' : Within wildcard grants' grants'') :
    Within wildcard grants grants'' := by
  intro a ha
  rcases h a ha with hwildcard | hmem
  · exact .inl (h'.wildcard_mem hwildcard)
  · exact h' a hmem

end Within

end PocketCoder.Foundation
