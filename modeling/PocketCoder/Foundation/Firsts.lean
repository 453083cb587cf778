import Mathlib.Data.List.Sublists

/-!
The first item of each key: `firsts key items` has the items that have no key,
and of the items with one key the first.

The two filters of the result say what it is: nothing without a key is lost, and
of a key there is one item when there is any.
-/

namespace PocketCoder.Foundation

universe u v

variable {α : Type u} {κ : Type v} [DecidableEq κ] {key : α → Option κ}

/-- An item is dropped when an earlier one has its key. -/
def keepFirst (key : α → Option κ) (kept : List α) (item : α) : List α :=
  if (key item).isSome && kept.any (key · = key item) then kept else kept ++ [item]

def firsts (key : α → Option κ) (items : List α) : List α := items.foldl (keepFirst key) []

theorem firsts_concat (items : List α) (item : α) :
    firsts key (items ++ [item]) = keepFirst key (firsts key items) item := by
  rw [firsts, List.foldl_append, List.foldl_cons, List.foldl_nil, firsts]

theorem firsts_sublist (items : List α) : (firsts key items).Sublist items := by
  induction items using List.reverseRecOn with
  | nil => exact List.Sublist.refl _
  | append_singleton items item ih =>
      rw [firsts_concat, keepFirst]
      split
      · exact ih.trans (List.sublist_append_left _ _)
      · exact ih.append (List.Sublist.refl _)

/-- Every item without a key is kept. -/
theorem filter_firsts_none (items : List α) :
    (firsts key items).filter (key · = none) = items.filter (key · = none) := by
  induction items using List.reverseRecOn with
  | nil => rfl
  | append_singleton items item ih =>
      rw [firsts_concat, keepFirst, List.filter_append]
      split
      case isTrue hseen =>
        obtain ⟨k, hk⟩ := Option.isSome_iff_exists.mp (Bool.and_eq_true_iff.mp hseen).1
        rw [ih, List.filter_cons_of_neg (by simp [hk]), List.filter_nil, List.append_nil]
      case isFalse => rw [List.filter_append, ih]

/-- Of the items with one key the first is kept. -/
theorem filter_firsts_some (items : List α) (k : κ) :
    (firsts key items).filter (key · = some k) = (items.filter (key · = some k)).take 1 := by
  induction items using List.reverseRecOn with
  | nil => rfl
  | append_singleton items item ih =>
      rw [firsts_concat, keepFirst, List.filter_append]
      by_cases hk : key item = some k
      · rw [List.filter_cons_of_pos (by simp [hk]), List.filter_nil]
        have hseen : (firsts key items).any (key · = key item) = true ↔
            (firsts key items).filter (key · = some k) ≠ [] := by
          rw [hk, Ne, List.filter_eq_nil_iff, List.any_eq_true]
          push Not
          rfl
        cases hbefore : items.filter (key · = some k) with
        | nil =>
            rw [hbefore] at ih
            have hnew : ¬((key item).isSome && (firsts key items).any (key · = key item)) = true :=
              fun h => hseen.mp (Bool.and_eq_true_iff.mp h).2 ih
            rw [if_neg hnew, List.filter_append, ih, List.filter_cons_of_pos (by simp [hk])]
            rfl
        | cons first others =>
            rw [hbefore] at ih
            have hold : ((key item).isSome && (firsts key items).any (key · = key item)) = true :=
              Bool.and_eq_true_iff.mpr ⟨by rw [hk]; rfl, hseen.mpr (by rw [ih]; exact List.cons_ne_nil _ _)⟩
            rw [if_pos hold, ih]
            rfl
      · have hother : [item].filter (key · = some k) = [] :=
          List.filter_cons_of_neg (by simpa using hk)
        rw [hother, List.append_nil, ← ih]
        split
        · rfl
        · rw [List.filter_append, hother, List.append_nil]

end PocketCoder.Foundation
