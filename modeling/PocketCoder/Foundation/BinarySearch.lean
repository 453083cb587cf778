import Mathlib.Order.Basic
import Mathlib.Order.Compare
import Mathlib.Order.Lattice

/-!
Binary search in a list that is read one item at a time, where a read may
fail. In a list with increasing keys the search ends, and it answers with
the item that has the key exactly when there is one.
-/

namespace PocketCoder.Foundation

variable {α κ ε : Type} [LinearOrder κ] {key : α → κ}

/-- How two keys compare. -/
def comparison (a b : κ) : Ordering := cmp a b

theorem comparison_eq_lt {a b : κ} : comparison a b = .lt ↔ a < b := cmp_eq_lt_iff a b

theorem comparison_eq_eq {a b : κ} : comparison a b = .eq ↔ a = b := cmp_eq_eq_iff a b

theorem comparison_eq_gt {a b : κ} : comparison a b = .gt ↔ b < a := cmp_eq_gt_iff a b

/-- The keys of a list increase. -/
def Increasing (key : α → κ) (items : List α) : Prop :=
  items.Pairwise fun a b => key a < key b

/-- The loop of a binary search between `lower` and `upper`; `order` compares
an item with what is looked for. -/
def search (read : Nat → Except ε α) (order : α → Ordering) (lower upper : Nat) :
    Except ε (Option (α × Nat)) :=
  if lower < upper then
    let middle := lower + (upper - lower) / 2
    match read middle with
    | .error e => .error e
    | .ok item =>
        match order item with
        | .eq => .ok (some (item, middle))
        | .lt => search read order (middle + 1) upper
        | .gt => search read order lower middle
  else .ok none
termination_by upper - lower

theorem Increasing.getElem_lt {items : List α} (h : Increasing key items) {i j : Nat}
    (hi : i < items.length) (hj : j < items.length) (hij : i < j) :
    key items[i] < key items[j] :=
  List.pairwise_iff_getElem.mp h i j hi hj hij

/-- Items with the same key are at the same place. -/
theorem Increasing.getElem_inj {items : List α} (h : Increasing key items) {i j : Nat}
    (hi : i < items.length) (hj : j < items.length) (heq : key items[i] = key items[j]) :
    i = j := by
  rcases Nat.lt_trichotomy i j with hlt | heq' | hgt
  · exact absurd heq (h.getElem_lt hi hj hlt).ne
  · exact heq'
  · exact absurd heq.symm (h.getElem_lt hj hi hgt).ne

variable {items : List α} {read : Nat → Except ε α} {order : α → Ordering} {k : κ}

/-- What a search answers: the invariant is that the key can only be between
the two bounds. -/
theorem search_spec (hitems : Increasing key items)
    (hread : ∀ i (h : i < items.length), read i = .ok items[i])
    (horder : ∀ a, order a = comparison (key a) k) {lower upper : Nat} (hupper : upper ≤ items.length)
    (hwithin : ∀ i (h : i < items.length), key items[i] = k → lower ≤ i ∧ i < upper) :
    (∃ i, ∃ h : i < items.length, search read order lower upper = .ok (some (items[i], i)) ∧
      key items[i] = k) ∨
    (search read order lower upper = .ok none ∧ ∀ a ∈ items, key a ≠ k) := by
  fun_induction search read order lower upper with
  | case1 lower upper hlt middle e hmiddle =>
      have hin : middle < items.length := by omega
      rw [hread middle hin] at hmiddle
      cases hmiddle
  | case2 lower upper hlt middle item hmiddle heq =>
      have hin : middle < items.length := by omega
      rw [hread middle hin, Except.ok.injEq] at hmiddle
      subst hmiddle
      rw [horder, comparison_eq_eq] at heq
      exact .inl ⟨middle, hin, rfl, heq⟩
  | case3 lower upper hlt middle item hmiddle hless ih =>
      have hin : middle < items.length := by omega
      rw [hread middle hin, Except.ok.injEq] at hmiddle
      subst hmiddle
      rw [horder, comparison_eq_lt] at hless
      refine ih hupper fun i hi heq => ⟨?_, (hwithin i hi heq).2⟩
      -- the key is not at or below the middle, where items are less than it
      by_contra hle
      rcases Nat.lt_or_eq_of_le (by omega : i ≤ middle) with hbefore | rfl
      · exact absurd (heq ▸ hitems.getElem_lt hi hin hbefore) (not_lt_of_gt hless)
      · exact absurd heq hless.ne
  | case4 lower upper hlt middle item hmiddle hgreater ih =>
      have hin : middle < items.length := by omega
      rw [hread middle hin, Except.ok.injEq] at hmiddle
      subst hmiddle
      rw [horder, comparison_eq_gt] at hgreater
      refine ih (by omega) fun i hi heq => ⟨(hwithin i hi heq).1, ?_⟩
      -- nor at or above it here, where items are greater
      by_contra hle
      rcases Nat.lt_or_eq_of_le (by omega : middle ≤ i) with hafter | rfl
      · exact absurd (heq ▸ hitems.getElem_lt hin hi hafter) (not_lt_of_gt hgreater)
      · exact absurd heq hgreater.ne'
  | case5 lower upper hnot =>
      refine .inr ⟨rfl, fun a ha heq => ?_⟩
      obtain ⟨i, hi, rfl⟩ := List.getElem_of_mem ha
      have := hwithin i hi heq
      omega

/-- **Binary search.** The search over the whole list answers with an item
and its place exactly when the item is there and has the key, and with
nothing exactly when no item has it. -/
theorem search_eq_ok (hitems : Increasing key items)
    (hread : ∀ i (h : i < items.length), read i = .ok items[i])
    (horder : ∀ a, order a = comparison (key a) k) :
    (∀ a i, search read order 0 items.length = .ok (some (a, i)) ↔
      items[i]? = some a ∧ key a = k) ∧
    (search read order 0 items.length = .ok none ↔ ∀ a ∈ items, key a ≠ k) := by
  rcases search_spec hitems hread horder (Nat.le_refl _) (fun i hi _ => ⟨Nat.zero_le i, hi⟩) with
    ⟨i, hi, hsearch, hkey⟩ | ⟨hsearch, hnone⟩
  · rw [hsearch]
    refine ⟨fun a j => ⟨fun h => ?_, fun h => ?_⟩, ⟨fun h => (nomatch h), fun h => ?_⟩⟩
    · cases h
      exact ⟨List.getElem?_eq_getElem hi, hkey⟩
    · obtain ⟨hj, rfl⟩ := List.getElem?_eq_some_iff.mp h.1
      obtain rfl := hitems.getElem_inj hi hj (hkey.trans h.2.symm)
      rfl
    · exact absurd hkey (h _ (List.getElem_mem hi))
  · rw [hsearch]
    refine ⟨fun a j => ⟨fun h => (nomatch h), fun h => ?_⟩, ⟨fun _ => hnone, fun _ => rfl⟩⟩
    exact absurd h.2 (hnone a (List.mem_of_getElem? h.1))

end PocketCoder.Foundation
