import PocketCoder.Foundation.BinarySearch

/-!
Merge sort from the bottom up, which fails on two items with one key. A pass
merges neighbouring runs of `width` items, the last of which may be shorter
or missing, and every pass doubles the width. Runs are strictly increasing,
so two equal keys meet at the latest in the pass that merges their runs.
-/

namespace PocketCoder.Foundation

variable {α κ ε : Type} [LinearOrder κ] (key : α → κ) (duplicate : ε)

/-- Merges two runs. -/
def joinRuns : List α → List α → Except ε (List α)
  | [], ys => .ok ys
  | x :: xs, [] => .ok (x :: xs)
  | x :: xs, y :: ys =>
      match comparison (key x) (key y) with
      | .eq => .error duplicate
      | .lt => (joinRuns xs (y :: ys)).map (x :: ·)
      | .gt => (joinRuns (x :: xs) ys).map (y :: ·)
termination_by xs ys => xs.length + ys.length

/-- One pass over all runs. -/
def mergePass (width : Nat) (items : List α) : Except ε (List α) :=
  if _h : items = [] ∨ width = 0 then .ok items
  else do
    let merged ← joinRuns key duplicate (items.take width) ((items.drop width).take width)
    let rest ← mergePass width (items.drop (width * 2))
    .ok (merged ++ rest)
termination_by items.length
decreasing_by
  have := List.length_pos_iff.mpr (not_or.mp _h).1
  rw [List.length_drop]
  omega

/-- Passes until a run has all `count` items. -/
def mergePasses (count width : Nat) (items : List α) : Except ε (List α) :=
  if width < count ∧ 0 < width then do
    mergePasses count (width * 2) (← mergePass key duplicate width items)
  else .ok items
termination_by count - width

variable {key duplicate}

/-! ### Two runs -/

theorem Increasing.nodup {items : List α} (h : Increasing key items) : (items.map key).Nodup :=
  List.pairwise_map.mpr (h.imp fun hlt => hlt.ne)

/-- What a sort does: it fails on a key that is there twice, or it puts the
items in order. -/
def Sorts (duplicate : ε) (key : α → κ) (items : List α) (result : Except ε (List α)) : Prop :=
  (result = .error duplicate ∧ ¬(items.map key).Nodup) ∨
    ∃ sorted, result = .ok sorted ∧ sorted.Perm items ∧ Increasing key sorted

theorem joinRuns_sorts {xs ys : List α} (hxs : Increasing key xs) (hys : Increasing key ys) :
    Sorts duplicate key (xs ++ ys) (joinRuns key duplicate xs ys) := by
  fun_induction joinRuns key duplicate xs ys with
  | case1 ys => exact .inr ⟨ys, rfl, .refl ys, hys⟩
  | case2 x xs =>
      rw [List.append_nil]
      exact .inr ⟨x :: xs, rfl, .refl _, hxs⟩
  | case3 x xs y ys heq =>
      rw [comparison_eq_eq] at heq
      refine .inl ⟨rfl, fun hnodup => ?_⟩
      rw [List.map_append, List.nodup_append] at hnodup
      exact hnodup.2.2 (key x) (List.mem_map_of_mem List.mem_cons_self) (key y)
        (List.mem_map_of_mem List.mem_cons_self) heq
  | case4 x xs y ys hlt ih =>
      rw [comparison_eq_lt] at hlt
      obtain ⟨hx, hxs⟩ := List.pairwise_cons.mp hxs
      rcases ih hxs hys with ⟨herror, htwice⟩ | ⟨sorted, hok, hperm, hsorted⟩
      · rw [herror]
        refine .inl ⟨rfl, fun hnodup => htwice ?_⟩
        rw [List.cons_append, List.map_cons, List.nodup_cons] at hnodup
        exact hnodup.2
      · rw [hok]
        refine .inr ⟨x :: sorted, rfl, hperm.cons x, List.pairwise_cons.mpr ⟨fun b hb => ?_, hsorted⟩⟩
        rcases List.mem_append.mp (hperm.mem_iff.mp hb) with hleft | hright
        · exact hx b hleft
        · rcases List.mem_cons.mp hright with rfl | hright
          · exact hlt
          · exact hlt.trans ((List.pairwise_cons.mp hys).1 b hright)
  | case5 x xs y ys hgt ih =>
      rw [comparison_eq_gt] at hgt
      obtain ⟨hy, hys⟩ := List.pairwise_cons.mp hys
      -- the head of the second run goes to the front
      have hmoved : ((x :: xs) ++ y :: ys).Perm (y :: ((x :: xs) ++ ys)) := List.perm_middle
      rcases ih hxs hys with ⟨herror, htwice⟩ | ⟨sorted, hok, hperm, hsorted⟩
      · rw [herror]
        refine .inl ⟨rfl, fun hnodup => htwice ?_⟩
        have hnodup := (hmoved.map key).nodup_iff.mp hnodup
        rw [List.map_cons, List.nodup_cons] at hnodup
        exact hnodup.2
      · rw [hok]
        refine .inr ⟨y :: sorted, rfl, (hperm.cons y).trans hmoved.symm,
          List.pairwise_cons.mpr ⟨fun b hb => ?_, hsorted⟩⟩
        rcases List.mem_append.mp (hperm.mem_iff.mp hb) with hleft | hright
        · rcases List.mem_cons.mp hleft with rfl | hleft
          · exact hgt
          · exact hgt.trans ((List.pairwise_cons.mp hxs).1 b hleft)
        · exact hy b hright

/-! ### Passes -/

/-- Every run of `width` items is in order. -/
def RunsIncreasing (key : α → κ) (width : Nat) (items : List α) : Prop :=
  ∀ n, Increasing key ((items.drop (n * width)).take width)

theorem runsIncreasing_one (items : List α) : RunsIncreasing key 1 items := by
  intro n
  rw [Increasing]
  match h : (items.drop (n * 1)).take 1 with
  | [] => exact List.Pairwise.nil
  | [a] => exact List.pairwise_singleton _ a
  | a :: b :: rest =>
      have := congrArg List.length h
      rw [List.length_take, List.length_cons, List.length_cons] at this
      omega

theorem RunsIncreasing.drop {width : Nat} {items : List α} (h : RunsIncreasing key width items)
    (k : Nat) : RunsIncreasing key width (items.drop (k * width)) := by
  intro n
  have hrun := h (k + n)
  rwa [Nat.add_mul, ← List.drop_drop] at hrun

/-- A run before the others, shorter only where it is the last. -/
theorem RunsIncreasing.append {width : Nat} {run rest : List α}
    (hrest : RunsIncreasing key width rest) (hrun : Increasing key run)
    (hfull : run.length = width ∨ (run.length ≤ width ∧ rest = [])) :
    RunsIncreasing key width (run ++ rest) := by
  intro n
  cases n with
  | zero =>
      rw [Nat.zero_mul, List.drop_zero]
      rcases hfull with hfull | ⟨hle, rfl⟩
      · rw [List.take_left' hfull]
        exact hrun
      · rw [List.append_nil, List.take_of_length_le hle]
        exact hrun
  | succ n =>
      rw [Nat.succ_mul, Nat.add_comm, ← List.drop_drop]
      rcases hfull with hfull | ⟨hle, rfl⟩
      · rw [List.drop_left' hfull]
        exact hrest n
      · rw [List.append_nil, List.drop_of_length_le hle, List.drop_nil, List.take_nil]
        exact List.Pairwise.nil

/-- A pass doubles the width of the runs. -/
theorem mergePass_spec {width : Nat} (hwidth : 0 < width) {items : List α}
    (hruns : RunsIncreasing key width items) (duplicate : ε) :
    (mergePass key duplicate width items = .error duplicate ∧ ¬(items.map key).Nodup) ∨
    ∃ merged, mergePass key duplicate width items = .ok merged ∧ merged.Perm items ∧
      RunsIncreasing key (width * 2) merged := by
  fun_induction mergePass key duplicate width items with
  | case1 items hempty =>
      have hnil : items = [] := hempty.resolve_right (by omega)
      rw [hnil]
      refine .inr ⟨[], rfl, .refl _, fun n => ?_⟩
      rw [List.drop_nil, List.take_nil]
      exact List.Pairwise.nil
  | case2 items hitems ih =>
      have hsplit : items = (items.take width ++ (items.drop width).take width) ++
          items.drop (width * 2) := by
        rw [List.append_assoc, Nat.mul_two, ← List.drop_drop, List.take_append_drop,
          List.take_append_drop]
      have hfirst : Increasing key (items.take width) := by
        have := hruns 0
        rwa [Nat.zero_mul, List.drop_zero] at this
      have hsecond : Increasing key ((items.drop width).take width) := by
        have := hruns 1
        rwa [Nat.one_mul] at this
      have hrest : RunsIncreasing key width (items.drop (width * 2)) := by
        rw [Nat.mul_comm]
        exact hruns.drop 2
      have hnodup : (items.map key).Nodup →
          ((items.take width ++ (items.drop width).take width).map key).Nodup ∧
            ((items.drop (width * 2)).map key).Nodup := by
        intro h
        rw [hsplit, List.map_append, List.nodup_append] at h
        exact ⟨h.1, h.2.1⟩
      -- the first two runs become one, and the pass goes on behind them
      have hjoin : Sorts duplicate key _ _ := joinRuns_sorts hfirst hsecond
      rcases hjoin with ⟨herror, htwice⟩ | ⟨merged, hmerged, hperm, hsorted⟩
      · rw [herror]
        exact .inl ⟨rfl, fun h => htwice (hnodup h).1⟩
      · rw [hmerged]
        rcases ih hrest with ⟨herror, htwice⟩ | ⟨rest, hok, hperm', hruns'⟩
        · refine .inl ⟨?_, fun h => htwice (hnodup h).2⟩
          dsimp only [bind, Except.bind]
          rw [herror]
        · refine .inr ⟨merged ++ rest, ?_, ?_, ?_⟩
          · dsimp only [bind, Except.bind]
            rw [hok]
          · have hboth := hperm.append hperm'
            rwa [← hsplit] at hboth
          · refine hruns'.append hsorted ?_
            have hlength := hperm.length_eq
            have hlength' := hperm'.length_eq
            simp only [List.length_append, List.length_take, List.length_drop] at hlength hlength'
            -- a run that is not full is the last one
            by_cases hfull : width * 2 ≤ items.length
            · exact .inl (by omega)
            · exact .inr ⟨by omega, List.eq_nil_of_length_eq_zero (by omega)⟩

/-- **Merge sort.** From runs that are in order the passes put the whole list
in order, or fail on a key that is there twice. -/
theorem mergePasses_sorts {width : Nat} (hwidth : 0 < width) {items : List α}
    (hruns : RunsIncreasing key width items) :
    Sorts duplicate key items (mergePasses key duplicate items.length width items) := by
  generalize hcount : items.length = count
  fun_induction mergePasses key duplicate count width items with
  | case1 width items hlt ih =>
      have hpass := mergePass_spec hwidth hruns duplicate
      rcases hpass with ⟨herror, htwice⟩ | ⟨merged, hmerged, hperm, hruns'⟩
      · rw [herror]
        exact .inl ⟨rfl, htwice⟩
      · rw [hmerged]
        rcases ih merged (by omega) hruns' (hperm.length_eq.trans hcount) with
          ⟨herror, htwice⟩ | ⟨sorted, hok, hperm', hsorted⟩
        · exact .inl ⟨herror, fun hnodup => htwice ((hperm.map key).nodup_iff.mpr hnodup)⟩
        · exact .inr ⟨sorted, hok, hperm'.trans hperm, hsorted⟩
  | case2 width items hdone =>
      refine .inr ⟨items, rfl, .refl _, ?_⟩
      have hrun := hruns 0
      rwa [Nat.zero_mul, List.drop_zero, List.take_of_length_le (by omega)] at hrun

theorem mergeSort_sorts (duplicate : ε) (key : α → κ) (items : List α) :
    Sorts duplicate key items (mergePasses key duplicate items.length 1 items) :=
  mergePasses_sorts Nat.one_pos (runsIncreasing_one items)

/-- A sort succeeds exactly when the keys are distinct. -/
theorem Sorts.ok_iff {items : List α} {result : Except ε (List α)}
    (h : Sorts duplicate key items result) :
    (∃ sorted, result = .ok sorted) ↔ (items.map key).Nodup := by
  rcases h with ⟨herror, htwice⟩ | ⟨sorted, hok, hperm, hsorted⟩
  · rw [herror]
    exact ⟨fun ⟨_, hok⟩ => (nomatch hok), fun hnodup => absurd hnodup htwice⟩
  · exact ⟨fun _ => (hperm.map key).nodup_iff.mp hsorted.nodup, fun _ => ⟨sorted, hok⟩⟩

end PocketCoder.Foundation
