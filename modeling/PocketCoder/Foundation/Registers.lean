import Mathlib.Data.List.Induction

/-!
Registers that a log of events rebuilds: an event may set the value of a
key, and the last event that does wins.

A register comes with a preorder on its values, so that one may ask whether
a rebuilt value is below the value that was lost.
-/

namespace PocketCoder.Foundation

structure Register (ε κ V : Type) where
  /-- The value that an event sets for a key, when it sets one. -/
  sets : ε → κ → Option V
  le : V → V → Prop
  refl : ∀ v, le v v
  trans : ∀ {v v' v''}, le v v' → le v' v'' → le v v''

namespace Register

variable {ε κ V : Type} (R : Register ε κ V)

/-- The value that a log rebuilds for a key, when it sets one. -/
def last (log : List ε) (k : κ) : Option V :=
  log.foldl (fun value event => (R.sets event k).or value) none

variable {log log' : List ε} {event : ε} {k : κ}

@[simp] theorem last_nil (k : κ) : R.last [] k = none := rfl

theorem last_concat (log : List ε) (event : ε) (k : κ) :
    R.last (log ++ [event]) k = (R.sets event k).or (R.last log k) := by
  rw [last, List.foldl_append]
  rfl

/-- An event that sets nothing for the key changes nothing. -/
theorem last_concat_of_none (h : R.sets event k = none) :
    R.last (log ++ [event]) k = R.last log k := by
  rw [last_concat, h, Option.none_or]

theorem last_concat_of_some {v : V} (h : R.sets event k = some v) :
    R.last (log ++ [event]) k = some v := by
  rw [last_concat, h, Option.some_or]

/-- A key that was set stays set. -/
theorem last_isSome_append (h : (R.last log k).isSome = true) (log' : List ε) :
    (R.last (log ++ log') k).isSome = true := by
  induction log' using List.reverseRecOn with
  | nil => rwa [List.append_nil]
  | append_singleton log' event ih =>
      rw [← List.append_assoc, last_concat]
      cases hsets : R.sets event k with
      | none => rwa [Option.none_or]
      | some v => rfl

/-- Rebuilding a state by a log, when each event sets the register and
nothing else of it. -/
theorem foldl_replay {σ : Type} {replay : σ → ε → σ} (value : σ → Option V)
    (hreplay : ∀ s event, value (replay s event) =
      (value s).map fun v => (R.sets event k).getD v) (log : List ε) (s : σ) :
    value (log.foldl replay s) = (value s).map fun v => (R.last log k).getD v := by
  induction log using List.reverseRecOn with
  | nil => simp
  | append_singleton log event ih =>
      rw [List.foldl_append, List.foldl_cons, List.foldl_nil, hreplay, ih, Option.map_map]
      congr 1
      funext v
      rw [last_concat]
      cases R.sets event k <;> rfl

end Register

end PocketCoder.Foundation
