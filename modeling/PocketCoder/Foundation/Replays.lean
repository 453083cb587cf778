import Mathlib.Data.List.Induction

/-!
Replays of a log that may be interrupted and started again.

A replay of a prefix followed by a replay of the whole log gives the same
state as the replay of the log alone, provided that a second replay of a log
changes nothing.
-/

namespace PocketCoder.Foundation

variable {σ ε : Type} {act : σ → ε → σ}

/-- A second replay of a log changes nothing. -/
def ReplaysOnce (act : σ → ε → σ) : Prop :=
  ∀ (log : List ε) (s : σ), log.foldl act (log.foldl act s) = log.foldl act s

/-- A replay may be interrupted and started again. -/
theorem ReplaysOnce.restart (h : ReplaysOnce act) {done log : List ε} (hdone : done <+: log)
    (s : σ) : log.foldl act (done.foldl act s) = log.foldl act s := by
  obtain ⟨rest, rfl⟩ := hdone
  rw [List.foldl_append, h, List.foldl_append]

/-- Events that have nothing left to do once they were applied. -/
theorem replaysOnce_of_settled (settled : ε → σ → Prop)
    (hact : ∀ event s, settled event (act s event))
    (hkeep : ∀ event other s, settled event s → settled event (act s other))
    (hfix : ∀ event s, settled event s → act s event = s) : ReplaysOnce act := by
  have hsettled : ∀ (log : List ε) (s : σ), ∀ event ∈ log, settled event (log.foldl act s) := by
    intro log
    induction log using List.reverseRecOn with
    | nil => exact fun _ _ h => absurd h List.not_mem_nil
    | append_singleton log event ih =>
        intro s other hother
        rw [List.foldl_append, List.foldl_cons, List.foldl_nil]
        rcases List.mem_append.mp hother with hmem | hmem
        · exact hkeep _ _ _ (ih s other hmem)
        · rw [List.mem_singleton.mp hmem]
          exact hact _ _
  have hfixed : ∀ (log : List ε) (s : σ), (∀ event ∈ log, settled event s) →
      log.foldl act s = s := by
    intro log s h
    induction log with
    | nil => rfl
    | cons event log ih =>
        rw [List.foldl_cons, hfix _ _ (h event List.mem_cons_self)]
        exact ih fun other hother => h other (List.mem_cons_of_mem _ hother)
  exact fun log s => hfixed log _ (hsettled log s)

/-- A replay that acts on each row of a list by itself. -/
theorem foldl_rows {τ ρ : Type} {step : τ → ε → τ} {act : ρ → ε → ρ} (rows : τ → List ρ)
    (h : ∀ t event, rows (step t event) = (rows t).map fun row => act row event) (log : List ε)
    (t : τ) : rows (log.foldl step t) = (rows t).map fun row => log.foldl act row := by
  induction log generalizing t with
  | nil => exact (List.map_id' _).symm
  | cons event log ih =>
      rw [List.foldl_cons, ih, h, List.map_map]
      rfl

/-- A state whose rows are replayed by themselves. -/
theorem ReplaysOnce.rows_restart {τ ρ : Type} {step : τ → ε → τ} {act : ρ → ε → ρ}
    (honce : ReplaysOnce act) (rows : τ → List ρ)
    (h : ∀ t event, rows (step t event) = (rows t).map fun row => act row event)
    {done log : List ε} (hdone : done <+: log) (t : τ) :
    rows (log.foldl step (done.foldl step t)) = rows (log.foldl step t) := by
  rw [foldl_rows rows h, foldl_rows rows h, foldl_rows rows h, List.map_map]
  exact List.map_congr_left fun row _ => honce.restart hdone row

end PocketCoder.Foundation
