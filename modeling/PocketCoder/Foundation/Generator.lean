import Mathlib.Data.List.Basic

/-!
Generators: a computation that yields pieces and then returns a value or
fails, as a JavaScript `function*` does. Callbacks are pieces too: what the
program has told its caller when it stops.

The judgment is `Emits g out a`: the generator runs to its end, returns `a`,
and has yielded `out`. Every construct has an equivalence, so a generator
program can be unfolded in both directions: from a completed run to its parts
and from the parts to the run.
-/

namespace PocketCoder.Foundation

/-- A chain of fallible steps succeeds when each one does. -/
theorem Except.bind_eq_ok {ε α β : Type} {x : Except ε α} {f : α → Except ε β} {b : β} :
    (x >>= f) = .ok b ↔ ∃ a, x = .ok a ∧ f a = .ok b := by
  cases x with
  | error e => exact ⟨fun h => (nomatch h), fun ⟨_, h, _⟩ => (nomatch h)⟩
  | ok a => exact ⟨fun h => ⟨a, rfl, h⟩, fun ⟨_, h, hf⟩ => Except.ok.inj h ▸ hf⟩

/-- The pieces a generator yields, and how it ends. -/
structure Generator (ε α : Type) where
  pieces : List ε
  result : Except String α

namespace Generator

variable {ε α β : Type}

instance : Monad (Generator ε) where
  pure a := ⟨[], .ok a⟩
  bind g f :=
    match g.result with
    | .ok a => ⟨g.pieces ++ (f a).pieces, (f a).result⟩
    | .error e => ⟨g.pieces, .error e⟩

/-- `yield piece`. -/
def emit (piece : ε) : Generator ε Unit := ⟨[piece], .ok ()⟩

/-- A step that may throw and yields nothing. -/
def lift (r : Except String α) : Generator ε α := ⟨[], r⟩

/-- The generator returns `a` after yielding `out`. -/
def Emits (g : Generator ε α) (out : List ε) (a : α) : Prop :=
  g.result = .ok a ∧ g.pieces = out

theorem emits_pure {a b : α} {out : List ε} :
    Emits (pure a : Generator ε α) out b ↔ a = b ∧ out = [] := by
  change Except.ok a = .ok b ∧ [] = out ↔ _
  rw [Except.ok.injEq, eq_comm (a := [])]

theorem emits_lift {r : Except String α} {a : α} {out : List ε} :
    Emits (lift r) out a ↔ r = .ok a ∧ out = [] := by
  change r = .ok a ∧ [] = out ↔ _
  rw [eq_comm (a := [])]

theorem emits_emit {piece : ε} {out : List ε} : Emits (emit piece) out () ↔ out = [piece] := by
  change Except.ok () = .ok () ∧ [piece] = out ↔ _
  simp [eq_comm]

theorem emits_bind {g : Generator ε α} {f : α → Generator ε β} {out : List ε} {b : β} :
    Emits (g >>= f) out b ↔
      ∃ a out₁ out₂, Emits g out₁ a ∧ Emits (f a) out₂ b ∧ out = out₁ ++ out₂ := by
  cases hg : g.result with
  | error e =>
      have hbind : (g >>= f).result = .error e := by
        change (match g.result with
          | .ok a => (⟨g.pieces ++ (f a).pieces, (f a).result⟩ : Generator ε β)
          | .error e => ⟨g.pieces, .error e⟩).result = _
        rw [hg]
      constructor
      · rintro ⟨h, -⟩
        rw [hbind] at h
        contradiction
      · rintro ⟨a, out₁, out₂, ⟨h, -⟩, -⟩
        rw [hg] at h
        contradiction
  | ok a =>
      have hbind : g >>= f = ⟨g.pieces ++ (f a).pieces, (f a).result⟩ := by
        change (match g.result with
          | .ok a => (⟨g.pieces ++ (f a).pieces, (f a).result⟩ : Generator ε β)
          | .error e => ⟨g.pieces, .error e⟩) = _
        rw [hg]
      constructor
      · rintro ⟨h, rfl⟩
        rw [hbind] at h ⊢
        exact ⟨a, _, _, ⟨hg, rfl⟩, ⟨h, rfl⟩, rfl⟩
      · rintro ⟨a', out₁, out₂, ⟨ha', rfl⟩, ⟨h, rfl⟩, rfl⟩
        rw [hg, Except.ok.injEq] at ha'
        subst ha'
        rw [hbind]
        exact ⟨h, rfl⟩

/-! ### Pieces that join -/

variable {γ : Type}

/-- The generator returns `a`, and its pieces join to `out` however they are cut. -/
def Writes (g : Generator (List γ) α) (out : List γ) (a : α) : Prop :=
  ∃ pieces, Emits g pieces a ∧ pieces.flatten = out

theorem writes_pure {a b : α} {out : List γ} :
    Writes (pure a : Generator (List γ) α) out b ↔ a = b ∧ out = [] := by
  constructor
  · rintro ⟨pieces, h, rfl⟩
    obtain ⟨rfl, rfl⟩ := emits_pure.mp h
    exact ⟨rfl, rfl⟩
  · rintro ⟨rfl, rfl⟩
    exact ⟨[], emits_pure.mpr ⟨rfl, rfl⟩, rfl⟩

theorem writes_lift {r : Except String α} {a : α} {out : List γ} :
    Writes (lift r) out a ↔ r = .ok a ∧ out = [] := by
  constructor
  · rintro ⟨pieces, h, rfl⟩
    obtain ⟨hr, rfl⟩ := emits_lift.mp h
    exact ⟨hr, rfl⟩
  · rintro ⟨hr, rfl⟩
    exact ⟨[], emits_lift.mpr ⟨hr, rfl⟩, rfl⟩

theorem writes_bind {g : Generator (List γ) α} {f : α → Generator (List γ) β} {out : List γ}
    {b : β} :
    Writes (g >>= f) out b ↔
      ∃ a out₁ out₂, Writes g out₁ a ∧ Writes (f a) out₂ b ∧ out = out₁ ++ out₂ := by
  constructor
  · rintro ⟨pieces, h, rfl⟩
    obtain ⟨a, pieces₁, pieces₂, h₁, h₂, rfl⟩ := emits_bind.mp h
    exact ⟨a, _, _, ⟨pieces₁, h₁, rfl⟩, ⟨pieces₂, h₂, rfl⟩, List.flatten_append⟩
  · rintro ⟨a, _, _, ⟨pieces₁, h₁, rfl⟩, ⟨pieces₂, h₂, rfl⟩, rfl⟩
    exact ⟨pieces₁ ++ pieces₂, emits_bind.mpr ⟨a, pieces₁, pieces₂, h₁, h₂, rfl⟩,
      List.flatten_append⟩

theorem writes_lift_bind {r : Except String α} {f : α → Generator (List γ) β} {out : List γ}
    {b : β} : Writes (lift r >>= f) out b ↔ ∃ a, r = .ok a ∧ Writes (f a) out b := by
  rw [writes_bind]
  constructor
  · rintro ⟨a, _, out₂, h, hf, rfl⟩
    obtain ⟨hr, rfl⟩ := writes_lift.mp h
    exact ⟨a, hr, hf⟩
  · rintro ⟨a, hr, hf⟩
    exact ⟨a, [], out, writes_lift.mpr ⟨hr, rfl⟩, hf, rfl⟩

theorem writes_emit {piece out : List γ} {a : Unit} : Writes (emit piece) out a ↔ out = piece := by
  constructor
  · rintro ⟨pieces, h, rfl⟩
    rw [emits_emit.mp h, List.flatten_singleton]
  · rintro rfl
    exact ⟨[out], emits_emit.mpr rfl, List.flatten_singleton⟩

theorem writes_emit_bind {piece out : List γ} {f : Unit → Generator (List γ) β} {b : β} :
    Writes (emit piece >>= f) out b ↔ ∃ rest, Writes (f ()) rest b ∧ out = piece ++ rest := by
  rw [writes_bind]
  constructor
  · rintro ⟨_, _, rest, h, hf, rfl⟩
    exact ⟨rest, hf, by rw [writes_emit.mp h]⟩
  · rintro ⟨rest, hf, rfl⟩
    exact ⟨(), piece, rest, writes_emit.mpr rfl, hf, rfl⟩

end Generator

end PocketCoder.Foundation
