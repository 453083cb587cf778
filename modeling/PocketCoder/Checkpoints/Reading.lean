import PocketCoder.Foundation.Generator
import PocketCoder.Checkpoints.Input

/-!
Programs that read a checkpoint input.

`InputM ε α` reads bytes, yields pieces of type `ε` and may fail. Its meaning
is a grammar: `Reads p L` says that a completed run of `p` consumes a byte
string `bytes` and yields `out` with value `a` exactly when `L out a bytes`,
whatever the chunks are and whatever follows. Both halves compose, so each
loop of writer and reader gets one grammar, proved by one induction.
-/

namespace PocketCoder.Checkpoints

open PocketCoder.Foundation Generator CheckpointInput

abbrev InputM (ε α : Type) := StateT CheckpointInput (Generator ε) α

namespace InputM

variable {ε α β : Type}

/-- `input.read(size)`; the buffer it returns was allocated with that size. -/
def read (size : Nat) : InputM ε { bytes : Bytes // bytes.length = size } := fun input =>
  match h : input.read size with
  | .ok (bytes, input') => pure (⟨bytes, (read_eq_ok h).2.1⟩, input')
  | .error e => Generator.lift (.error e)

def emit (piece : ε) : InputM ε Unit := fun input => do
  Generator.emit piece
  pure ((), input)

def lift (r : Except String α) : InputM ε α := fun input => do
  pure (← Generator.lift r, input)

end InputM

/-- A grammar: what is yielded, the value, and the bytes consumed. -/
abbrev Grammar (ε α : Type) := List ε → α → Bytes → Prop

variable {ε α β : Type}

/-- The completed runs of `p` are the derivations of `L`. -/
structure Reads (p : InputM ε α) (L : Grammar ε α) : Prop where
  sound : ∀ {input input' out a}, Emits (p input) out (a, input') →
    ∃ bytes, L out a bytes ∧ Consumes input input' bytes ∧
      (input.bytes ≤ input.maxBytes → input'.bytes ≤ input'.maxBytes)
  complete : ∀ {input rest bytes out a}, L out a bytes → input.remaining = bytes ++ rest →
    input.bytes + bytes.length ≤ input.maxBytes →
      ∃ input', Emits (p input) out (a, input') ∧ Consumes input input' bytes

namespace Reads

theorem congr {p : InputM ε α} {L L' : Grammar ε α} (h : Reads p L)
    (hL : ∀ out a bytes, L out a bytes ↔ L' out a bytes) : Reads p L' := by
  have heq : L = L' := by
    funext out a bytes
    exact propext (hL out a bytes)
  exact heq ▸ h

theorem pure (a : α) :
    Reads (Pure.pure a : InputM ε α) fun out a' bytes => out = [] ∧ a' = a ∧ bytes = [] where
  sound := by
    intro input input' out a' h
    obtain ⟨hpair, rfl⟩ := emits_pure.mp h
    obtain ⟨rfl, rfl⟩ := Prod.mk.inj hpair
    exact ⟨[], ⟨rfl, rfl, rfl⟩, .refl input, id⟩
  complete := by
    rintro input rest bytes out a' ⟨rfl, rfl, rfl⟩ - -
    exact ⟨input, emits_pure.mpr ⟨rfl, rfl⟩, .refl input⟩

theorem lift (r : Except String α) :
    Reads (InputM.lift r : InputM ε α) fun out a bytes => r = .ok a ∧ out = [] ∧ bytes = [] where
  sound := by
    intro input input' out a h
    obtain ⟨a', out₁, out₂, h₁, h₂, rfl⟩ := emits_bind.mp h
    obtain ⟨hr, rfl⟩ := emits_lift.mp h₁
    obtain ⟨hpair, rfl⟩ := emits_pure.mp h₂
    obtain ⟨rfl, rfl⟩ := Prod.mk.inj hpair
    exact ⟨[], ⟨hr, rfl, rfl⟩, .refl input, id⟩
  complete := by
    rintro input rest bytes out a ⟨hr, rfl, rfl⟩ - -
    exact ⟨input, emits_bind.mpr ⟨a, [], [], emits_lift.mpr ⟨hr, rfl⟩,
      emits_pure.mpr ⟨rfl, rfl⟩, rfl⟩, .refl input⟩

theorem emit (piece : ε) :
    Reads (InputM.emit piece) fun out _ bytes => out = [piece] ∧ bytes = [] where
  sound := by
    intro input input' out a h
    obtain ⟨a', out₁, out₂, h₁, h₂, rfl⟩ := emits_bind.mp h
    obtain rfl := emits_emit.mp h₁
    obtain ⟨hpair, rfl⟩ := emits_pure.mp h₂
    obtain ⟨rfl, rfl⟩ := Prod.mk.inj hpair
    exact ⟨[], ⟨by simp, rfl⟩, .refl input, id⟩
  complete := by
    rintro input rest bytes out a ⟨rfl, rfl⟩ - -
    exact ⟨input, emits_bind.mpr ⟨(), [piece], [], emits_emit.mpr rfl,
      emits_pure.mpr ⟨rfl, rfl⟩, rfl⟩, .refl input⟩

/-- A read within the size of one transfer. -/
theorem read {size : Nat} (hsize : size ≤ CHECKPOINT_IO_BYTES) :
    Reads (InputM.read size : InputM ε _) fun out a bytes => out = [] ∧ bytes = a.1 where
  sound := by
    intro input input' out a h
    unfold InputM.read at h
    split at h
    · rename_i bytes input₁ hread
      obtain ⟨hpair, rfl⟩ := emits_pure.mp h
      obtain ⟨rfl, rfl⟩ := Prod.mk.inj hpair
      obtain ⟨hconsumes, -, -, hmax⟩ := read_eq_ok hread
      exact ⟨bytes, ⟨rfl, rfl⟩, hconsumes, fun _ => hmax⟩
    · exact absurd (emits_lift.mp h).1 (by simp)
  complete := by
    rintro input rest bytes out ⟨a, rfl⟩ ⟨rfl, rfl⟩ hremaining hmax
    obtain ⟨input', hread, hconsumes, -⟩ := read_ok hremaining hsize hmax
    refine ⟨input', ?_, hconsumes⟩
    unfold InputM.read
    split
    · rename_i bytes input₁ hread'
      rw [hread, Except.ok.injEq, Prod.mk.injEq] at hread'
      obtain ⟨rfl, rfl⟩ := hread'
      exact emits_pure.mpr ⟨rfl, rfl⟩
    · rename_i hread'
      rw [hread] at hread'
      contradiction

theorem bind {p : InputM ε α} {q : α → InputM ε β} {L : Grammar ε α} {M : α → Grammar ε β}
    (hp : Reads p L) (hq : ∀ {out a bytes}, L out a bytes → Reads (q a) (M a)) :
    Reads (p >>= q) fun out b bytes => ∃ a out₁ out₂ bytes₁ bytes₂,
      L out₁ a bytes₁ ∧ M a out₂ b bytes₂ ∧ out = out₁ ++ out₂ ∧ bytes = bytes₁ ++ bytes₂ where
  sound := by
    intro input input' out b h
    obtain ⟨⟨a, input₁⟩, out₁, out₂, h₁, h₂, rfl⟩ := emits_bind.mp h
    obtain ⟨bytes₁, hL, hc₁, hmax₁⟩ := hp.sound h₁
    obtain ⟨bytes₂, hM, hc₂, hmax₂⟩ := (hq hL).sound h₂
    exact ⟨bytes₁ ++ bytes₂, ⟨a, out₁, out₂, bytes₁, bytes₂, hL, hM, rfl, rfl⟩, hc₁.trans hc₂,
      hmax₂ ∘ hmax₁⟩
  complete := by
    rintro input rest bytes out b ⟨a, out₁, out₂, bytes₁, bytes₂, hL, hM, rfl, rfl⟩ hremaining hmax
    rw [List.length_append] at hmax
    rw [List.append_assoc] at hremaining
    obtain ⟨input₁, h₁, hc₁⟩ := hp.complete hL hremaining (by omega)
    have hremaining₁ : input₁.remaining = bytes₂ ++ rest :=
      List.append_cancel_left (hc₁.remaining.symm.trans hremaining)
    obtain ⟨input₂, h₂, hc₂⟩ := (hq hL).complete hM hremaining₁ (by
      rw [hc₁.bytes, hc₁.maxBytes]
      omega)
    exact ⟨input₂, emits_bind.mpr ⟨(a, input₁), out₁, out₂, h₁, h₂, rfl⟩, hc₁.trans hc₂⟩

/-! Steps in front of a program. -/

theorem ok_bind {r : Except String α} {q : α → InputM ε β} {a : α} {M : Grammar ε β}
    (hr : r = .ok a) (hq : Reads (q a) M) : Reads (InputM.lift r >>= q) M := by
  refine ((lift r).bind (M := fun _ => M) fun {_ a' _} h => ?_).congr fun out b bytes => ?_
  · rw [hr, Except.ok.injEq] at h
    exact h.1 ▸ hq
  constructor
  · rintro ⟨a', _, _, _, _, ⟨-, rfl, rfl⟩, hM, rfl, rfl⟩
    exact hM
  · intro hM
    exact ⟨a, [], out, [], bytes, ⟨hr, rfl, rfl⟩, hM, rfl, rfl⟩

theorem lift_bind {r : Except String α} {q : α → InputM ε β} {M : α → Grammar ε β}
    (hq : ∀ a, r = .ok a → Reads (q a) (M a)) :
    Reads (InputM.lift r >>= q) fun out b bytes => ∃ a, r = .ok a ∧ M a out b bytes := by
  cases r with
  | error e =>
      refine ((lift (.error e)).bind (M := fun _ _ _ _ => False) fun h => ?_).congr ?_
      · exact absurd h.1 (by simp)
      · simp
  | ok a =>
      refine (ok_bind rfl (hq a rfl)).congr fun out b bytes => ?_
      simp only [Except.ok.injEq, exists_eq_left']

theorem emit_bind (piece : ε) {q : InputM ε β} {M : Grammar ε β} (hq : Reads q M) :
    Reads (InputM.emit piece >>= fun _ => q) fun out b bytes =>
      ∃ rest, out = piece :: rest ∧ M rest b bytes := by
  refine ((emit piece).bind fun _ => hq).congr fun out b bytes => ?_
  constructor
  · rintro ⟨_, _, rest, _, _, ⟨rfl, rfl⟩, hM, rfl, rfl⟩
    exact ⟨rest, rfl, hM⟩
  · rintro ⟨rest, rfl, hM⟩
    exact ⟨(), [piece], rest, [], bytes, ⟨rfl, rfl⟩, hM, rfl, rfl⟩

theorem read_bind {size : Nat} {q : { bytes : Bytes // bytes.length = size } → InputM ε β}
    {M : { bytes : Bytes // bytes.length = size } → Grammar ε β}
    (hsize : size ≤ CHECKPOINT_IO_BYTES) (hq : ∀ a, Reads (q a) (M a)) :
    Reads (InputM.read size >>= q) fun out b bytes =>
      ∃ first rest, bytes = first.1 ++ rest ∧ M first out b rest := by
  refine ((read hsize).bind fun {_ a _} _ => hq a).congr fun out b bytes => ?_
  constructor
  · rintro ⟨first, _, _, _, rest, ⟨rfl, rfl⟩, hM, rfl, rfl⟩
    exact ⟨first, rest, rfl, hM⟩
  · rintro ⟨first, rest, rfl, hM⟩
    exact ⟨first, [], out, first.1, rest, ⟨rfl, rfl⟩, hM, rfl, rfl⟩

/-- A check that throws. -/
theorem guard {c : Prop} [Decidable c] {e : String} {q : InputM ε α} {M : Grammar ε α}
    (hq : ¬c → Reads q M) :
    Reads (if c then InputM.lift (.error e) else q) fun out a bytes => ¬c ∧ M out a bytes := by
  by_cases h : c
  · rw [if_pos h]
    exact (lift _).congr fun out a bytes => by simp [h]
  · rw [if_neg h]
    exact (hq h).congr fun out a bytes => by simp [h]

/-- A branch on what has been read. -/
theorem ite {c : Prop} [Decidable c] {p q : InputM ε α} {L M : Grammar ε α} (hp : c → Reads p L)
    (hq : ¬c → Reads q M) :
    Reads (if c then p else q) fun out a bytes => if c then L out a bytes else M out a bytes := by
  by_cases h : c
  · simpa only [if_pos h] using hp h
  · simpa only [if_neg h] using hq h

end Reads

end PocketCoder.Checkpoints
