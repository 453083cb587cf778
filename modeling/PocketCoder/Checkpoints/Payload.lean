import PocketCoder.Checkpoints.Archive
import PocketCoder.Checkpoints.Reading

/-!
The inner loop of a file's content, which writer and reader run alike: read
at most 64 KiB, update both hashes, pass the piece on.
-/

namespace PocketCoder.Checkpoints

open PocketCoder.Foundation

variable {ε : Type}

/-- `while (body) { ... }`: `event` is what becomes of a piece, a yield in the
writer and a callback in the reader. Returns the archive state and the bytes
the file's own hash has been updated with. -/
def payloadBody (event : Bytes → ε) (state : ArchiveState) (hash : Bytes) (body : Nat) :
    InputM ε (ArchiveState × Bytes) :=
  if body = 0 then pure (state, hash)
  else do
    let bytes ← InputM.read (min body CHECKPOINT_IO_BYTES)
    InputM.emit (event bytes.1)
    payloadBody event (state.payload bytes.1) (hash ++ bytes.1) (body - bytes.1.length)
termination_by body
decreasing_by
  have hio : 0 < CHECKPOINT_IO_BYTES := by decide
  rw [bytes.2]
  omega

/-- The loop passes on the next `body` bytes of the input, in pieces of 64 KiB. -/
theorem payloadBody_reads (event : Bytes → ε) (state : ArchiveState) (hash : Bytes) (body : Nat) :
    Reads (payloadBody event state hash body) fun out a bytes =>
      (bytes.length = body ∧ out = (chunksOf CHECKPOINT_IO_BYTES bytes).map event) ∧
        a = (state.payload bytes, hash ++ bytes) := by
  have hio : 0 < CHECKPOINT_IO_BYTES := by decide
  induction body using Nat.strong_induction_on generalizing state hash with
  | _ body ih =>
      unfold payloadBody
      by_cases hbody : body = 0
      · rw [if_pos hbody]
        refine (Reads.pure _).congr fun out a bytes => ?_
        constructor
        · rintro ⟨rfl, rfl, rfl⟩
          simp [hbody, ArchiveState.payload_nil]
        · rintro ⟨⟨hlen, rfl⟩, rfl⟩
          obtain rfl := List.eq_nil_of_length_eq_zero (hlen.trans hbody)
          simp [ArchiveState.payload_nil]
      · rw [if_neg hbody]
        have hrest (bytes : { b : Bytes // b.length = min body CHECKPOINT_IO_BYTES }) :=
          ih (body - bytes.1.length) (by rw [bytes.2]; omega) (state.payload bytes.1)
            (hash ++ bytes.1)
        refine (Reads.read_bind (min_le_right _ _) fun bytes =>
          Reads.emit_bind _ (hrest bytes)).congr fun out a bytes => ?_
        constructor
        · rintro ⟨⟨first, hfirst⟩, rest, rfl, _, rfl, ⟨hlen, rfl⟩, rfl⟩
          dsimp only at hlen ⊢
          have hcut := chunksOf_append _ hio (by omega) hfirst hlen
          refine ⟨⟨by rw [List.length_append]; omega, ?_⟩, ?_⟩
          · rw [hcut, List.map_cons]
          · rw [ArchiveState.payload_payload, List.append_assoc]
        · rintro ⟨⟨hlen, rfl⟩, rfl⟩
          have hne : bytes ≠ [] := by
            intro hnil
            rw [hnil, List.length_nil] at hlen
            omega
          have htake : (bytes.take CHECKPOINT_IO_BYTES).length = min body CHECKPOINT_IO_BYTES := by
            rw [List.length_take, hlen, min_comm]
          refine ⟨⟨bytes.take CHECKPOINT_IO_BYTES, htake⟩, bytes.drop CHECKPOINT_IO_BYTES,
            (List.take_append_drop _ _).symm, _, ?_, ⟨?_, rfl⟩, ?_⟩
          · rw [chunksOf_of_ne_nil hio hne, List.map_cons]
          · simp only [List.length_drop, htake]
            omega
          · rw [ArchiveState.payload_payload, List.append_assoc, List.take_append_drop]

end PocketCoder.Checkpoints
