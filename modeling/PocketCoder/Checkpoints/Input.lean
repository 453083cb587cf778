import PocketCoder.Checkpoints.Format

/-!
The chunked byte source of the archive codec
(`contracts/src/checkpoints/archive-input.ts`), without an abort signal.

A stream delivers its bytes in chunks of any size, empty ones included.
`CheckpointInput` keeps the chunk being read and the chunks still to come;
what matters of it is `remaining`, the bytes not read yet. `Consumes` relates
two inputs by the bytes read between them, and `read_eq_ok` and `read_ok`
say that `read` is exactly the step of that relation within the reservation.
-/

namespace PocketCoder.Checkpoints

open PocketCoder.Foundation

/-- A byte source with a reservation. -/
structure CheckpointInput where
  /-- The chunks the stream has not delivered yet. -/
  source : List Bytes
  chunk : Bytes
  used : Nat
  bytes : Nat
  /-- What the running hash has been updated with. -/
  hash : Bytes
  maxBytes : Nat
  used_le : used ≤ chunk.length
  maxBytes_safe : maxBytes ≤ MAX_SAFE_INTEGER

namespace CheckpointInput

/-- The bytes not read yet. -/
def remaining (input : CheckpointInput) : Bytes :=
  input.chunk.drop input.used ++ input.source.flatten

/-- Takes chunks from the stream until one has an unread byte; `false` at the
end of the stream. -/
def nextChunk (input : CheckpointInput) : Bool × CheckpointInput :=
  if input.used = input.chunk.length then
    match _h : input.source with
    | [] => (false, input)
    | next :: rest =>
        nextChunk { input with source := rest, chunk := next, used := 0, used_le := Nat.zero_le _ }
  else (true, input)
termination_by input.source.length
decreasing_by simp [_h]

/-- The bytes read between two inputs. -/
structure Consumes (input input' : CheckpointInput) (out : Bytes) : Prop where
  remaining : input.remaining = out ++ input'.remaining
  bytes : input'.bytes = input.bytes + out.length
  hash : input'.hash = input.hash ++ out
  maxBytes : input'.maxBytes = input.maxBytes

theorem Consumes.refl (input : CheckpointInput) : Consumes input input [] :=
  ⟨rfl, rfl, (List.append_nil _).symm, rfl⟩

theorem Consumes.trans {a b c : CheckpointInput} {out out' : Bytes} (h : Consumes a b out)
    (h' : Consumes b c out') : Consumes a c (out ++ out') where
  remaining := by rw [h.remaining, h'.remaining, List.append_assoc]
  bytes := by rw [h'.bytes, h.bytes, List.length_append]; omega
  hash := by rw [h'.hash, h.hash, List.append_assoc]
  maxBytes := h'.maxBytes.trans h.maxBytes

/-- What `nextChunk` leaves alone. -/
structure SameBytes (input input' : CheckpointInput) : Prop where
  remaining : input'.remaining = input.remaining
  bytes : input'.bytes = input.bytes
  hash : input'.hash = input.hash
  maxBytes : input'.maxBytes = input.maxBytes

theorem nextChunk_same (input : CheckpointInput) : SameBytes input input.nextChunk.2 := by
  fun_induction nextChunk input with
  | case1 => exact ⟨rfl, rfl, rfl, rfl⟩
  | case2 input hused next rest hsource ih =>
      refine ⟨?_, ih.bytes, ih.hash, ih.maxBytes⟩
      rw [ih.remaining]
      simp only [remaining, List.drop_zero, hsource, List.flatten_cons, hused, List.drop_length,
        List.nil_append]
  | case3 => exact ⟨rfl, rfl, rfl, rfl⟩

theorem nextChunk_true (input : CheckpointInput) (h : input.nextChunk.1 = true) :
    input.nextChunk.2.used < input.nextChunk.2.chunk.length := by
  fun_induction nextChunk input with
  | case1 => simp at h
  | case2 input hused next rest hsource ih => exact ih h
  | case3 input hused => exact lt_of_le_of_ne input.used_le hused

theorem nextChunk_eq_true_iff (input : CheckpointInput) :
    input.nextChunk.1 = true ↔ input.remaining ≠ [] := by
  fun_induction nextChunk input with
  | case1 input hused hsource =>
      simp [remaining, hused, hsource]
  | case2 input hused next rest hsource ih =>
      rw [ih]
      simp [remaining, hused, hsource]
  | case3 input hused =>
      have := input.used_le
      simp only [remaining, ne_eq, List.append_eq_nil_iff, List.drop_eq_nil_iff, true_iff]
      omega

/-- The copying loop of `read`: `result` holds what has been copied. -/
def fill (input : CheckpointInput) (size : Nat) (result : Bytes) :
    Except String (Bytes × CheckpointInput) :=
  if result.length < size then
    match h : input.nextChunk with
    | (false, _) => .error "Truncated checkpoint archive."
    | (true, next) =>
        let length := min (size - result.length) (next.chunk.length - next.used)
        fill { next with used := next.used + length,
                         used_le := by have := next.used_le; omega } size
          (result ++ (next.chunk.drop next.used).take length)
  else .ok (result, input)
termination_by size - result.length
decreasing_by
  have hused : next.used < next.chunk.length := by
    have := nextChunk_true input (by rw [h])
    rwa [h] at this
  simp only [List.length_append, List.length_take, List.length_drop]
  omega

def read (input : CheckpointInput) (size : Nat) : Except String (Bytes × CheckpointInput) :=
  if size > CHECKPOINT_IO_BYTES then .error "Invalid checkpoint read size."
  else if input.bytes + size > MAX_SAFE_INTEGER || input.bytes + size > input.maxBytes then
    .error "Checkpoint archive exceeds its physical reservation."
  else
    match input.fill size [] with
    | .error e => .error e
    | .ok (result, input) =>
        .ok (result, { input with bytes := input.bytes + size, hash := input.hash ++ result })

/-- `end()`. -/
def finish (input : CheckpointInput) : Except String Unit :=
  if input.nextChunk.1 then .error "Checkpoint archive has trailing data." else .ok ()

def digest (node : NodeRuntime) (input : CheckpointInput) : String := node.digest input.hash

end CheckpointInput

def checkpointInput (source : List Bytes) (maxBytes : Int) : Except String CheckpointInput :=
  if h : 0 ≤ maxBytes ∧ maxBytes.toNat ≤ MAX_SAFE_INTEGER then
    .ok { source, chunk := [], used := 0, bytes := 0, hash := [], maxBytes := maxBytes.toNat,
          used_le := Nat.zero_le _, maxBytes_safe := h.2 }
  else .error "Invalid checkpoint archive reservation."

namespace CheckpointInput

/-! ### What a read consumes -/

theorem take_add_append {a b : Bytes} {m : Nat} (h : a.length = m) (k : Nat) :
    (a ++ b).take (m + k) = a ++ b.take k := by
  subst h
  exact List.take_length_add_append k

theorem drop_add_append {a b : Bytes} {m : Nat} (h : a.length = m) (k : Nat) :
    (a ++ b).drop (m + k) = b.drop k := by
  subst h
  exact List.drop_length_add_append k

theorem fill_ok (input : CheckpointInput) (size : Nat) (result : Bytes)
    (hsize : result.length ≤ size) (h : size - result.length ≤ input.remaining.length) :
    ∃ input', input.fill size result =
        .ok (result ++ input.remaining.take (size - result.length), input') ∧
      input'.remaining = input.remaining.drop (size - result.length) ∧
      input'.bytes = input.bytes ∧ input'.hash = input.hash ∧ input'.maxBytes = input.maxBytes := by
  fun_induction fill input size result with
  | case1 input result hlt next hnext =>
      have hempty : input.remaining = [] := by
        by_contra hne
        have := (nextChunk_eq_true_iff input).mpr hne
        simp [hnext] at this
      rw [hempty, List.length_nil] at h
      omega
  | case2 input result hlt next hnext length ih =>
      have hsame := nextChunk_same input
      have hused := nextChunk_true input (by rw [hnext])
      rw [hnext] at hsame hused
      -- The chunk gives `length` bytes, and the rest of the loop reads on from there.
      have hpiece : ((next.chunk.drop next.used).take length).length = length := by
        rw [List.length_take, List.length_drop]
        omega
      have hafter : input.remaining = (next.chunk.drop next.used).take length ++
          (next.chunk.drop (next.used + length) ++ next.source.flatten) := by
        rw [← hsame.remaining, remaining, ← List.append_assoc, ← List.drop_drop,
          List.take_append_drop]
      have hcount : size - result.length = length + (size - (result.length + length)) := by omega
      have htake : input.remaining.take (size - result.length) =
          (next.chunk.drop next.used).take length ++
            (next.chunk.drop (next.used + length) ++ next.source.flatten).take
              (size - (result.length + length)) := by
        rw [hcount, hafter, take_add_append hpiece]
      have hdrop : input.remaining.drop (size - result.length) =
          (next.chunk.drop (next.used + length) ++ next.source.flatten).drop
            (size - (result.length + length)) := by
        rw [hcount, hafter, drop_add_append hpiece]
      simp only [List.length_append, hpiece] at ih
      obtain ⟨input', hfill, hrem, hbytes, hhash, hmax⟩ := ih (by omega) (by
        rw [hafter, List.length_append, hpiece] at h
        simp only [remaining]
        omega)
      refine ⟨input', ?_, ?_, hbytes.trans hsame.bytes, hhash.trans hsame.hash,
        hmax.trans hsame.maxBytes⟩
      · rw [hfill, htake, List.append_assoc]
        rfl
      · rw [hrem, hdrop]
        rfl
  | case3 input result hge =>
      have hzero : size - result.length = 0 := by omega
      exact ⟨input, by simp [hzero], by simp [hzero], rfl, rfl, rfl⟩

theorem fill_truncated {input : CheckpointInput} {size : Nat} {result : Bytes}
    (h : input.remaining.length < size - result.length) :
    input.fill size result = .error "Truncated checkpoint archive." := by
  fun_induction fill input size result with
  | case1 => rfl
  | case2 input result hlt next hnext length ih =>
      have hsame := nextChunk_same input
      rw [hnext] at hsame
      apply ih
      have hrem : input.remaining.length =
          (next.chunk.length - next.used) + next.source.flatten.length := by
        rw [← hsame.remaining, remaining, List.length_append, List.length_drop]
      simp only [remaining, List.length_append, List.length_take, List.length_drop]
      omega
  | case3 input result hge => omega

theorem read_ok {input : CheckpointInput} {out rest : Bytes}
    (hremaining : input.remaining = out ++ rest) (hio : out.length ≤ CHECKPOINT_IO_BYTES)
    (hmax : input.bytes + out.length ≤ input.maxBytes) :
    ∃ input', input.read out.length = .ok (out, input') ∧ Consumes input input' out ∧
      input'.remaining = rest := by
  have hsafe := input.maxBytes_safe
  obtain ⟨input', hfill, hrem, hbytes, hhash, hmaxBytes⟩ :=
    fill_ok input out.length [] (Nat.zero_le _)
      (by rw [hremaining]; simp)
  simp only [List.length_nil, Nat.sub_zero, List.nil_append] at hfill hrem
  rw [hremaining, List.take_left] at hfill
  rw [hremaining, List.drop_left] at hrem
  refine ⟨{ input' with bytes := input'.bytes + out.length, hash := input'.hash ++ out }, ?_,
    ⟨?_, ?_, ?_, hmaxBytes⟩, hrem⟩
  · have h₁ : ¬out.length > CHECKPOINT_IO_BYTES := by omega
    have h₂ : (input.bytes + out.length > MAX_SAFE_INTEGER ||
        input.bytes + out.length > input.maxBytes) = false := by
      simp only [gt_iff_lt, Bool.or_eq_false_iff, decide_eq_false_iff_not]
      omega
    simp only [read, if_neg h₁, h₂, hfill, Bool.false_eq_true, if_false]
  · rw [hremaining, ← hrem]
    rfl
  · simp only [hbytes]
  · simp only [hhash]

theorem read_eq_ok {input input' : CheckpointInput} {size : Nat} {out : Bytes}
    (h : input.read size = .ok (out, input')) :
    Consumes input input' out ∧ out.length = size ∧ size ≤ CHECKPOINT_IO_BYTES ∧
      input'.bytes ≤ input'.maxBytes := by
  unfold read at h
  split_ifs at h with h₁ h₂
  simp only [gt_iff_lt, Bool.or_eq_true, decide_eq_true_eq, not_or, not_lt] at h₁ h₂
  by_cases hlen : size ≤ input.remaining.length
  · obtain ⟨input₁, hfill, hrem, hbytes, hhash, hmaxBytes⟩ :=
      fill_ok input size [] (Nat.zero_le _) (by simpa using hlen)
    simp only [List.length_nil, Nat.sub_zero, List.nil_append] at hfill hrem
    rw [hfill] at h
    simp only [Except.ok.injEq, Prod.mk.injEq] at h
    obtain ⟨rfl, rfl⟩ := h
    have htake : (input.remaining.take size).length = size := by
      rw [List.length_take]
      omega
    refine ⟨⟨?_, ?_, ?_, hmaxBytes⟩, htake, h₁, ?_⟩
    · change input.remaining = _ ++ input₁.remaining
      rw [hrem, List.take_append_drop]
    · simp only [hbytes, htake]
    · simp only [hhash]
    · simp only [hbytes, hmaxBytes]
      omega
  · rw [fill_truncated (by simpa using hlen)] at h
    contradiction

theorem finish_eq_ok (input : CheckpointInput) : input.finish = .ok () ↔ input.remaining = [] := by
  have h := nextChunk_eq_true_iff input
  unfold finish
  split
  · rename_i hnext
    simp [h.mp hnext]
  · rename_i hnext
    simpa using not_imp_comm.mp h.mpr hnext

end CheckpointInput

theorem checkpointInput_eq_ok {source : List Bytes} {maxBytes : Int} {input : CheckpointInput}
    (h : checkpointInput source maxBytes = .ok input) :
    input.remaining = source.flatten ∧ input.bytes = 0 ∧ input.hash = [] ∧
      (input.maxBytes : Int) = maxBytes := by
  unfold checkpointInput at h
  split at h
  · rename_i hmax
    rw [Except.ok.injEq] at h
    subst h
    refine ⟨by simp [CheckpointInput.remaining], rfl, rfl, ?_⟩
    exact Int.toNat_of_nonneg hmax.1
  · contradiction

theorem checkpointInput_ok (source : List Bytes) {maxBytes : Nat}
    (h : maxBytes ≤ MAX_SAFE_INTEGER) :
    ∃ input, checkpointInput source maxBytes = .ok input := by
  refine ⟨_, dif_pos ⟨Int.natCast_nonneg _, ?_⟩⟩
  simpa using h

end PocketCoder.Checkpoints
