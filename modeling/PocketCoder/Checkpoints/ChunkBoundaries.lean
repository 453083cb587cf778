import PocketCoder.Checkpoints.Input

/-!
The results of reading a chunked source: whatever the chunks are, they are
those of reading from the concatenated bytes.

`attempt` is `read` with the state in which it leaves the input, also when it
throws. `expected` is reading from one block of bytes; `attempt_expected` is the
step between the two, and `attempts_expected` the run.
-/

namespace PocketCoder.Checkpoints

open PocketCoder.Foundation

namespace CheckpointInput

/-! ### Reads that may fail -/

/-- The copying loop, with the input after it. -/
def copy (input : CheckpointInput) (size : Nat) (result : Bytes) :
    Except String Bytes × CheckpointInput :=
  if result.length < size then
    match h : input.nextChunk with
    | (false, next) => (.error "Truncated checkpoint archive.", next)
    | (true, next) =>
        let length := min (size - result.length) (next.chunk.length - next.used)
        copy { next with used := next.used + length,
                         used_le := by have := next.used_le; omega } size
          (result ++ (next.chunk.drop next.used).take length)
  else (.ok result, input)
termination_by size - result.length
decreasing_by
  have hused : next.used < next.chunk.length := by
    have := nextChunk_true input (by rw [h])
    rwa [h] at this
  simp only [List.length_append, List.length_take, List.length_drop]
  omega

/-- `read(size)`, with the input after it. -/
def attempt (input : CheckpointInput) (size : Nat) : Except String Bytes × CheckpointInput :=
  if size > CHECKPOINT_IO_BYTES then (.error "Invalid checkpoint read size.", input)
  else if input.bytes + size > MAX_SAFE_INTEGER || input.bytes + size > input.maxBytes then
    (.error "Checkpoint archive exceeds its physical reservation.", input)
  else
    match input.copy size [] with
    | (.error e, input) => (.error e, input)
    | (.ok result, input) =>
        (.ok result, { input with bytes := input.bytes + size, hash := input.hash ++ result })

/-- Some reads after each other. -/
def attempts (input : CheckpointInput) : List Nat → List (Except String Bytes) × CheckpointInput
  | [] => ([], input)
  | size :: sizes =>
      let (result, next) := input.attempt size
      let (results, last) := next.attempts sizes
      (result :: results, last)

theorem copy_eq_fill (input : CheckpointInput) (size : Nat) (result : Bytes) :
    input.fill size result = match input.copy size result with
      | (.error e, _) => .error e
      | (.ok bytes, next) => .ok (bytes, next) := by
  fun_induction copy input size result with
  | case1 input result hlt next hnext =>
      rw [fill, if_pos hlt]
      split
      · rfl
      · rename_i hother
        rw [hnext] at hother
        cases hother
  | case2 input result hlt next hnext length ih =>
      rw [← ih, fill, if_pos hlt]
      split
      · rename_i hother
        rw [hnext] at hother
        cases hother
      · rename_i other hother
        rw [hnext] at hother
        cases hother
        rfl
  | case3 input result hge => rw [fill, if_neg hge]

/-! ### One block of bytes -/

/-- A read from one block of bytes: its result, and what is left. -/
def expected (maxBytes bytes : Nat) (rest : Bytes) (size : Nat) : Except String Bytes × Bytes :=
  if bytes + size > maxBytes then
    (.error "Checkpoint archive exceeds its physical reservation.", rest)
  else if rest.length < size then (.error "Truncated checkpoint archive.", [])
  else (.ok (rest.take size), rest.drop size)

/-- What a result returned. -/
def returned : Except String Bytes → Bytes
  | .ok bytes => bytes
  | .error _ => []

/-- Some reads from one block of bytes. -/
def expecteds (maxBytes bytes : Nat) (rest : Bytes) : List Nat → List (Except String Bytes)
  | [] => []
  | size :: sizes =>
      let (result, left) := expected maxBytes bytes rest size
      result :: expecteds maxBytes (bytes + (returned result).length) left sizes

theorem copy_truncated {input : CheckpointInput} {size : Nat} {result : Bytes}
    (h : input.remaining.length < size - result.length) :
    ∃ next, input.copy size result = (.error "Truncated checkpoint archive.", next) ∧
      next.remaining = [] ∧ next.bytes = input.bytes ∧ next.hash = input.hash ∧
        next.maxBytes = input.maxBytes := by
  fun_induction copy input size result with
  | case1 input result hlt next hnext =>
      have hsame := nextChunk_same input
      have hempty : input.remaining = [] := by
        by_contra hne
        have htrue := (nextChunk_eq_true_iff input).mpr hne
        rw [hnext] at htrue
        cases htrue
      rw [hnext] at hsame
      exact ⟨next, rfl, hsame.remaining.trans hempty, hsame.bytes, hsame.hash, hsame.maxBytes⟩
  | case2 input result hlt next hnext length ih =>
      have hsame := nextChunk_same input
      rw [hnext] at hsame
      have hrem : input.remaining.length =
          (next.chunk.length - next.used) + next.source.flatten.length := by
        rw [← hsame.remaining, remaining, List.length_append, List.length_drop]
      obtain ⟨last, hcopy, hempty, hbytes, hhash, hmax⟩ := ih (by
        simp only [remaining, List.length_append, List.length_take, List.length_drop]
        omega)
      exact ⟨last, hcopy, hempty, hbytes.trans hsame.bytes, hhash.trans hsame.hash,
        hmax.trans hsame.maxBytes⟩
  | case3 input result hge => omega

theorem copy_ok {input : CheckpointInput} {size : Nat} (h : size ≤ input.remaining.length) :
    ∃ next, input.copy size [] = (.ok (input.remaining.take size), next) ∧
      next.remaining = input.remaining.drop size ∧ next.bytes = input.bytes ∧
        next.hash = input.hash ∧ next.maxBytes = input.maxBytes := by
  obtain ⟨next, hfill, hsame⟩ := fill_ok input size [] (Nat.zero_le _) h
  refine ⟨next, ?_, hsame⟩
  rw [copy_eq_fill] at hfill
  rcases hcopy : input.copy size [] with ⟨_ | bytes, other⟩ <;> rw [hcopy] at hfill
  · cases hfill
  · rw [Except.ok.injEq, Prod.mk.injEq] at hfill
    rw [hfill.1, hfill.2]
    rfl

/-- One read has the result of one from the bytes not read yet. -/
theorem attempt_expected (input : CheckpointInput) {size : Nat} (hsize : size ≤ CHECKPOINT_IO_BYTES) :
    (input.attempt size).1 = (expected input.maxBytes input.bytes input.remaining size).1 ∧
      (input.attempt size).2.remaining =
        (expected input.maxBytes input.bytes input.remaining size).2 ∧
      (input.attempt size).2.bytes = input.bytes + (returned (input.attempt size).1).length ∧
      (input.attempt size).2.hash = input.hash ++ returned (input.attempt size).1 ∧
      (input.attempt size).2.maxBytes = input.maxBytes := by
  have hsafe := input.maxBytes_safe
  rw [attempt, if_neg (Nat.not_lt.mpr hsize), expected]
  by_cases hmax : input.bytes + size > input.maxBytes
  · rw [if_pos (by simp [hmax]), if_pos hmax]
    exact ⟨rfl, rfl, rfl, (List.append_nil _).symm, rfl⟩
  · rw [if_neg (by simp only [gt_iff_lt, Bool.or_eq_true, decide_eq_true_eq]; omega), if_neg hmax]
    by_cases hlen : input.remaining.length < size
    · obtain ⟨next, hcopy, hempty, hbytes, hhash, hsame⟩ :=
        @copy_truncated input size [] hlen
      rw [if_pos hlen, hcopy]
      exact ⟨rfl, hempty, hbytes, hhash.trans (List.append_nil _).symm, hsame⟩
    · obtain ⟨next, hcopy, hrest, hbytes, hhash, hsame⟩ := copy_ok (Nat.not_lt.mp hlen)
      rw [if_neg hlen, hcopy]
      refine ⟨rfl, hrest, ?_, congrArg (· ++ _) hhash, hsame⟩
      have htake : (input.remaining.take size).length = size := by
        rw [List.length_take]
        omega
      show next.bytes + size = input.bytes + (input.remaining.take size).length
      rw [htake, hbytes]

theorem returned_expected (maxBytes bytes : Nat) (rest : Bytes) (size : Nat)
    (h : (expected maxBytes bytes rest size).1 ≠ .error "Truncated checkpoint archive.") :
    returned (expected maxBytes bytes rest size).1 ++ (expected maxBytes bytes rest size).2 = rest := by
  rw [expected] at h ⊢
  split_ifs at h ⊢ with hmax hlen
  · rfl
  · exact absurd rfl h
  · exact List.take_append_drop size rest

/-- Reads have the results of reads from the bytes not read yet. -/
theorem attempts_expected (input : CheckpointInput) {sizes : List Nat}
    (hsizes : ∀ size ∈ sizes, size ≤ CHECKPOINT_IO_BYTES) :
    (input.attempts sizes).1 = expecteds input.maxBytes input.bytes input.remaining sizes ∧
      (input.attempts sizes).2.bytes =
        input.bytes + ((input.attempts sizes).1.flatMap returned).length ∧
      (input.attempts sizes).2.hash = input.hash ++ (input.attempts sizes).1.flatMap returned ∧
      (input.attempts sizes).2.maxBytes = input.maxBytes := by
  induction sizes generalizing input with
  | nil => exact ⟨rfl, rfl, (List.append_nil _).symm, rfl⟩
  | cons size sizes ih =>
      obtain ⟨hresult, hrest, hbytes, hhash, hmax⟩ :=
        input.attempt_expected (hsizes size List.mem_cons_self)
      obtain ⟨hresults, hbytes', hhash', hmax'⟩ :=
        ih (input.attempt size).2 fun other hother => hsizes other (List.mem_cons_of_mem _ hother)
      refine ⟨?_, ?_, ?_, hmax'.trans hmax⟩
      · rw [attempts, expecteds]
        show _ :: _ = _ :: _
        rw [hresults, hmax, hbytes, hrest, hresult]
        rfl
      · rw [attempts]
        show ((input.attempt size).2.attempts sizes).2.bytes = _
        rw [hbytes', hbytes, List.flatMap_cons, List.length_append, Nat.add_assoc]
      · rw [attempts]
        show ((input.attempt size).2.attempts sizes).2.hash = _
        rw [hhash', hhash, List.flatMap_cons, List.append_assoc]

/-- What is returned and what is left are all of the bytes. -/
theorem attempts_remaining (input : CheckpointInput) {sizes : List Nat}
    (hsizes : ∀ size ∈ sizes, size ≤ CHECKPOINT_IO_BYTES)
    (h : ∀ result ∈ (input.attempts sizes).1, result ≠ .error "Truncated checkpoint archive.") :
    (input.attempts sizes).1.flatMap returned ++ (input.attempts sizes).2.remaining =
      input.remaining := by
  induction sizes generalizing input with
  | nil => rfl
  | cons size sizes ih =>
      obtain ⟨hresult, hrest, -⟩ := input.attempt_expected (hsizes size List.mem_cons_self)
      have htail := ih (input.attempt size).2
        (fun other hother => hsizes other (List.mem_cons_of_mem _ hother))
        fun result hmem => h result (List.mem_cons_of_mem _ hmem)
      have hhead := returned_expected input.maxBytes input.bytes input.remaining size
        (hresult ▸ h _ List.mem_cons_self)
      rw [attempts, List.flatMap_cons, List.append_assoc]
      show _ ++ (((input.attempt size).2.attempts sizes).1.flatMap returned ++
        ((input.attempt size).2.attempts sizes).2.remaining) = _
      rw [htail, hrest, hresult, hhead]

/-- A read that the reservation refuses leaves the input as it was. -/
theorem attempt_refused {input : CheckpointInput} {size : Nat}
    (hsize : size ≤ CHECKPOINT_IO_BYTES) (h : input.bytes + size > input.maxBytes) :
    input.attempt size =
      (.error "Checkpoint archive exceeds its physical reservation.", input) := by
  rw [attempt, if_neg (Nat.not_lt.mpr hsize), if_pos (by simp [h])]

theorem expected_refused (maxBytes bytes : Nat) (rest : Bytes) (size : Nat) :
    (expected maxBytes bytes rest size).1 =
        .error "Checkpoint archive exceeds its physical reservation." ↔
      bytes + size > maxBytes := by
  rw [expected]
  split_ifs with hmax hlen <;> simp [hmax]

theorem expected_truncated {maxBytes bytes : Nat} (rest : Bytes) {size : Nat}
    (h : bytes + size ≤ maxBytes) :
    (expected maxBytes bytes rest size).1 = .error "Truncated checkpoint archive." ↔
      rest.length < size := by
  rw [expected, if_neg (Nat.not_lt.mpr h)]
  split_ifs with hlen <;> simp [hlen]

end CheckpointInput

open CheckpointInput in
/-- After any reads of which none was truncated, the next one and `end()` are
about the bytes that follow what they returned. -/
theorem checkpointInput_hides {source : List Bytes} {maxBytes : Int} {input : CheckpointInput}
    (h : checkpointInput source maxBytes = .ok input) {sizes : List Nat}
    (hsizes : ∀ size ∈ sizes, size ≤ CHECKPOINT_IO_BYTES) (node : NodeRuntime) :
    let results := (input.attempts sizes).1
    let last := (input.attempts sizes).2
    let read := results.flatMap returned
    results = expecteds maxBytes.toNat 0 source.flatten sizes ∧
      last.bytes = read.length ∧ last.digest node = node.digest read ∧
      ((∀ result ∈ results, result ≠ .error "Truncated checkpoint archive.") →
        (last.finish = .ok () ↔ read = source.flatten) ∧
        ∀ size ≤ CHECKPOINT_IO_BYTES,
          ((last.attempt size).1 = .error "Checkpoint archive exceeds its physical reservation." ↔
            (last.bytes + size : Int) > maxBytes) ∧
          ((last.bytes + size : Int) > maxBytes → (last.attempt size).2 = last) ∧
          ((last.bytes + size : Int) ≤ maxBytes →
            ((last.attempt size).1 = .error "Truncated checkpoint archive." ↔
              (source.flatten.drop read.length).length < size) ∧
            (size ≤ (source.flatten.drop read.length).length →
              (last.attempt size).1 = .ok ((source.flatten.drop read.length).take size)))) := by
  intro results last read
  obtain ⟨hremaining, hbytes, hhash, hmax⟩ := checkpointInput_eq_ok h
  obtain ⟨hresults, hlast, hdigest, hlimit⟩ := input.attempts_expected hsizes
  have hnat : maxBytes.toNat = input.maxBytes := by omega
  have hlast : last.bytes = read.length := by rw [hlast, hbytes, Nat.zero_add]
  refine ⟨?_, hlast, ?_, fun huntruncated => ?_⟩
  · rw [hnat, ← hbytes, ← hremaining]
    exact hresults
  · show node.digest _ = _
    rw [hdigest, hhash, List.nil_append]
  have hall : read ++ last.remaining = source.flatten := by
    rw [← hremaining]
    exact input.attempts_remaining hsizes huntruncated
  have hrest : source.flatten.drop read.length = last.remaining := by rw [← hall, List.drop_left]
  refine ⟨?_, fun size hsize => ?_⟩
  · rw [finish_eq_ok, ← hall]
    exact ⟨fun hempty => by rw [hempty, List.append_nil], fun hread => by simpa using hread⟩
  · obtain ⟨hresult, -⟩ := last.attempt_expected hsize
    have hover : (last.bytes + size : Int) > maxBytes ↔ last.bytes + size > last.maxBytes := by
      have hsame : last.maxBytes = input.maxBytes := hlimit
      omega
    rw [hrest, hresult, hover, expected_refused]
    refine ⟨Iff.rfl, fun hrefused => by rw [attempt_refused hsize hrefused], fun hfits => ?_⟩
    have hfits : last.bytes + size ≤ last.maxBytes := by omega
    refine ⟨expected_truncated _ hfits, fun hlen => ?_⟩
    rw [expected, if_neg (Nat.not_lt.mpr hfits), if_neg (Nat.not_lt.mpr hlen)]

/-- Three bytes in two chunks with an empty one between them, read in two
pieces around a read that the reservation refuses. -/
theorem checkpointInput_hides_bytes :
    ∃ input, checkpointInput [[1, 2], [], [3]] 3 = .ok input ∧
      (input.attempts [1, 3, 2]).1 = CheckpointInput.expecteds 3 0 [1, 2, 3] [1, 3, 2] ∧
      (input.attempts [1, 3, 2]).1.flatMap CheckpointInput.returned = [1, 2, 3] := by
  obtain ⟨input, hinput⟩ := @checkpointInput_ok [[1, 2], [], [3]] 3 (by decide)
  have hsizes : ∀ size ∈ [1, 3, 2], size ≤ CHECKPOINT_IO_BYTES := by decide
  obtain ⟨hresults, -⟩ := checkpointInput_hides hinput hsizes asciiRuntime
  exact ⟨input, hinput, hresults, by rw [hresults]; rfl⟩

end PocketCoder.Checkpoints
