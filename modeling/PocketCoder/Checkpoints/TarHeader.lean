import PocketCoder.Checkpoints.Format

/-!
The 512-byte header in front of every archive member
(`contracts/src/checkpoints/archive-header.ts`).

The reader does not interpret a header field by field. It reads a name and a
size, builds the one header the writer would write for them and compares, so
a header is accepted with a name and a size exactly when it is the writer's
header for that name and size (`parseCheckpointTarHeader_eq_ok`).
-/

namespace PocketCoder.Checkpoints

open PocketCoder.Foundation

/-- The bytes `buffer.write(text)` writes. -/
def textBytes (cs : List Char) : Bytes := utf8 (String.ofList cs)

/-- `buffer.toString("ascii")`, which clears the high bit of every byte. -/
def asciiText (bytes : Bytes) : List Char := bytes.map fun b => Char.ofNat (b.toNat % 128)

/-- `/[a-z0-9./]/`. -/
def isNameChar (c : Char) : Bool := isLowerAlnum c || c = '.' || c = '/'

/-- `checkpointIndex`: sixteen hexadecimal digits. -/
def checkpointIndex (value : Nat) : Except String String :=
  if value ≤ MAX_SAFE_INTEGER then .ok (String.ofList (numeral 16 16 value))
  else .error "Invalid checkpoint entry index."

/-- The numeric fields of the header: offset, width and value. -/
def tarNumbers (size : Nat) : List (Nat × Nat × Nat) :=
  [(100, 8, 0o600), (108, 8, 0), (116, 8, 0), (124, 12, size), (136, 12, 0)]

/-- ``value.write(`${number.toString(8).padStart(width - 1, "0")}\0`, offset, width)``. -/
def numberWrite : Nat × Nat × Nat → Nat × Bytes
  | (offset, width, number) =>
      (offset, (textBytes (numeral 8 (width - 1) number ++ ['\x00'])).take width)

/-- The writes of `checkpointTarHeader`, in its order, before the checksum is
known: until then its field holds blanks. -/
def tarWrites (name : String) (size : Nat) : List (Nat × Bytes) :=
  (0, utf8 name) :: (tarNumbers size).map numberWrite ++
    [(148, List.replicate 8 32), (156, textBytes ['0']),
      (257, textBytes ['u', 's', 't', 'a', 'r', '\x00']), (263, textBytes ['0', '0'])]

/-- `Buffer.alloc(512)`. -/
def emptyBlock : Bytes := List.replicate 512 0

@[simp] theorem length_emptyBlock : emptyBlock.length = 512 := List.length_replicate

def tarHeaderBase (name : String) (size : Nat) : Bytes :=
  applyWrites emptyBlock (tarWrites name size)

def checksum (value : Bytes) : Nat := (value.map UInt8.toNat).sum

/-- What `checkpointTarHeader` accepts. -/
def tarHeaderValid (name : String) (size : Nat) : Bool :=
  name ≠ "" && name.toList.all isNameChar && name.toList.length ≤ 100 && size ≤ 0o77777777777

def checkpointTarHeader (name : String) (size : Nat) : Except String Bytes :=
  if tarHeaderValid name size then
    let value := tarHeaderBase name size
    .ok (applyWrites value
      [(148, (textBytes (numeral 8 6 (checksum value) ++ ['\x00', ' '])).take 8)])
  else .error "Invalid checkpoint tar header."

def parseCheckpointTarHeader (bytes : Bytes) : Except String (String × Nat) :=
  -- The name ends at the first zero of its field, or with the field.
  let name := String.ofList (asciiText ((bytes.take 100).takeWhile (· ≠ 0)))
  let sizeText := asciiText (slice bytes 124 12)
  -- `parseInt` stops at the terminating zero, so it reads the eleven digits.
  let digits := sizeText.take 11
  if sizeText.length = 12 && digits.all (fun c => '0' ≤ c && c ≤ '7') &&
      sizeText.drop 11 = ['\x00'] then
    match checkpointTarHeader name (Nat.ofDigitChars 8 digits 0) with
    | .ok header =>
        if header = bytes then .ok (name, Nat.ofDigitChars 8 digits 0)
        else .error "Invalid checkpoint tar header."
    | .error e => .error e
  else .error "Invalid checkpoint tar header size."

/-! ### Names -/

theorem isNameChar_ascii {c : Char} (h : isNameChar c = true) : c ≠ '\x00' ∧ c.toNat < 128 := by
  have hupper : c.toNat < 128 := by
    simp only [isNameChar, isLowerAlnum, Char.isDigit, Bool.or_eq_true,
      Bool.and_eq_true, decide_eq_true_eq, UInt32.le_iff_toNat_le] at h
    change c.val.toNat < 128
    rcases h with (((h | ⟨-, h⟩) | h) | h)
    · have hbound := (Bool.and_eq_true_iff.mp h).2
      exact lt_of_le_of_lt (UInt32.le_iff_toNat_le.mp (of_decide_eq_true hbound)) (by decide)
    · exact lt_of_le_of_lt h (by decide)
    · subst h
      decide
    · subst h
      decide
  refine ⟨?_, hupper⟩
  rintro rfl
  exact absurd h (by decide)

theorem utf8_name {name : String} (h : name.toList.all isNameChar = true) :
    utf8 name = name.toList.map fun c => UInt8.ofNat c.toNat :=
  utf8_ascii fun c hc => (isNameChar_ascii (List.all_eq_true.mp h c hc)).2

theorem length_utf8_name {name : String} (h : name.toList.all isNameChar = true) :
    (utf8 name).length = name.toList.length := by
  rw [utf8_name h, List.length_map]

/-- ASCII text survives being written as bytes and read as ASCII. -/
theorem asciiText_map {cs : List Char} (h : ∀ c ∈ cs, c.toNat < 128) :
    asciiText (cs.map fun c => UInt8.ofNat c.toNat) = cs := by
  rw [asciiText, List.map_map]
  conv_rhs => rw [← List.map_id cs]
  apply List.map_congr_left
  intro c hc
  have := h c hc
  simp only [Function.comp_apply, UInt8.toNat_ofNat', id_eq]
  rw [Nat.mod_eq_of_lt (by omega : c.toNat < 2 ^ 8), Nat.mod_eq_of_lt this, Char.ofNat_toNat]

theorem takeWhile_utf8_name {name : String} (h : name.toList.all isNameChar = true) (n : Nat) :
    (utf8 name ++ List.replicate n 0).takeWhile (· ≠ 0) = utf8 name := by
  have hne : ∀ b ∈ utf8 name, decide (b ≠ 0) = true := by
    rw [utf8_name h]
    intro b hb
    obtain ⟨c, hc, rfl⟩ := List.mem_map.mp hb
    obtain ⟨hzero, hlt⟩ := isNameChar_ascii (List.all_eq_true.mp h c hc)
    rw [decide_eq_true_eq]
    intro heq
    have hnat := congrArg UInt8.toNat heq
    rw [UInt8.toNat_ofNat', Nat.mod_eq_of_lt (by omega : c.toNat < 2 ^ 8)] at hnat
    apply hzero
    rw [← Char.ofNat_toNat c, hnat]
    rfl
  rw [List.takeWhile_append_of_pos hne]
  cases n <;> simp [List.replicate_succ]

/-! ### Layout -/

/-- Octal digits are ASCII. -/
theorem numeral_octal_ascii (width n : Nat) : ∀ c ∈ numeral 8 width n, c.toNat < 128 :=
  forall_mem_numeral width n (by omega) (by decide)

theorem textBytes_numeral (width n : Nat) (tail : List Char) (ht : ∀ c ∈ tail, c.toNat < 128) :
    textBytes (numeral 8 width n ++ tail) =
      (numeral 8 width n ++ tail).map fun c => UInt8.ofNat c.toNat := by
  rw [textBytes, utf8_ascii (by
    intro c hc
    rw [String.toList_ofList, List.mem_append] at hc
    exact hc.elim (numeral_octal_ascii width n c) (ht c)), String.toList_ofList]

theorem length_numberWrite_le (offset width number : Nat) :
    (numberWrite (offset, width, number)).2.length ≤ width :=
  List.length_take_le _ _

/-- A number that fits its field is written as its digits and a zero. -/
theorem numberWrite_eq (offset : Nat) {width number : Nat} (hw : 1 < width)
    (hn : number < 8 ^ (width - 1)) :
    numberWrite (offset, width, number) =
      (offset, (numeral 8 (width - 1) number ++ ['\x00']).map fun c => UInt8.ofNat c.toNat) := by
  have htext := textBytes_numeral (width - 1) number ['\x00'] (by simp)
  have hlen : (textBytes (numeral 8 (width - 1) number ++ ['\x00'])).length = width := by
    rw [htext, List.length_map, List.length_append, length_numeral (by omega) (by omega) hn,
      List.length_singleton]
    omega
  rw [numberWrite, List.take_of_length_le (by omega), htext]

/-- The writes of one header, with the checksum written last: they stay in
the buffer, and only the first one touches the name. -/
def allTarWrites (name : String) (size : Nat) : List (Nat × Bytes) :=
  tarWrites name size ++ [(148,
    (textBytes (numeral 8 6 (checksum (tarHeaderBase name size)) ++ ['\x00', ' '])).take 8)]

theorem checkpointTarHeader_eq {name : String} {size : Nat} (h : tarHeaderValid name size = true) :
    checkpointTarHeader name size =
      .ok (applyWrites emptyBlock (allTarWrites name size)) := by
  rw [checkpointTarHeader, if_pos h, allTarWrites, applyWrites_append]
  rfl

theorem allTarWrites_range (name : String) (size : Nat) :
    ∀ w ∈ (allTarWrites name size).tail, 100 ≤ w.1 ∧ w.1 + w.2.length ≤ 512 ∧
      (w.1 = 124 ∨ w.1 + w.2.length ≤ 124 ∨ 136 ≤ w.1) := by
  intro w hw
  have hnumber := length_numberWrite_le
  simp only [allTarWrites, tarWrites, tarNumbers, List.map_cons, List.map_nil, List.cons_append,
    List.nil_append, List.tail_cons, List.mem_cons, List.not_mem_nil, or_false] at hw
  rcases hw with rfl | rfl | rfl | rfl | rfl | rfl | rfl | rfl | rfl | rfl
  · have := hnumber 100 8 0o600
    simp only [numberWrite] at this ⊢
    omega
  · have := hnumber 108 8 0
    simp only [numberWrite] at this ⊢
    omega
  · have := hnumber 116 8 0
    simp only [numberWrite] at this ⊢
    omega
  · have := hnumber 124 12 size
    simp only [numberWrite] at this ⊢
    exact ⟨by omega, by omega, .inl trivial⟩
  · have := hnumber 136 12 0
    simp only [numberWrite] at this ⊢
    omega
  · simp
  · decide
  · decide
  · decide
  · have := List.length_take_le 8
      (textBytes (numeral 8 6 (checksum (tarHeaderBase name size)) ++ ['\x00', ' ']))
    simp only at this ⊢
    omega

theorem allTarWrites_fit {name : String} {size : Nat} (h : tarHeaderValid name size = true) :
    WritesFit emptyBlock.length (allTarWrites name size) := by
  simp only [tarHeaderValid, Bool.and_eq_true, decide_eq_true_eq] at h
  obtain ⟨⟨⟨-, hname⟩, hlen⟩, -⟩ := h
  rw [length_emptyBlock]
  have htail := allTarWrites_range name size
  intro w hw
  rw [allTarWrites, tarWrites, List.cons_append, List.cons_append, List.mem_cons] at hw
  rcases hw with rfl | hw
  · rw [length_utf8_name hname]
    omega
  · exact (htail w hw).2.1

theorem tarHeaderValid_of_ok {name : String} {size : Nat} {header : Bytes}
    (h : checkpointTarHeader name size = .ok header) : tarHeaderValid name size = true := by
  by_contra hinvalid
  rw [checkpointTarHeader, if_neg hinvalid] at h
  contradiction

theorem checkpointTarHeader_length {name : String} {size : Nat} {header : Bytes}
    (h : checkpointTarHeader name size = .ok header) : header.length = 512 := by
  have hvalid := tarHeaderValid_of_ok h
  rw [checkpointTarHeader_eq hvalid, Except.ok.injEq] at h
  rw [← h, length_applyWrites (allTarWrites_fit hvalid), length_emptyBlock]

/-- Only the first write reaches below offset 100, so the name field is the
name and zeros. -/
theorem take_header {name : String} {size : Nat} (h : tarHeaderValid name size = true) :
    (applyWrites emptyBlock (allTarWrites name size)).take 100 =
      utf8 name ++ List.replicate (100 - (utf8 name).length) 0 := by
  have hfit := allTarWrites_fit h
  have hrange := allTarWrites_range name size
  simp only [tarHeaderValid, Bool.and_eq_true, decide_eq_true_eq] at h
  obtain ⟨⟨⟨-, hname⟩, hlen⟩, -⟩ := h
  have hcons : allTarWrites name size = (0, utf8 name) :: (allTarWrites name size).tail := rfl
  generalize (allTarWrites name size).tail = tail at hcons hrange
  rw [hcons] at hfit ⊢
  have hover : (overwrite emptyBlock 0 (utf8 name)).length = emptyBlock.length :=
    length_overwrite (hfit (0, utf8 name) (by simp))
  have hslice : slice (applyWrites (overwrite emptyBlock 0 (utf8 name)) tail) 0 100 =
      slice (overwrite emptyBlock 0 (utf8 name)) 0 100 :=
    slice_applyWrites_of_disjoint (fun w hw => hover ▸ hfit w (by simp [hw]))
      (fun w hw => .inl (by have := (hrange w hw).1; omega))
  simp only [slice, List.drop_zero] at hslice
  have hname' := length_utf8_name hname
  rw [applyWrites_cons, hslice, overwrite, List.take_zero, List.nil_append, Nat.zero_add,
    List.take_append, List.take_of_length_le (by omega), emptyBlock, List.drop_replicate,
    List.take_replicate]
  congr 2
  omega

/-- No write after the size reaches its field. -/
theorem slice_header {name : String} {size : Nat} (h : tarHeaderValid name size = true) :
    slice (applyWrites emptyBlock (allTarWrites name size)) 124 12 =
      (numeral 8 11 size ++ ['\x00']).map fun c => UInt8.ofNat c.toNat := by
  have hfit := allTarWrites_fit h
  simp only [tarHeaderValid, Bool.and_eq_true, decide_eq_true_eq] at h
  have hwrite := numberWrite_eq 124 (by omega : 1 < 12) (by omega : size < 8 ^ (12 - 1))
  have hsplit : allTarWrites name size = ((0, utf8 name) ::
      [numberWrite (100, 8, 0o600), numberWrite (108, 8, 0), numberWrite (116, 8, 0)]) ++
      (124, (numeral 8 11 size ++ ['\x00']).map fun c => UInt8.ofNat c.toNat) ::
      (allTarWrites name size).drop 5 := by
    rw [← hwrite]
    rfl
  have hafter : ∀ w ∈ (allTarWrites name size).drop 5, 136 ≤ w.1 := by
    intro w hw
    simp only [allTarWrites, tarWrites, tarNumbers, List.map_cons, List.map_nil, List.cons_append,
      List.nil_append, List.drop_succ_cons, List.drop_zero, List.mem_cons, List.not_mem_nil,
      or_false] at hw
    rcases hw with rfl | rfl | rfl | rfl | rfl | rfl <;> simp [numberWrite]
  have hdata : ((numeral 8 11 size ++ ['\x00']).map fun c => UInt8.ofNat c.toNat).length = 12 := by
    rw [List.length_map, List.length_append, length_numeral (by omega) (by omega) (by omega),
      List.length_singleton]
  generalize (allTarWrites name size).drop 5 = after at hsplit hafter
  rw [hsplit] at hfit ⊢
  have hself := slice_applyWrites_self hfit fun w hw => .inl (by have := hafter w hw; omega)
  rwa [hdata] at hself

/-- Reading the header of a name and a size gives them back. -/
theorem parseCheckpointTarHeader_header {name : String} {size : Nat}
    (h : tarHeaderValid name size = true) :
    parseCheckpointTarHeader (applyWrites emptyBlock (allTarWrites name size)) =
      .ok (name, size) := by
  have heq := checkpointTarHeader_eq h
  have hfirst := take_header h
  have hfield := slice_header h
  generalize applyWrites emptyBlock (allTarWrites name size) = header at heq hfirst hfield ⊢
  simp only [tarHeaderValid, Bool.and_eq_true, decide_eq_true_eq] at h
  obtain ⟨⟨⟨-, hname⟩, -⟩, hsize⟩ := h
  have hcount : (numeral 8 11 size).length = 11 := length_numeral (by omega) (by omega) (by omega)
  have hnameText : String.ofList (asciiText ((header.take 100).takeWhile (· ≠ 0))) = name := by
    rw [hfirst, takeWhile_utf8_name hname, utf8_name hname, asciiText_map fun c hc =>
      (isNameChar_ascii (List.all_eq_true.mp hname c hc)).2, String.ofList_toList]
  have hsizeText : asciiText (slice header 124 12) = numeral 8 11 size ++ ['\x00'] := by
    rw [hfield, asciiText_map]
    intro c hc
    rw [List.mem_append, List.mem_singleton] at hc
    rcases hc with hc | rfl
    · exact numeral_octal_ascii 11 size c hc
    · decide
  have htake : (numeral 8 11 size ++ ['\x00']).take 11 = numeral 8 11 size := List.take_left' hcount
  have hdrop : (numeral 8 11 size ++ ['\x00']).drop 11 = ['\x00'] := List.drop_left' hcount
  have hoctal : (numeral 8 11 size).all (fun c => '0' ≤ c && c ≤ '7') = true :=
    List.all_eq_true.mpr (forall_mem_numeral 11 size (by omega) (by decide))
  have hvalue : Nat.ofDigitChars 8 (numeral 8 11 size) 0 = size :=
    ofDigitChars_numeral (by omega) (by omega)
  simp only [parseCheckpointTarHeader, hnameText, hsizeText, htake, hdrop, hoctal,
    List.length_append, hcount, hvalue, heq, List.length_singleton, decide_true, Bool.and_self,
    if_true]

/-- **The header is canonical**: a block is read as a name and a size exactly
when it is the block the writer writes for them. -/
theorem parseCheckpointTarHeader_eq_ok {bytes : Bytes} {name : String} {size : Nat} :
    parseCheckpointTarHeader bytes = .ok (name, size) ↔
      checkpointTarHeader name size = .ok bytes := by
  constructor
  · intro h
    unfold parseCheckpointTarHeader at h
    simp only at h
    split at h
    · split at h
      · rename_i header hheader
        split at h
        · rename_i hbytes
          injection h with h
          obtain ⟨rfl, rfl⟩ := Prod.mk.injEq .. ▸ h
          rw [hheader, hbytes]
        · contradiction
      · contradiction
    · contradiction
  · intro h
    have hvalid := tarHeaderValid_of_ok h
    rw [checkpointTarHeader_eq hvalid, Except.ok.injEq] at h
    rw [← h, parseCheckpointTarHeader_header hvalid]

/-! ### Member names -/

theorem checkpointIndex_eq_ok {value : Nat} {index : String} :
    checkpointIndex value = .ok index ↔
      value ≤ MAX_SAFE_INTEGER ∧ index = String.ofList (numeral 16 16 value) := by
  unfold checkpointIndex
  split
  · constructor
    · intro h
      injection h with h
      exact ⟨‹_›, h.symm⟩
    · rintro ⟨-, rfl⟩
      rfl
  · constructor
    · intro h
      contradiction
    · rintro ⟨h, -⟩
      contradiction

theorem checkpointIndex_chars {value : Nat} {index : String} (h : checkpointIndex value = .ok index) :
    index.toList.length = 16 ∧ index.toList.all isNameChar = true := by
  obtain ⟨hvalue, rfl⟩ := checkpointIndex_eq_ok.mp h
  rw [String.toList_ofList]
  refine ⟨length_numeral (by omega) (by omega) ?_, ?_⟩
  · exact lt_of_le_of_lt hvalue (by decide)
  · exact List.all_eq_true.mpr (forall_mem_numeral 16 value (by omega) (by decide))

end PocketCoder.Checkpoints
