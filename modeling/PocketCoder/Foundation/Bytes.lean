import Mathlib.Data.List.Basic
import Mathlib.Algebra.Order.Ring.Nat

/-!
Byte strings and the few text encodings a byte format is made of: UTF-8,
hexadecimal digests, padded numerals, big-endian lengths, and writes into a
buffer of fixed size.

A buffer is a list of bytes that changes by `overwrite` only, and a format is
read back from it through `slice`. A layout is then a list of writes, and
`slice_applyWrites_self` reads any one of them back as long as the writes
after it lie elsewhere.
-/

namespace PocketCoder.Foundation

abbrev Bytes := List UInt8

/-! ### UTF-8 -/

/-- The UTF-8 encoding of a string, `Buffer.from(text)`. -/
def utf8 (s : String) : Bytes := s.toList.flatMap String.utf8EncodeChar

/-- The string a byte string encodes, if it is well-formed UTF-8. -/
def fromUtf8 (bytes : Bytes) : Option String := String.fromUTF8? bytes.toByteArray

/-- `new TextDecoder("utf-8", { fatal: true }).decode`: a leading byte order
mark is dropped, malformed input is refused. -/
def decodeText (bytes : Bytes) : Option String :=
  fromUtf8 (if bytes.take 3 = [0xef, 0xbb, 0xbf] then bytes.drop 3 else bytes)

theorem fromUtf8_utf8 (s : String) : fromUtf8 (utf8 s) = some s := by
  have hvalid : (utf8 s).toByteArray.IsValidUTF8 :=
    ByteArray.isValidUTF8_utf8Encode (l := s.toList)
  have hs : String.fromUTF8 (utf8 s).toByteArray hvalid = s := by
    rw [← String.toByteArray_inj]
    conv_rhs => rw [← String.ofList_toList (s := s)]
    rfl
  simp only [fromUtf8, String.fromUTF8?, dif_pos hvalid, hs]

@[simp] theorem utf8_ofList (cs : List Char) :
    utf8 (String.ofList cs) = cs.flatMap String.utf8EncodeChar := by
  simp [utf8]

/-- A character takes at most four bytes. -/
theorem length_utf8_le (cs : List Char) : (utf8 (String.ofList cs)).length ≤ 4 * cs.length := by
  rw [utf8_ofList]
  induction cs with
  | nil => exact Nat.le_refl _
  | cons c cs ih =>
      have hc := Char.utf8Size_le_four c
      rw [List.flatMap_cons, List.length_append, String.length_utf8EncodeChar, List.length_cons]
      omega

theorem getLast?_utf8 {cs : List Char} {c : Char} (h : cs.getLast? = some c) :
    (utf8 (String.ofList cs)).getLast? = (String.utf8EncodeChar c).getLast? := by
  obtain ⟨init, rfl⟩ := List.getLast?_eq_some_iff.mp h
  have hc : String.utf8EncodeChar c ≠ [] := by
    rw [← List.length_pos_iff, String.length_utf8EncodeChar]
    exact Char.utf8Size_pos c
  rw [utf8_ofList, List.flatMap_append, List.flatMap_singleton, List.getLast?_append]
  cases hlast : (String.utf8EncodeChar c).getLast? with
  | none => exact absurd (List.getLast?_eq_none_iff.mp hlast) hc
  | some b => rfl

/-- An ASCII character is one byte. -/
theorem utf8EncodeChar_ascii {c : Char} (h : c.toNat < 128) :
    String.utf8EncodeChar c = [UInt8.ofNat c.toNat] := by
  have hv : c.val.toNat ≤ 127 := by
    change c.toNat ≤ 127
    omega
  simp only [String.utf8EncodeChar, hv, if_true]
  rfl

theorem flatMap_utf8EncodeChar_ascii {cs : List Char} (h : ∀ c ∈ cs, c.toNat < 128) :
    cs.flatMap String.utf8EncodeChar = cs.map fun c => UInt8.ofNat c.toNat := by
  induction cs with
  | nil => rfl
  | cons c cs ih =>
      rw [List.flatMap_cons, utf8EncodeChar_ascii (h c (by simp)),
        ih fun d hd => h d (by simp [hd])]
      rfl

theorem utf8_ascii {s : String} (h : ∀ c ∈ s.toList, c.toNat < 128) :
    utf8 s = s.toList.map fun c => UInt8.ofNat c.toNat :=
  flatMap_utf8EncodeChar_ascii h

/-- Text that starts with an ASCII character has no byte order mark. -/
theorem decodeText_utf8 {c : Char} {cs : List Char} (h : c.toNat < 128) :
    decodeText (utf8 (String.ofList (c :: cs))) = some (String.ofList (c :: cs)) := by
  have hmark : (utf8 (String.ofList (c :: cs))).take 3 ≠ [0xef, 0xbb, 0xbf] := by
    rw [utf8_ofList, List.flatMap_cons, utf8EncodeChar_ascii h]
    intro heq
    have hhead := congrArg List.head? heq
    simp only [List.singleton_append, List.take_succ_cons, List.head?_cons, Option.some.injEq,
      ← UInt8.toNat_inj, UInt8.toNat_ofNat'] at hhead
    rw [Nat.mod_eq_of_lt (by omega)] at hhead
    change c.toNat = 239 at hhead
    omega
  rw [decodeText, if_neg hmark, fromUtf8_utf8]

/-! ### Numerals -/

/-- `text.padStart(width, "0")`. -/
def padStart (width : Nat) (cs : List Char) : List Char :=
  List.replicate (width - cs.length) '0' ++ cs

/-- `value.toString(base).padStart(width, "0")`. -/
def numeral (base width n : Nat) : List Char := padStart width (Nat.toDigits base n)

theorem length_numeral {base width n : Nat} (hb : 1 < base) (hw : 0 < width)
    (hn : n < base ^ width) : (numeral base width n).length = width := by
  have h := (Nat.length_toDigits_le_iff hb hw).mpr hn
  simp only [numeral, padStart, List.length_append, List.length_replicate]
  omega

theorem ofDigitChars_numeral {base width n : Nat} (hb : 1 < base) (hb' : base ≤ 10) :
    Nat.ofDigitChars base (numeral base width n) 0 = n := by
  rw [numeral, padStart, Nat.ofDigitChars_append, Nat.ofDigitChars_replicate_zero, Nat.mul_zero,
    Nat.ofDigitChars_toDigits hb hb']

/-- What a digit of base `b` satisfies, every character of a numeral does. -/
theorem forall_mem_numeral {base : Nat} (width n : Nat) {P : Char → Prop} (hb : 1 < base)
    (hP : ∀ d < base, P (Nat.digitChar d)) : ∀ c ∈ numeral base width n, P c := by
  have hdigits : ∀ c ∈ Nat.toDigits base n, P c := by
    induction n using Nat.strong_induction_on with
    | _ n ih =>
        intro c hc
        rw [Nat.toDigits_eq_if hb] at hc
        split at hc
        · rw [List.mem_singleton] at hc
          exact hc ▸ hP n ‹_›
        · rw [List.mem_append, List.mem_singleton] at hc
          rcases hc with hc | hc
          · exact ih (n / base) (Nat.div_lt_self (by omega) hb) c hc
          · exact hc ▸ hP (n % base) (Nat.mod_lt n (by omega))
  intro c hc
  rw [numeral, padStart, List.mem_append] at hc
  rcases hc with hc | hc
  · exact (List.mem_replicate.mp hc).2 ▸ hP 0 (by omega)
  · exact hdigits c hc

/-- Lower-case hexadecimal, two digits a byte. -/
def hex (bytes : Bytes) : String :=
  String.ofList (bytes.flatMap fun b => [Nat.digitChar (b.toNat / 16), Nat.digitChar (b.toNat % 16)])

theorem length_hex (bytes : Bytes) : (hex bytes).toList.length = 2 * bytes.length := by
  induction bytes with
  | nil => rfl
  | cons b bytes ih =>
      simp only [hex, String.toList_ofList, List.flatMap_cons, List.length_append,
        List.length_cons, List.length_nil] at ih ⊢
      omega

theorem forall_mem_hex (bytes : Bytes) {P : Char → Prop} (hP : ∀ d < 16, P (Nat.digitChar d)) :
    ∀ c ∈ (hex bytes).toList, P c := by
  intro c hc
  simp only [hex, String.toList_ofList, List.mem_flatMap, List.mem_cons, List.not_mem_nil,
    or_false] at hc
  obtain ⟨b, -, rfl | rfl⟩ := hc
  · exact hP _ (by have := b.toNat_lt; omega)
  · exact hP _ (Nat.mod_lt _ (by omega))

/-- `buffer.writeBigUInt64BE(BigInt(n))`. -/
def uint64BE (n : Nat) : Bytes :=
  (List.range 8).map fun i => UInt8.ofNat (n / 256 ^ (7 - i))

/-- `buffer.writeUInt32BE(n)`. -/
def uint32BE (n : Nat) : Bytes :=
  (List.range 4).map fun i => UInt8.ofNat (n / 256 ^ (3 - i))

/-- `buffer.readUInt32BE()` and `buffer.readBigUInt64BE()`. -/
def readUIntBE (bytes : Bytes) : Nat :=
  bytes.foldl (fun n byte => n * 256 + byte.toNat) 0

/-- The last byte is the lowest. -/
theorem readUIntBE_map_range (width n : Nat) :
    readUIntBE ((List.range width).map fun i => UInt8.ofNat (n / 256 ^ (width - 1 - i))) =
      n % 256 ^ width := by
  induction width generalizing n with
  | zero => simp [readUIntBE, Nat.mod_one]
  | succ width ih =>
      have hhigh : ((List.range width).map fun i => UInt8.ofNat (n / 256 ^ (width + 1 - 1 - i))) =
          (List.range width).map fun i => UInt8.ofNat (n / 256 / 256 ^ (width - 1 - i)) := by
        refine List.map_congr_left fun i hi => ?_
        have hexponent : width + 1 - 1 - i = width - 1 - i + 1 := by
          have := List.mem_range.mp hi
          omega
        rw [hexponent, Nat.pow_succ', Nat.div_div_eq_div_mul]
      have hlow : (UInt8.ofNat (n / 256 ^ (width + 1 - 1 - width))).toNat = n % 256 := by
        rw [Nat.add_sub_cancel, Nat.sub_self, Nat.pow_zero, Nat.div_one, UInt8.toNat_ofNat']
      rw [List.range_succ, List.map_append, hhigh, readUIntBE, List.foldl_append, ← readUIntBE, ih,
        List.map_singleton, List.foldl_cons, List.foldl_nil, hlow, Nat.pow_succ',
        Nat.mod_mul]
      omega

theorem readUIntBE_uint64BE {n : Nat} (h : n < 2 ^ 64) : readUIntBE (uint64BE n) = n := by
  have hread := readUIntBE_map_range 8 n
  rwa [Nat.mod_eq_of_lt (by omega)] at hread

theorem readUIntBE_uint32BE {n : Nat} (h : n < 2 ^ 32) : readUIntBE (uint32BE n) = n := by
  have hread := readUIntBE_map_range 4 n
  rwa [Nat.mod_eq_of_lt (by omega)] at hread

@[simp] theorem length_uint64BE (n : Nat) : (uint64BE n).length = 8 := rfl

@[simp] theorem length_uint32BE (n : Nat) : (uint32BE n).length = 4 := rfl

/-! ### Pieces -/

/-- A byte string cut into pieces of `n` bytes, the last one possibly shorter. -/
def chunksOf (n : Nat) (content : Bytes) : List Bytes :=
  if n = 0 ∨ content = [] then [] else content.take n :: chunksOf n (content.drop n)
termination_by content.length
decreasing_by
  have : 0 < content.length := List.length_pos_iff.mpr (by simp_all)
  rw [List.length_drop]
  omega

@[simp] theorem chunksOf_nil (n : Nat) : chunksOf n [] = [] := by
  rw [chunksOf, if_pos (.inr rfl)]

theorem chunksOf_of_ne_nil {n : Nat} {content : Bytes} (hn : 0 < n) (h : content ≠ []) :
    chunksOf n content = content.take n :: chunksOf n (content.drop n) := by
  rw [chunksOf, if_neg (not_or.mpr ⟨by omega, h⟩)]

/-- A loop that takes `min total n` of `total` bytes and goes on with the rest
cuts as `chunksOf` does. -/
theorem chunksOf_append {n total : Nat} {piece : Bytes} (rest : Bytes) (hn : 0 < n) (htotal : 0 < total)
    (hpiece : piece.length = min total n) (hrest : rest.length = total - piece.length) :
    chunksOf n (piece ++ rest) = piece :: chunksOf n rest := by
  have hne : piece ++ rest ≠ [] := by
    intro hnil
    have := congrArg List.length hnil
    simp only [List.length_append, List.length_nil] at this
    omega
  -- A piece shorter than `n` is the last one.
  have hcut : (piece ++ rest).take n = piece ∧ (piece ++ rest).drop n = rest := by
    rcases Nat.le_total total n with hle | hle
    · have hnil : rest = [] := List.eq_nil_of_length_eq_zero (by omega)
      rw [hnil, List.append_nil]
      exact ⟨List.take_of_length_le (by omega), List.drop_of_length_le (by omega)⟩
    · have hfull : piece.length = n := by omega
      exact ⟨List.take_left' hfull, List.drop_left' hfull⟩
  rw [chunksOf_of_ne_nil hn hne, hcut.1, hcut.2]

theorem flatten_chunksOf {n : Nat} (hn : 0 < n) (content : Bytes) :
    (chunksOf n content).flatten = content := by
  fun_induction chunksOf n content with
  | case1 content h =>
      rcases h with h | h
      · omega
      · exact h.symm
  | case2 content h ih => rw [List.flatten_cons, ih, List.take_append_drop]

/-! ### Buffers -/

/-- `buffer.write(data, offset)` inside the buffer. -/
def overwrite (buffer : Bytes) (offset : Nat) (data : Bytes) : Bytes :=
  buffer.take offset ++ data ++ buffer.drop (offset + data.length)

/-- `buffer.subarray(offset, offset + length)`. -/
def slice (buffer : Bytes) (offset length : Nat) : Bytes :=
  (buffer.drop offset).take length

/-- A piece of a byte string, cut out where it stands. -/
theorem slice_append {before piece : Bytes} (after : Bytes) :
    slice (before ++ piece ++ after) before.length piece.length = piece := by
  rw [slice, List.append_assoc, List.drop_left, List.take_left]

theorem length_overwrite {buffer data : Bytes} {offset : Nat}
    (h : offset + data.length ≤ buffer.length) :
    (overwrite buffer offset data).length = buffer.length := by
  simp only [overwrite, List.length_append, List.length_take, List.length_drop]
  omega

theorem slice_overwrite_self {buffer data : Bytes} {offset : Nat}
    (h : offset + data.length ≤ buffer.length) :
    slice (overwrite buffer offset data) offset data.length = data := by
  have htake : (buffer.take offset).length = offset := by
    rw [List.length_take]
    omega
  rw [slice, overwrite, List.append_assoc, List.drop_append_of_le_length (by omega),
    List.drop_of_length_le (by omega), List.nil_append, List.take_left]

theorem slice_overwrite_of_disjoint {buffer data : Bytes} {offset i n : Nat}
    (h : offset + data.length ≤ buffer.length) (hd : i + n ≤ offset ∨ offset + data.length ≤ i) :
    slice (overwrite buffer offset data) i n = slice buffer i n := by
  have htake : (buffer.take offset).length = offset := by
    rw [List.length_take]
    omega
  apply List.ext_getElem?
  intro k
  simp only [slice, overwrite, List.getElem?_take, List.getElem?_drop]
  split
  · rcases hd with hd | hd
    · rw [List.append_assoc, List.getElem?_append_left (by omega), List.getElem?_take,
        if_pos (by omega)]
    · rw [List.getElem?_append_right (by rw [List.length_append]; omega), List.getElem?_drop,
        List.length_append, htake]
      congr 1
      omega
  · rfl

/-- A sequence of writes, each an offset and the bytes written there. -/
def applyWrites (buffer : Bytes) (writes : List (Nat × Bytes)) : Bytes :=
  writes.foldl (fun b w => overwrite b w.1 w.2) buffer

theorem applyWrites_cons (buffer : Bytes) (w : Nat × Bytes) (writes : List (Nat × Bytes)) :
    applyWrites buffer (w :: writes) = applyWrites (overwrite buffer w.1 w.2) writes := rfl

theorem applyWrites_append (buffer : Bytes) (before after : List (Nat × Bytes)) :
    applyWrites buffer (before ++ after) = applyWrites (applyWrites buffer before) after :=
  List.foldl_append

/-- Every write stays inside a buffer of the given size. -/
def WritesFit (size : Nat) (writes : List (Nat × Bytes)) : Prop :=
  ∀ w ∈ writes, w.1 + w.2.length ≤ size

theorem length_applyWrites {buffer : Bytes} {writes : List (Nat × Bytes)}
    (h : WritesFit buffer.length writes) : (applyWrites buffer writes).length = buffer.length := by
  induction writes generalizing buffer with
  | nil => rfl
  | cons w writes ih =>
      have hlen := length_overwrite (h w (by simp))
      rw [applyWrites, List.foldl_cons]
      exact (ih fun v hv => hlen.symm ▸ h v (by simp [hv])).trans hlen

/-- Writes next to a slice do not change it. -/
theorem slice_applyWrites_of_disjoint {buffer : Bytes} {writes : List (Nat × Bytes)} {i n : Nat}
    (h : WritesFit buffer.length writes)
    (hd : ∀ w ∈ writes, i + n ≤ w.1 ∨ w.1 + w.2.length ≤ i) :
    slice (applyWrites buffer writes) i n = slice buffer i n := by
  induction writes generalizing buffer with
  | nil => rfl
  | cons w writes ih =>
      have hw := h w (by simp)
      have hlen := length_overwrite hw
      rw [applyWrites, List.foldl_cons]
      exact (ih (fun v hv => hlen.symm ▸ h v (by simp [hv])) fun v hv => hd v (by simp [hv])).trans
        (slice_overwrite_of_disjoint hw (hd w (by simp)))

/-- A write is read back when the writes after it lie elsewhere. -/
theorem slice_applyWrites_self {buffer data : Bytes} {before after : List (Nat × Bytes)}
    {offset : Nat} (h : WritesFit buffer.length (before ++ (offset, data) :: after))
    (hd : ∀ w ∈ after, offset + data.length ≤ w.1 ∨ w.1 + w.2.length ≤ offset) :
    slice (applyWrites buffer (before ++ (offset, data) :: after)) offset data.length = data := by
  have hbefore : (applyWrites buffer before).length = buffer.length :=
    length_applyWrites fun w hw => h w (by simp [hw])
  have hdata : offset + data.length ≤ (applyWrites buffer before).length :=
    hbefore.symm ▸ h (offset, data) (by simp)
  have hlen := length_overwrite hdata
  rw [applyWrites_append, applyWrites_cons, slice_applyWrites_of_disjoint (fun w hw => by
      rw [hlen, hbefore]
      exact h w (by simp [hw])) hd, slice_overwrite_self hdata]

theorem slice_add (buffer : Bytes) (offset m n : Nat) :
    slice buffer offset (m + n) = slice buffer offset m ++ slice buffer (offset + m) n := by
  rw [slice, slice, slice, List.take_add, List.drop_drop]

/-- A field of zeros that is written once holds the data, and zeros. -/
theorem slice_applyWrites_field {size offset width : Nat} {data : Bytes}
    {before after : List (Nat × Bytes)} (h : WritesFit size (before ++ (offset, data) :: after))
    (hwidth : data.length ≤ width) (hsize : offset + width ≤ size)
    (hd : ∀ w ∈ before ++ after, offset + width ≤ w.1 ∨ w.1 + w.2.length ≤ offset) :
    slice (applyWrites (List.replicate size 0) (before ++ (offset, data) :: after)) offset width =
      data ++ List.replicate (width - data.length) 0 := by
  rw [← List.length_replicate (n := size) (a := (0 : UInt8))] at h
  have hself := slice_applyWrites_self h fun w hw => by
    have := hd w (List.mem_append_right _ hw)
    omega
  have hrest : slice (applyWrites (List.replicate size 0) (before ++ (offset, data) :: after))
      (offset + data.length) (width - data.length) = List.replicate (width - data.length) 0 := by
    rw [slice_applyWrites_of_disjoint h, slice, List.drop_replicate, List.take_replicate,
      Nat.min_eq_left (by omega)]
    intro w hw
    rw [List.mem_append, List.mem_cons] at hw
    rcases hw with hw | rfl | hw
    · have := hd w (List.mem_append_left _ hw)
      omega
    · exact .inr (Nat.le_refl _)
    · have := hd w (List.mem_append_right _ hw)
      omega
  have hadd := slice_add (applyWrites (List.replicate size 0) (before ++ (offset, data) :: after))
    offset data.length (width - data.length)
  rwa [Nat.add_sub_cancel' hwidth, hself, hrest] at hadd

end PocketCoder.Foundation
