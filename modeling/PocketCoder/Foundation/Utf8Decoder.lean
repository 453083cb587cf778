import PocketCoder.Foundation.Bytes

/-!
The UTF-8 decoder of the Encoding standard, which reads one byte at a time and
replaces what is malformed: `new TextDecoder().decode(chunk, { stream: true })`
and `buffer.toString("utf8")`.

The decoder is a state machine, so it may stop after any byte:
`decode_append` and `TextDecoder.decode_append` say that a chunk may be cut
anywhere. `decodeLossy_utf8` reads an encoded string back.
-/

namespace PocketCoder.Foundation

/-- What the decoder knows of the code point that it is reading: the bytes that
are missing, the bits so far, and the bounds of the next byte. -/
structure Utf8State where
  needed : Nat
  codePoint : Nat
  lower : Nat
  upper : Nat
  deriving DecidableEq

namespace Utf8State

/-- Between two code points. -/
def ground : Utf8State := ⟨0, 0, 0x80, 0xbf⟩

def replacement : Char := '\ufffd'

/-- The first byte of a code point. -/
def first (b : Nat) : List Char × Utf8State :=
  if b ≤ 0x7f then ([Char.ofNat b], ground)
  else if 0xc2 ≤ b ∧ b ≤ 0xdf then ([], ⟨1, b - 0xc0, 0x80, 0xbf⟩)
  else if 0xe0 ≤ b ∧ b ≤ 0xef then
    ([], ⟨2, b - 0xe0, if b = 0xe0 then 0xa0 else 0x80, if b = 0xed then 0x9f else 0xbf⟩)
  else if 0xf0 ≤ b ∧ b ≤ 0xf4 then
    ([], ⟨3, b - 0xf0, if b = 0xf0 then 0x90 else 0x80, if b = 0xf4 then 0x8f else 0xbf⟩)
  else ([replacement], ground)

/-- One byte. A byte out of bounds ends the code point, and is read again. -/
def step (s : Utf8State) (byte : UInt8) : List Char × Utf8State :=
  let b := byte.toNat
  if s.needed = 0 then first b
  else if b < s.lower ∨ s.upper < b then (replacement :: (first b).1, (first b).2)
  else
    let codePoint := s.codePoint * 64 + (b - 0x80)
    if s.needed = 1 then ([Char.ofNat codePoint], ground)
    else ([], ⟨s.needed - 1, codePoint, 0x80, 0xbf⟩)

def decode (s : Utf8State) : Bytes → List Char × Utf8State
  | [] => ([], s)
  | b :: bs => ((s.step b).1 ++ (decode (s.step b).2 bs).1, (decode (s.step b).2 bs).2)

/-- What the end of the input adds. -/
def flush (s : Utf8State) : List Char := if s.needed = 0 then [] else [replacement]

theorem decode_append (s : Utf8State) (bytes bytes' : Bytes) :
    s.decode (bytes ++ bytes') =
      ((s.decode bytes).1 ++ ((s.decode bytes).2.decode bytes').1,
        ((s.decode bytes).2.decode bytes').2) := by
  induction bytes generalizing s with
  | nil => rfl
  | cons b bytes ih => simp only [List.cons_append, decode, ih, List.append_assoc]

/-! ### Well-formed input -/

theorem toNat_ofNat_byte {n : Nat} (h : n < 256) : (UInt8.ofNat n).toNat = n :=
  Nat.mod_eq_of_lt h

/-- Only the zero character has a zero byte. -/
theorem ne_zero_of_mem_utf8EncodeChar {c : Char} (h : c ≠ '\x00') {b : UInt8}
    (hb : b ∈ String.utf8EncodeChar c) : b ≠ 0 := by
  have hbyte : ∀ {n : Nat}, 0 < n → n < 256 → UInt8.ofNat n ≠ 0 := by
    intro n hpos hlt heq
    have := congrArg UInt8.toNat heq
    rw [toNat_ofNat_byte hlt] at this
    exact absurd this (by simp; omega)
  have hv : c.val.toNat ≠ 0 := fun hzero => h (Char.ext (UInt32.toNat_inj.mp hzero))
  rw [String.utf8EncodeChar] at hb
  split_ifs at hb <;> simp only [List.mem_cons, List.not_mem_nil, or_false] at hb
  · subst hb
    exact hbyte (by omega) (by omega)
  · rcases hb with rfl | rfl <;> exact hbyte (by omega) (by omega)
  · rcases hb with rfl | rfl | rfl <;> exact hbyte (by omega) (by omega)
  · rcases hb with rfl | rfl | rfl | rfl <;> exact hbyte (by omega) (by omega)

/-- A byte that continues a code point. -/
theorem step_continue {s : Utf8State} {b : Nat} (hb : b < 256) (hneeded : s.needed ≠ 0)
    (hlower : s.lower ≤ b) (hupper : b ≤ s.upper) :
    s.step (UInt8.ofNat b) =
      if s.needed = 1 then ([Char.ofNat (s.codePoint * 64 + (b - 0x80))], ground)
      else ([], ⟨s.needed - 1, s.codePoint * 64 + (b - 0x80), 0x80, 0xbf⟩) := by
  simp only [step, toNat_ofNat_byte hb]
  rw [if_neg hneeded, if_neg (by omega)]

theorem step_ground {b : Nat} (hb : b < 256) : ground.step (UInt8.ofNat b) = first b := by
  simp only [step, toNat_ofNat_byte hb]
  rfl

theorem decode_utf8EncodeChar (c : Char) :
    ground.decode (String.utf8EncodeChar c) = ([c], ground) := by
  obtain ⟨v, hv⟩ : ∃ v, v = c.val.toNat := ⟨_, rfl⟩
  have hc : Char.ofNat v = c := by
    rw [hv]
    exact Char.ofNat_toNat c
  have hvalid : v < 0xd800 ∨ 0xdfff < v ∧ v < 0x110000 := by
    rw [hv]
    exact c.valid
  rw [String.utf8EncodeChar]
  simp only [← hv]
  -- one case for each length of the encoding
  split_ifs with h1 h2 h3
  · simp only [decode, step_ground (show v < 256 by omega), first, if_pos h1, hc, List.append_nil]
  · have hfirst : first (v / 64 % 32 + 192) = ([], ⟨1, v / 64, 0x80, 0xbf⟩) := by
      rw [first, if_neg (by omega), if_pos (by omega),
        show v / 64 % 32 + 192 - 0xc0 = v / 64 by omega]
    simp only [decode]
    rw [step_ground (by omega), hfirst, step_continue (by omega) (by simp) (by simp) (by simp; omega)]
    simp only [if_true, List.nil_append, List.append_nil]
    rw [show v / 64 * 64 + (v % 64 + 128 - 128) = v by omega, hc]
  · have hfirst : first (v / 4096 % 16 + 224) = ([], ⟨2, v / 4096,
        if v / 4096 = 0 then 0xa0 else 0x80, if v / 4096 = 0xd then 0x9f else 0xbf⟩) := by
      rw [first, if_neg (by omega), if_neg (by omega), if_pos (by omega),
        show v / 4096 % 16 + 224 - 0xe0 = v / 4096 by omega]
      simp only [show v / 4096 % 16 + 224 = 0xe0 ↔ v / 4096 = 0 by omega,
        show v / 4096 % 16 + 224 = 0xed ↔ v / 4096 = 0xd by omega]
    simp only [decode]
    rw [step_ground (by omega), hfirst,
      step_continue (by omega) (by simp) (by dsimp only; split_ifs <;> omega)
        (by dsimp only; split_ifs <;> omega)]
    simp only [if_neg (show ¬2 = 1 by omega)]
    rw [step_continue (by omega) (by simp) (by simp) (by simp; omega)]
    simp only [if_true, List.nil_append, List.append_nil]
    rw [show (v / 4096 * 64 + (v / 64 % 64 + 128 - 128)) * 64 + (v % 64 + 128 - 128) = v by omega, hc]
  · have hfirst : first (v / 262144 % 8 + 240) = ([], ⟨3, v / 262144,
        if v / 262144 = 0 then 0x90 else 0x80, if v / 262144 = 4 then 0x8f else 0xbf⟩) := by
      rw [first, if_neg (by omega), if_neg (by omega), if_neg (by omega), if_pos (by omega),
        show v / 262144 % 8 + 240 - 0xf0 = v / 262144 by omega]
      simp only [show v / 262144 % 8 + 240 = 0xf0 ↔ v / 262144 = 0 by omega,
        show v / 262144 % 8 + 240 = 0xf4 ↔ v / 262144 = 4 by omega]
    simp only [decode]
    rw [step_ground (by omega), hfirst,
      step_continue (by omega) (by simp) (by dsimp only; split_ifs <;> omega)
        (by dsimp only; split_ifs <;> omega)]
    simp only [if_neg (show ¬3 = 1 by omega)]
    rw [step_continue (by omega) (by simp) (by simp) (by simp; omega)]
    simp only [if_neg (show ¬2 = 1 by omega)]
    rw [step_continue (by omega) (by simp) (by simp) (by simp; omega)]
    simp only [if_true, List.nil_append, List.append_nil]
    rw [show ((v / 262144 * 64 + (v / 4096 % 64 + 128 - 128)) * 64 + (v / 64 % 64 + 128 - 128)) * 64 +
      (v % 64 + 128 - 128) = v by omega, hc]

theorem decode_flatMap (cs : List Char) :
    ground.decode (cs.flatMap String.utf8EncodeChar) = (cs, ground) := by
  induction cs with
  | nil => rfl
  | cons c cs ih =>
      rw [List.flatMap_cons, decode_append, decode_utf8EncodeChar, ih]
      rfl

end Utf8State

/-- `buffer.toString("utf8")`. -/
def decodeLossy (bytes : Bytes) : String :=
  String.ofList ((Utf8State.ground.decode bytes).1 ++ (Utf8State.ground.decode bytes).2.flush)

theorem decodeLossy_utf8 (s : String) : decodeLossy (utf8 s) = s := by
  rw [decodeLossy, utf8, Utf8State.decode_flatMap]
  exact (congrArg String.ofList (List.append_nil _)).trans String.ofList_toList

/-! ### Streams -/

/-- A `TextDecoder` in the middle of its stream. -/
structure TextDecoder where
  utf8 : Utf8State
  /-- Whether a byte order mark could still come. -/
  bomSeen : Bool

namespace TextDecoder

def new : TextDecoder := ⟨.ground, false⟩

/-- A byte order mark at the start is dropped. -/
def serialize (bomSeen : Bool) : List Char → List Char × Bool
  | [] => ([], bomSeen)
  | c :: cs => (if !bomSeen && c = '\ufeff' then cs else c :: cs, true)

/-- `decoder.decode(chunk, { stream: true })`. -/
def decode (decoder : TextDecoder) (chunk : Bytes) : List Char × TextDecoder :=
  let (chars, utf8) := decoder.utf8.decode chunk
  let (text, bomSeen) := serialize decoder.bomSeen chars
  (text, ⟨utf8, bomSeen⟩)

/-- `decoder.decode()`, which ends the stream. -/
def finish (decoder : TextDecoder) : List Char :=
  (serialize decoder.bomSeen decoder.utf8.flush).1

theorem serialize_append (bomSeen : Bool) (cs cs' : List Char) :
    serialize bomSeen (cs ++ cs') =
      ((serialize bomSeen cs).1 ++ (serialize (serialize bomSeen cs).2 cs').1,
        (serialize (serialize bomSeen cs).2 cs').2) := by
  cases cs with
  | nil => rfl
  | cons c cs =>
      cases cs' with
      | nil => simp [serialize]
      | cons c' cs' =>
          simp only [List.cons_append, serialize, Bool.not_true, Bool.false_and, Bool.false_eq_true,
            if_false]
          split_ifs <;> rfl

/-- A chunk may be cut anywhere. -/
theorem decode_append (decoder : TextDecoder) (chunk chunk' : Bytes) :
    decoder.decode (chunk ++ chunk') =
      ((decoder.decode chunk).1 ++ ((decoder.decode chunk).2.decode chunk').1,
        ((decoder.decode chunk).2.decode chunk').2) := by
  simp only [decode, Utf8State.decode_append, serialize_append]

end TextDecoder

end PocketCoder.Foundation
