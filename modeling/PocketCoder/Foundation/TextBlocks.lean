import Mathlib.Data.List.Chain
import PocketCoder.Foundation.Utf8Decoder

/-!
Texts that arrive in pieces: line ends, and blocks that end with a blank line.

`readLineEnds` and `cutBlocks` read a whole buffer. `cutBlocks_readLineEnds`
says that a buffer may be read before more text comes: what is left over from
the first reading, together with the rest of the text, has the blocks that are
still missing. It needs that a carriage return only stands before a line feed,
since two readings may otherwise join what one reading keeps apart.
-/

namespace PocketCoder.Foundation

/-- `text.replaceAll("\r\n", "\n")`. -/
def readLineEnds : List Char → List Char
  | '\r' :: '\n' :: cs => '\n' :: readLineEnds cs
  | c :: cs => c :: readLineEnds cs
  | [] => []

/-- The text before the first blank line, and the text after it. -/
def cutBlock : List Char → Option (List Char × List Char)
  | '\n' :: '\n' :: cs => some ([], cs)
  | c :: cs => (cutBlock cs).map fun cut => (c :: cut.1, cut.2)
  | [] => none

/-! ### Blocks -/

theorem cutBlock_cons {c : Char} {cs : List Char} (h : c = '\n' → cs.head? ≠ some '\n') :
    cutBlock (c :: cs) = (cutBlock cs).map fun cut => (c :: cut.1, cut.2) := by
  rw [cutBlock.eq_def]
  split
  · rename_i cs' heq
    obtain ⟨rfl, rfl⟩ := List.cons_eq_cons.mp heq
    exact absurd rfl (h rfl)
  · rename_i heq
    obtain ⟨rfl, rfl⟩ := List.cons_eq_cons.mp heq
    rfl
  · rename_i heq
    cases heq

/-- A block starts here, or the first character belongs to one. -/
theorem blank_or_cons (c : Char) (cs : List Char) :
    (∃ cs', c = '\n' ∧ cs = '\n' :: cs') ∨ (c = '\n' → cs.head? ≠ some '\n') := by
  by_cases hblank : c = '\n' ∧ cs.head? = some '\n'
  · obtain ⟨rfl, hhead⟩ := hblank
    cases cs with
    | nil => cases hhead
    | cons d cs => exact .inl ⟨cs, rfl, by rw [Option.some.inj hhead]⟩
  · exact .inr fun hc hhead => hblank ⟨hc, hhead⟩

theorem eq_of_cutBlock {cs block rest : List Char} (h : cutBlock cs = some (block, rest)) :
    cs = block ++ '\n' :: '\n' :: rest := by
  induction cs generalizing block with
  | nil => cases h
  | cons c cs ih =>
      rcases blank_or_cons c cs with ⟨cs', rfl, rfl⟩ | hcons
      · obtain ⟨rfl, rfl⟩ := Prod.mk.inj (Option.some.inj h)
        rfl
      · rw [cutBlock_cons hcons, Option.map_eq_some_iff] at h
        obtain ⟨⟨block', rest'⟩, hcut, heq⟩ := h
        obtain ⟨rfl, rfl⟩ := Prod.mk.inj heq
        rw [ih hcut, List.cons_append]

theorem length_of_cutBlock {cs block rest : List Char} (h : cutBlock cs = some (block, rest)) :
    rest.length < cs.length := by
  rw [eq_of_cutBlock h, List.length_append, List.length_cons, List.length_cons]
  omega

/-- A block and its blank line, before any text. -/
theorem cutBlock_block {cs block rest : List Char} (h : cutBlock cs = some (block, rest))
    (more : List Char) : cutBlock (block ++ '\n' :: '\n' :: more) = some (block, more) := by
  induction cs generalizing block with
  | nil => cases h
  | cons c cs ih =>
      rcases blank_or_cons c cs with ⟨cs', rfl, rfl⟩ | hcons
      · obtain ⟨rfl, rfl⟩ := Prod.mk.inj (Option.some.inj h)
        rfl
      · rw [cutBlock_cons hcons, Option.map_eq_some_iff] at h
        obtain ⟨⟨block', rest'⟩, hcut, heq⟩ := h
        obtain ⟨rfl, rfl⟩ := Prod.mk.inj heq
        rw [List.cons_append, cutBlock_cons, ih hcut, Option.map_some]
        intro hc
        have hhead := hcons hc
        rw [eq_of_cutBlock hcut] at hhead
        cases block' with
        | nil => exact absurd rfl hhead
        | cons d block' => exact hhead

/-- A last character that is no line feed makes no blank line. -/
theorem cutBlock_concat {cs : List Char} {c : Char} (h : cutBlock cs = none) (hc : c ≠ '\n') :
    cutBlock (cs ++ [c]) = none := by
  induction cs with
  | nil => rw [List.nil_append, cutBlock_cons fun hn => absurd hn hc]; rfl
  | cons d cs ih =>
      rcases blank_or_cons d cs with ⟨cs', rfl, rfl⟩ | hcons
      · cases h
      · rw [cutBlock_cons hcons, Option.map_eq_none_iff] at h
        rw [List.cons_append, cutBlock_cons, ih h, Option.map_none]
        intro hd
        cases cs with
        | nil => exact fun heq => hc (Option.some.inj heq)
        | cons e cs => exact hcons hd

/-- Every block of a text, and what is left over:
`while (boundary >= 0) { …; buffer = buffer.slice(boundary + 2); … }`. -/
def cutBlocks (cs : List Char) : List (List Char) × List Char :=
  match _h : cutBlock cs with
  | none => ([], cs)
  | some (block, rest) => (block :: (cutBlocks rest).1, (cutBlocks rest).2)
termination_by cs.length
decreasing_by all_goals exact length_of_cutBlock _h

theorem cutBlocks_of_none {cs : List Char} (h : cutBlock cs = none) : cutBlocks cs = ([], cs) := by
  rw [cutBlocks]
  split
  · rfl
  · rename_i hcut
    rw [h] at hcut
    cases hcut

theorem cutBlocks_of_some {cs block rest : List Char} (h : cutBlock cs = some (block, rest)) :
    cutBlocks cs = (block :: (cutBlocks rest).1, (cutBlocks rest).2) := by
  rw [cutBlocks]
  split
  · rename_i hcut
    rw [h] at hcut
    cases hcut
  · rename_i hcut
    rw [h] at hcut
    obtain ⟨rfl, rfl⟩ := Prod.mk.inj (Option.some.inj hcut)
    rfl

/-- The blocks with their blank lines, and what is left over, are the text. -/
theorem flatMap_cutBlocks (cs : List Char) :
    ((cutBlocks cs).1.flatMap fun block => block ++ ['\n', '\n']) ++ (cutBlocks cs).2 = cs := by
  induction cs using cutBlocks.induct with
  | case1 cs hcut => rw [cutBlocks_of_none hcut]; rfl
  | case2 cs block rest hcut ih =>
      rw [cutBlocks_of_some hcut, List.flatMap_cons, List.append_assoc, ih, List.append_assoc]
      exact (eq_of_cutBlock hcut).symm

/-- Nothing that is left over is a block. -/
theorem cutBlock_rest (cs : List Char) : cutBlock (cutBlocks cs).2 = none := by
  induction cs using cutBlocks.induct with
  | case1 cs hcut => rwa [cutBlocks_of_none hcut]
  | case2 cs block rest hcut ih => rwa [cutBlocks_of_some hcut]

/-! ### Line ends -/

/-- A carriage return only stands before a line feed, or at the end. -/
def ReturnsPaired (cs : List Char) : Prop := cs.IsChain fun c d => c = '\r' → d = '\n'

/-- A carriage return only stands at the end. -/
def ReturnsLast (cs : List Char) : Prop := cs.IsChain fun c _ => c ≠ '\r'

theorem readLineEnds_cons {c : Char} {cs : List Char} (h : c = '\r' → cs.head? ≠ some '\n') :
    readLineEnds (c :: cs) = c :: readLineEnds cs := by
  rw [readLineEnds.eq_def]
  split
  · rename_i heq
    obtain ⟨rfl, rfl⟩ := List.cons_eq_cons.mp heq
    exact absurd rfl (h rfl)
  · rename_i heq
    obtain ⟨rfl, rfl⟩ := List.cons_eq_cons.mp heq
    rfl
  · rename_i heq
    cases heq

/-- The cases of a text with paired returns. -/
theorem ReturnsPaired.cases {c : Char} {cs : List Char} (h : ReturnsPaired (c :: cs)) :
    (∃ cs', c = '\r' ∧ cs = '\n' :: cs') ∨ (c = '\r' ∧ cs = []) ∨ c ≠ '\r' := by
  by_cases hc : c = '\r'
  · cases cs with
    | nil => exact .inr (.inl ⟨hc, rfl⟩)
    | cons d cs =>
        have hd := (List.isChain_cons_cons.mp h).1 hc
        exact .inl ⟨cs, hc, by rw [hd]⟩
  · exact .inr (.inr hc)

/-- Line ends may be read again when more text comes. -/
theorem readLineEnds_append {cs more : List Char} (h : ReturnsPaired cs) :
    readLineEnds (cs ++ more) = readLineEnds (readLineEnds cs ++ more) := by
  induction cs using readLineEnds.induct with
  | case1 cs ih =>
      have hline : ∀ cs', readLineEnds ('\n' :: cs') = '\n' :: readLineEnds cs' := fun cs' =>
        readLineEnds_cons fun h => absurd h (by decide)
      rw [List.cons_append, List.cons_append, readLineEnds, readLineEnds, List.cons_append, hline]
      exact congrArg _ (ih h.tail.tail)
  | case2 c cs hreturn ih =>
      rcases h.cases with ⟨cs', rfl, rfl⟩ | ⟨rfl, rfl⟩ | hc
      · exact absurd rfl (hreturn cs' rfl)
      · rfl
      · rw [List.cons_append, readLineEnds_cons fun h => absurd h hc,
          readLineEnds_cons fun h => absurd h hc, List.cons_append,
          readLineEnds_cons fun h => absurd h hc, ih h.tail]
  | case3 => rfl

theorem returnsLast_readLineEnds {cs : List Char} (h : ReturnsPaired cs) :
    ReturnsLast (readLineEnds cs) := by
  induction cs using readLineEnds.induct with
  | case1 cs ih =>
      rw [readLineEnds]
      exact List.isChain_cons.mpr ⟨fun _ _ => by decide, ih h.tail.tail⟩
  | case2 c cs hreturn ih =>
      rcases h.cases with ⟨cs', rfl, rfl⟩ | ⟨rfl, rfl⟩ | hc
      · exact absurd rfl (hreturn cs' rfl)
      · exact List.isChain_singleton _
      · rw [readLineEnds_cons fun h => absurd h hc]
        exact List.isChain_cons.mpr ⟨fun _ _ => hc, ih h.tail⟩
  | case3 => exact List.isChain_nil

theorem ReturnsLast.ne_return {cs more : List Char} (h : ReturnsLast (cs ++ more))
    (hmore : more ≠ []) : ∀ c ∈ cs, c ≠ '\r' := by
  induction cs with
  | nil => exact fun _ hc => (nomatch hc)
  | cons d cs ih =>
      obtain ⟨hd, hcs⟩ := List.isChain_cons.mp h
      intro c hc
      rcases List.mem_cons.mp hc with rfl | hc
      · cases hhead : (cs ++ more).head? with
        | none => exact absurd (List.append_eq_nil_iff.mp (List.head?_eq_none_iff.mp hhead)).2 hmore
        | some e => exact hd e hhead
      · exact ih hcs c hc

theorem readLineEnds_prefix {cs : List Char} (h : ∀ c ∈ cs, c ≠ '\r') (more : List Char) :
    readLineEnds (cs ++ more) = cs ++ readLineEnds more := by
  induction cs with
  | nil => rfl
  | cons c cs ih =>
      rw [List.cons_append, readLineEnds_cons fun hc => absurd hc (h c List.mem_cons_self),
        ih fun d hd => h d (List.mem_cons_of_mem _ hd), List.cons_append]

/-- A last character that is no line feed changes no line end. -/
theorem readLineEnds_concat {cs : List Char} {c : Char} (h : ReturnsLast cs) (hc : c ≠ '\n') :
    readLineEnds (cs ++ [c]) = cs ++ [c] := by
  induction cs with
  | nil => exact readLineEnds_cons fun _ => (nomatch ·)
  | cons d cs ih =>
      rw [List.cons_append, readLineEnds_cons, ih h.tail]
      rintro rfl hhead
      cases cs with
      | nil => exact hc (Option.some.inj hhead)
      | cons e cs => exact (List.isChain_cons_cons.mp h).1 rfl

/-- A buffer may be read before more text comes. -/
theorem cutBlocks_readLineEnds {cs : List Char} (h : ReturnsLast cs) (more : List Char) :
    cutBlocks (readLineEnds (cs ++ more)) =
      ((cutBlocks cs).1 ++ (cutBlocks (readLineEnds ((cutBlocks cs).2 ++ more))).1,
        (cutBlocks (readLineEnds ((cutBlocks cs).2 ++ more))).2) := by
  induction cs using cutBlocks.induct with
  | case1 cs hcut => rw [cutBlocks_of_none hcut]; rfl
  | case2 cs block rest hcut ih =>
      have heq := eq_of_cutBlock hcut
      have hlast : ReturnsLast ((block ++ ['\n', '\n']) ++ rest) := by
        rw [heq] at h
        rwa [List.append_assoc]
      have hreturn : ∀ c ∈ block ++ ['\n', '\n'], c ≠ '\r' := by
        intro c hc
        rcases List.mem_append.mp hc with hc | hc
        · exact (heq ▸ h).ne_return (List.cons_ne_nil _ _) c hc
        · rcases List.mem_cons.mp hc with rfl | hc
          · decide
          · rw [List.mem_singleton.mp hc]
            decide
      have hread : readLineEnds (cs ++ more) = block ++ '\n' :: '\n' :: readLineEnds (rest ++ more) := by
        rw [heq, List.append_assoc, List.cons_append, List.cons_append,
          show block ++ '\n' :: '\n' :: (rest ++ more) = (block ++ ['\n', '\n']) ++ (rest ++ more) by
            rw [List.append_assoc]; rfl,
          readLineEnds_prefix hreturn, List.append_assoc]
        rfl
      rw [hread, cutBlocks_of_some (cutBlock_block hcut _), cutBlocks_of_some hcut,
        ih hlast.right_of_append]
      rfl

/-! ### Line ends of decoded bytes -/

/-- Every carriage return is part of a carriage return and a line feed. -/
def PairedBytes (bytes : List UInt8) : Prop :=
  ∀ i : Nat, bytes[i]? = some 0x0d → bytes[i + 1]? = some 0x0a

instance (bytes : Bytes) : Decidable (PairedBytes bytes) :=
  decidable_of_iff (∀ i < bytes.length, bytes[i]? = some 0x0d → bytes[i + 1]? = some 0x0a)
    ⟨fun h i hi => h i (List.getElem?_eq_some_iff.mp hi).1 hi, fun h i _ => h i⟩

theorem PairedBytes.tail {b : UInt8} {bytes : Bytes} (h : PairedBytes (b :: bytes)) :
    PairedBytes bytes :=
  fun i hi => h (i + 1) hi

theorem PairedBytes.head {bytes : Bytes} (h : PairedBytes (0x0d :: bytes)) :
    ∃ rest, bytes = 0x0a :: rest := by
  have hnext := h 0 rfl
  cases bytes with
  | nil => cases hnext
  | cons b rest => exact ⟨rest, by rw [Option.some.inj hnext]⟩

theorem eq_toNat_of_ofNat {n : Nat} {c : Char} (h : Char.ofNat n = c) (hc : c ≠ '\x00') :
    n = c.toNat := by
  rw [Char.ofNat] at h
  by_cases hn : n.isValidChar
  · rw [dif_pos hn] at h
    rw [← h]
    rfl
  · rw [dif_neg hn] at h
    exact absurd h.symm hc

namespace Utf8State

/-- The code point that is being read is beyond the control characters. -/
def Large (s : Utf8State) : Prop := s.needed ≠ 0 → 0x90 ≤ s.codePoint * 64 + s.lower

theorem first_large (b : Nat) : (first b).2.Large := by
  rw [first]
  split_ifs <;> intro h
  · exact absurd rfl h
  all_goals first
    | exact absurd rfl h
    | (dsimp only; omega)

/-- A byte that a code point starts with. A carriage return is read at once. -/
theorem first_chars (b : Nat) :
    (first b).1 = [] ∨ ∃ c, (first b).1 = [c] ∧ (c = '\r' → b = 0x0d ∧ (first b).2 = ground) := by
  rw [first]
  split_ifs
  · exact .inr ⟨_, rfl, fun hc => ⟨eq_toNat_of_ofNat hc (by decide), rfl⟩⟩
  all_goals first
    | exact .inl rfl
    | exact .inr ⟨_, rfl, fun hc => absurd hc (by decide)⟩

theorem step_large {s : Utf8State} (h : s.Large) (byte : UInt8) : (s.step byte).2.Large := by
  rw [step]
  dsimp only
  split_ifs with hneeded hbounds hlast
  · exact first_large _
  · exact first_large _
  · exact fun h => absurd rfl h
  · intro _
    have hlarge := h hneeded
    dsimp only
    omega

/-- A carriage return is the last character that a byte gives, and the byte
itself. -/
theorem step_chars {s : Utf8State} (h : s.Large) (byte : UInt8) :
    ∃ before last, (s.step byte).1 = before ++ last.toList ∧ '\r' ∉ before ∧ before.length ≤ 1 ∧
      (last = some '\r' → byte = 0x0d ∧ (s.step byte).2 = ground) := by
  have hbyte : byte.toNat = 0x0d → byte = 0x0d := fun hb => UInt8.toNat_inj.mp hb
  have hfirst : ∃ last, (first byte.toNat).1 = Option.toList last ∧
      (last = some '\r' → byte = 0x0d ∧ (first byte.toNat).2 = ground) := by
    rcases first_chars byte.toNat with hnone | ⟨c, hc, hreturn⟩
    · exact ⟨none, hnone, fun h => (nomatch h)⟩
    · exact ⟨some c, hc, fun h => (hreturn (Option.some.inj h)).imp_left hbyte⟩
  obtain ⟨last, hlast, hreturn⟩ := hfirst
  rw [step]
  dsimp only
  split_ifs with hneeded hbounds hone
  · exact ⟨[], last, hlast, List.not_mem_nil, by simp, hreturn⟩
  · exact ⟨[replacement], last, by rw [hlast]; rfl, by decide, by simp, hreturn⟩
  · refine ⟨[], some _, rfl, List.not_mem_nil, by simp, fun hc => ?_⟩
    have hlarge := h hneeded
    have heq := eq_toNat_of_ofNat (Option.some.inj hc) (by decide)
    have hr : '\r'.toNat = 13 := rfl
    omega
  · exact ⟨[], none, rfl, List.not_mem_nil, by simp, fun h => (nomatch h)⟩

theorem returnsPaired_decode {s : Utf8State} {bytes : Bytes} (hs : s.Large)
    (h : PairedBytes bytes) : ReturnsPaired (s.decode bytes).1 := by
  induction bytes generalizing s with
  | nil => exact List.isChain_nil
  | cons b bytes ih =>
      obtain ⟨before, last, hchars, hbefore, hlength, hreturn⟩ := step_chars hs b
      have hrest := ih (step_large hs b) h.tail
      have hlast : ReturnsPaired (last.toList ++ ((s.step b).2.decode bytes).1) := by
        cases last with
        | none => exact hrest
        | some c =>
            refine List.isChain_cons.mpr ⟨fun d hd hc => ?_, hrest⟩
            obtain ⟨rfl, hground⟩ := hreturn (congrArg some hc)
            obtain ⟨rest, rfl⟩ := h.head
            rw [hground] at hd
            exact (Option.some.inj hd).symm
      rw [decode, hchars, List.append_assoc]
      cases before with
      | nil => exact hlast
      | cons c more =>
          obtain rfl : more = [] :=
            List.eq_nil_of_length_eq_zero (Nat.le_zero.mp (Nat.le_of_succ_le_succ hlength))
          refine List.isChain_cons.mpr ⟨fun d _ hd => absurd ?_ hbefore, hlast⟩
          rw [hd]
          exact List.mem_singleton_self _

end Utf8State

theorem TextDecoder.returnsPaired_decode {bytes : Bytes} (h : PairedBytes bytes) :
    ReturnsPaired (TextDecoder.new.decode bytes).1 := by
  have hchars : ReturnsPaired (Utf8State.ground.decode bytes).1 :=
    Utf8State.returnsPaired_decode (fun h => absurd rfl h) h
  show ReturnsPaired (serialize false (Utf8State.ground.decode bytes).1).1
  cases hdecode : (Utf8State.ground.decode bytes).1 with
  | nil => exact List.isChain_nil
  | cons c cs =>
      rw [hdecode] at hchars
      rw [serialize]
      dsimp only
      split_ifs
      · exact hchars.tail
      · exact hchars

end PocketCoder.Foundation
