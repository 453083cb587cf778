import PocketCoder.Foundation.JsValues

/-!
Internet addresses: the blocks of addresses with a common prefix, and the texts
that `net.isIP` accepts.

An IPv4 text is four decimal numbers. An IPv6 text has up to eight groups of
hexadecimal digits; one `::` stands for the missing ones, the last two can be an
IPv4 address, and a zone can follow. Letters of either case are the same
(`ipv6Groups_toLowerCase`), and the first group is read off the front of the text
(`ipv6Groups_front`).
-/

namespace PocketCoder.Foundation

/-! ### Blocks -/

/-- The addresses of `width` bits that begin with the first `bits` of `base`. -/
def InBlock (width base bits value : Nat) : Prop :=
  value / 2 ^ (width - bits) = base / 2 ^ (width - bits)

instance (width base bits value : Nat) : Decidable (InBlock width base bits value) :=
  inferInstanceAs (Decidable (_ = _))

/-- What a mask without its last bits keeps. -/
theorem and_mask_inj {width : Nat} (a b : BitVec width) (free : Nat) :
    a &&& BitVec.allOnes width <<< free = b &&& BitVec.allOnes width <<< free ↔
      a.toNat / 2 ^ free = b.toNat / 2 ^ free := by
  rw [← Nat.shiftRight_eq_div_pow, ← Nat.shiftRight_eq_div_pow, ← BitVec.toNat_ushiftRight,
    ← BitVec.toNat_ushiftRight, BitVec.toNat_inj]
  constructor
  · intro h
    refine BitVec.eq_of_getLsbD_eq fun i hi => ?_
    have hbit := congrArg (BitVec.getLsbD · (free + i)) h
    rw [BitVec.getLsbD_ushiftRight, BitVec.getLsbD_ushiftRight]
    by_cases hlt : free + i < width
    · simpa [hlt, Nat.not_lt.mpr (Nat.le_add_right free i)] using hbit
    · rw [BitVec.getLsbD_of_ge _ _ (not_lt.mp hlt), BitVec.getLsbD_of_ge _ _ (not_lt.mp hlt)]
  · intro h
    refine BitVec.eq_of_getLsbD_eq fun i hi => ?_
    by_cases hfree : free ≤ i
    · have hbit := congrArg (BitVec.getLsbD · (i - free)) h
      rw [BitVec.getLsbD_ushiftRight, BitVec.getLsbD_ushiftRight,
        Nat.add_sub_cancel' hfree] at hbit
      simp [hbit]
    · simp [not_le.mp hfree]

namespace JsString

/-! ### Lower case -/

def lowerUnit (unit : UInt16) : UInt16 :=
  if 0x41 ≤ unit && unit ≤ 0x5a then unit + 0x20 else unit

/-- `toLowerCase` of an ASCII text. -/
def toLowerCase (text : JsString) : JsString := text.map lowerUnit

theorem lowerUnit_toNat (unit : UInt16) : (lowerUnit unit).toNat =
    if 0x41 ≤ unit.toNat ∧ unit.toNat ≤ 0x5a then unit.toNat + 0x20 else unit.toNat := by
  have hlt := unit.toNat_lt
  simp only [lowerUnit, Bool.and_eq_true, decide_eq_true_eq, UInt16.le_iff_toNat_le]
  split_ifs with hcase hcase' hcase'
  · rw [UInt16.toNat_add]
    exact Nat.mod_eq_of_lt (show unit.toNat + 32 < 65536 by have := hcase'.2; omega)
  · exact absurd hcase hcase'
  · exact absurd hcase' hcase
  · rfl

/-- A unit that is no letter. -/
def Caseless (unit : UInt16) : Prop := unit.toNat < 0x41

instance (unit : UInt16) : Decidable (Caseless unit) := inferInstanceAs (Decidable (_ < _))

theorem lowerUnit_eq_iff {unit other : UInt16} (h : Caseless other) :
    lowerUnit unit = other ↔ unit = other := by
  rw [Caseless] at h
  rw [← UInt16.toNat_inj, ← UInt16.toNat_inj, lowerUnit_toNat]
  split_ifs <;> omega

theorem toLowerCase_caseless {text : JsString} (h : ∀ unit ∈ text, Caseless unit) :
    toLowerCase text = text := by
  conv_rhs => rw [← List.map_id text]
  exact List.map_congr_left fun unit hunit => (lowerUnit_eq_iff (h unit hunit)).mpr rfl

theorem caseless_of_toLowerCase {text : JsString}
    (h : ∀ unit ∈ toLowerCase text, Caseless unit) : ∀ unit ∈ text, Caseless unit := by
  intro unit hunit
  have hlower := h _ (List.mem_map_of_mem (f := lowerUnit) hunit)
  rwa [← (lowerUnit_eq_iff hlower).mp rfl] at hlower

theorem toLowerCase_idem (text : JsString) : toLowerCase (toLowerCase text) = toLowerCase text := by
  rw [toLowerCase, toLowerCase, List.map_map]
  refine List.map_congr_left fun unit _ => ?_
  rw [Function.comp_apply, ← UInt16.toNat_inj, lowerUnit_toNat, lowerUnit_toNat]
  split_ifs <;> omega

/-! ### The texts of addresses -/

def colon : UInt16 := 0x3a

def dot : UInt16 := 0x2e

def percent : UInt16 := 0x25

/-- A number up to 255 without leading zeros. -/
def parseOctet (piece : JsString) : Option Nat :=
  let n := digitsValue piece
  if piece = decimal n ∧ n ≤ 255 then some n else none

/-- The number of an IPv4 address. -/
def parseV4 (text : JsString) : Option Nat :=
  match split dot text with
  | [first, second, third, fourth] => do
      some ((((← parseOctet first) * 256 + (← parseOctet second)) * 256 + (← parseOctet third)) * 256 +
        (← parseOctet fourth))
  | _ => none

/-- Up to four hexadecimal digits. -/
def parseGroup (piece : JsString) : Option Nat :=
  if piece = [] ∨ 4 < piece.length then none
  else piece.foldlM (fun n unit => (hexValue unit).map (n * 16 + ·)) 0

/-- The groups in front of `::`. -/
def frontGroups (pieces : List JsString) : Option (List Nat) := pieces.mapM parseGroup

/-- The groups up to the end; the last two can be an IPv4 address. -/
def backGroups : List JsString → Option (List Nat)
  | [] => some []
  | [last] =>
      match parseV4 last with
      | some value => some [value / 2 ^ 16, value % 2 ^ 16]
      | none => (parseGroup last).map ([·])
  | piece :: next :: pieces => do
      let group ← parseGroup piece
      (backGroups (next :: pieces)).map (group :: ·)

def pieces (text : JsString) : List JsString := if text = [] then [] else split colon text

/-- The texts in front of the first `::` and behind it. -/
def findDouble : JsString → Option (JsString × JsString)
  | unit :: next :: rest =>
      if unit = colon ∧ next = colon then some ([], rest)
      else (findDouble (next :: rest)).map fun parts => (unit :: parts.1, parts.2)
  | _ => none

/-- The eight groups of a text without a zone. -/
def bodyGroups (body : JsString) : Option (List Nat) :=
  match findDouble body with
  | none => do
      let groups ← backGroups (pieces body)
      if groups.length = 8 then some groups else none
  | some (before, after) => do
      let front ← frontGroups (pieces before)
      let back ← backGroups (pieces after)
      if front.length + back.length < 8 then
        some (front ++ List.replicate (8 - front.length - back.length) 0 ++ back)
      else none

def isZoneUnit (unit : UInt16) : Bool :=
  (0x30 ≤ unit && unit ≤ 0x3a) || (0x41 ≤ unit && unit ≤ 0x5a) || (0x61 ≤ unit && unit ≤ 0x7a) ||
    unit = 0x2d || unit = 0x2e

/-- The text in front of a zone. -/
def withoutZone (text : JsString) : Option JsString :=
  match text.dropWhile (· ≠ percent) with
  | [] => some text
  | _ :: zone =>
      if zone ≠ [] ∧ zone.all isZoneUnit = true then some (text.takeWhile (· ≠ percent)) else none

/-- The eight groups of an IPv6 address. -/
def ipv6Groups (text : JsString) : Option (List Nat) := (withoutZone text).bind bodyGroups

/-- The number of an IPv6 address. -/
def groupsValue (groups : List Nat) : Nat := groups.foldl (fun n group => n * 2 ^ 16 + group) 0

def isIP (text : JsString) : Nat :=
  if (parseV4 text).isSome then 4 else if (ipv6Groups text).isSome then 6 else 0

/-! ### Letters of either case -/

theorem hexValue_toNat (unit : UInt16) : hexValue unit =
    if 0x30 ≤ unit.toNat ∧ unit.toNat ≤ 0x39 then some (unit.toNat - 0x30)
    else if 0x61 ≤ unit.toNat ∧ unit.toNat ≤ 0x66 then some (unit.toNat - 0x57)
    else if 0x41 ≤ unit.toNat ∧ unit.toNat ≤ 0x46 then some (unit.toNat - 0x37)
    else none := by
  simp only [hexValue, Bool.and_eq_true, decide_eq_true_eq, UInt16.le_iff_toNat_le]
  congr 1
  refine ite_congr rfl (fun h => congrArg some ?_) fun _ => ?_
  · have hlower : 0x61 ≤ unit.toNat := h.1
    show unit.toNat - 0x61 + 10 = _
    omega
  · refine ite_congr rfl (fun h => congrArg some ?_) fun _ => rfl
    have hupper : 0x41 ≤ unit.toNat := h.1
    show unit.toNat - 0x41 + 10 = _
    omega

theorem hexValue_lowerUnit (unit : UInt16) : hexValue (lowerUnit unit) = hexValue unit := by
  rw [hexValue_toNat, hexValue_toNat, lowerUnit_toNat]
  grind

theorem hexDigit_toNat : ∀ n < 16, (hexDigit n).toNat = if n < 10 then 0x30 + n else 0x57 + n := by
  decide

/-- A digit in lower case. -/
theorem lowerUnit_of_hexValue {unit : UInt16} {n : Nat} (h : hexValue unit = some n) :
    n < 16 ∧ lowerUnit unit = hexDigit n := by
  rw [hexValue_toNat] at h
  have hlt : n < 16 := by grind
  refine ⟨hlt, UInt16.toNat_inj.mp ?_⟩
  rw [lowerUnit_toNat, hexDigit_toNat n hlt]
  grind

theorem parseGroup_toLowerCase (piece : JsString) :
    parseGroup (toLowerCase piece) = parseGroup piece := by
  simp only [parseGroup, toLowerCase, List.map_eq_nil_iff, List.length_map, List.foldlM_map,
    hexValue_lowerUnit]

theorem split_toLowerCase {separator : UInt16} (h : Caseless separator) (text : JsString) :
    split separator (toLowerCase text) = (split separator text).map toLowerCase := by
  induction text with
  | nil => rfl
  | cons unit text ih =>
      rw [toLowerCase, List.map_cons, split, split]
      rw [toLowerCase] at ih
      rw [ih]
      simp only [lowerUnit_eq_iff h]
      split_ifs
      · rfl
      · cases split separator text <;> rfl

theorem digit_decimal {n : Nat} {unit : UInt16} (h : unit ∈ decimal n) :
    0x30 ≤ unit.toNat ∧ unit.toNat ≤ 0x39 := by
  obtain ⟨c, hc, rfl⟩ := List.mem_map.mp h
  obtain ⟨hlower, hupper, hunit⟩ :=
    toNat_digit (Nat.isDigit_of_mem_toDigits (by decide) (by decide) hc)
  rw [hunit]
  exact ⟨hlower, hupper⟩

theorem parseOctet_eq_some {piece : JsString} {n : Nat} (h : parseOctet piece = some n) :
    digitsValue piece = n ∧ piece = decimal n ∧ n ≤ 255 := by
  rw [parseOctet, Option.ite_none_right_eq_some, Option.some.injEq] at h
  obtain ⟨hpiece, rfl⟩ := h
  exact ⟨rfl, hpiece⟩

/-- An IPv4 text is four numbers. -/
theorem parseV4_eq_some {text : JsString} {value : Nat} (h : parseV4 text = some value) :
    ∃ a b c d na nb nc nd, split dot text = [a, b, c, d] ∧ parseOctet a = some na ∧
      parseOctet b = some nb ∧ parseOctet c = some nc ∧ parseOctet d = some nd ∧
      value = ((na * 256 + nb) * 256 + nc) * 256 + nd := by
  rw [parseV4] at h
  split at h
  · rename_i a b c d hsplit
    simp only [Option.bind_eq_bind, Option.bind_eq_some_iff, Option.some.injEq] at h
    obtain ⟨na, ha, nb, hb, nc, hc, nd, hd, hvalue⟩ := h
    exact ⟨a, b, c, d, na, nb, nc, nd, hsplit, ha, hb, hc, hd, hvalue.symm⟩
  · cases h

/-- An IPv4 text has dots and digits. -/
theorem unit_of_parseV4 {text : JsString} (h : (parseV4 text).isSome = true) {unit : UInt16}
    (hunit : unit ∈ text) : unit = dot ∨ 0x30 ≤ unit.toNat ∧ unit.toNat ≤ 0x39 := by
  obtain ⟨value, hvalue⟩ := Option.isSome_iff_exists.mp h
  obtain ⟨a, b, c, d, na, nb, nc, nd, hsplit, ha, hb, hc, hd, -⟩ := parseV4_eq_some hvalue
  have hpiece : ∀ piece ∈ split dot text, ∃ n, piece = decimal n := by
    rw [hsplit]
    simp only [List.forall_mem_cons]
    exact ⟨⟨na, (parseOctet_eq_some ha).2.1⟩, ⟨nb, (parseOctet_eq_some hb).2.1⟩,
      ⟨nc, (parseOctet_eq_some hc).2.1⟩, ⟨nd, (parseOctet_eq_some hd).2.1⟩,
      fun _ hnil => absurd hnil List.not_mem_nil⟩
  have hmem := List.mem_cons_of_mem dot hunit
  rw [← flatMap_split, List.mem_flatMap] at hmem
  obtain ⟨piece, hin, hmem⟩ := hmem
  obtain ⟨n, rfl⟩ := hpiece piece hin
  rcases List.mem_cons.mp hmem with hdot | hmem
  · exact Or.inl hdot
  · exact Or.inr (digit_decimal hmem)

theorem caseless_of_parseV4 {text : JsString} (h : (parseV4 text).isSome = true) :
    ∀ unit ∈ text, Caseless unit := by
  intro unit hunit
  rcases unit_of_parseV4 h hunit with rfl | hdigit
  · exact by decide
  · exact Nat.lt_of_le_of_lt hdigit.2 (by decide)

/-- An IPv4 text has no colon and no zone. -/
theorem notMem_of_parseV4 {text : JsString} (h : (parseV4 text).isSome = true) {other : UInt16}
    (hdot : other ≠ dot) (hdigit : ¬(0x30 ≤ other.toNat ∧ other.toNat ≤ 0x39)) : other ∉ text := by
  intro hmem
  rcases unit_of_parseV4 h hmem with hunit | hunit
  · exact hdot hunit
  · exact hdigit hunit

theorem parseV4_lt {text : JsString} {value : Nat} (h : parseV4 text = some value) :
    value < 2 ^ 32 := by
  obtain ⟨a, b, c, d, na, nb, nc, nd, -, ha, hb, hc, hd, rfl⟩ := parseV4_eq_some h
  have ha' := (parseOctet_eq_some ha).2.2
  have hb' := (parseOctet_eq_some hb).2.2
  have hc' := (parseOctet_eq_some hc).2.2
  have hd' := (parseOctet_eq_some hd).2.2
  omega

theorem parseV4_toLowerCase (text : JsString) : parseV4 (toLowerCase text) = parseV4 text := by
  by_cases hlower : (parseV4 (toLowerCase text)).isSome = true
  · rw [toLowerCase_caseless (caseless_of_toLowerCase (caseless_of_parseV4 hlower))]
  · by_cases htext : (parseV4 text).isSome = true
    · rw [toLowerCase_caseless (caseless_of_parseV4 htext)]
    · rw [Option.not_isSome_iff_eq_none.mp hlower, Option.not_isSome_iff_eq_none.mp htext]

theorem backGroups_toLowerCase (pieces : List JsString) :
    backGroups (pieces.map toLowerCase) = backGroups pieces := by
  fun_induction backGroups pieces with
  | case1 => rfl
  | case2 last value hvalue =>
      rw [List.map_singleton, backGroups, parseV4_toLowerCase, hvalue]
  | case3 last hnone =>
      rw [List.map_singleton, backGroups, parseV4_toLowerCase, hnone, parseGroup_toLowerCase]
  | case4 piece next pieces ih =>
      rw [List.map_cons] at ih
      rw [List.map_cons, List.map_cons, backGroups, ih, parseGroup_toLowerCase]

theorem frontGroups_toLowerCase (pieces : List JsString) :
    frontGroups (pieces.map toLowerCase) = frontGroups pieces := by
  rw [frontGroups, List.mapM_map, frontGroups]
  exact congrArg (fun f => List.mapM f pieces) (funext parseGroup_toLowerCase)

theorem caseless_colon : Caseless colon := by decide

theorem pieces_toLowerCase (text : JsString) :
    pieces (toLowerCase text) = (pieces text).map toLowerCase := by
  rw [pieces, pieces, split_toLowerCase caseless_colon]
  simp only [toLowerCase, List.map_eq_nil_iff]
  split_ifs <;> rfl

theorem findDouble_toLowerCase (text : JsString) : findDouble (toLowerCase text) =
    (findDouble text).map fun parts => (toLowerCase parts.1, toLowerCase parts.2) := by
  fun_induction findDouble text with
  | case1 unit next rest hcolons =>
      simp only [toLowerCase, List.map_cons, findDouble, lowerUnit_eq_iff caseless_colon, if_pos hcolons]
      rfl
  | case2 unit next rest hcolons ih =>
      simp only [toLowerCase, List.map_cons] at ih
      simp only [toLowerCase, List.map_cons, findDouble, lowerUnit_eq_iff caseless_colon,
        if_neg hcolons, ih, Option.map_map]
      rfl
  | case3 text htext =>
      cases text with
      | nil => rfl
      | cons unit text =>
          cases text with
          | nil => rfl
          | cons next text => exact absurd rfl (htext unit next text)

theorem bodyGroups_toLowerCase (body : JsString) :
    bodyGroups (toLowerCase body) = bodyGroups body := by
  rw [bodyGroups, bodyGroups, findDouble_toLowerCase]
  cases findDouble body with
  | none => simp only [Option.map_none, pieces_toLowerCase, backGroups_toLowerCase]
  | some parts =>
      simp only [Option.map_some, pieces_toLowerCase, backGroups_toLowerCase,
        frontGroups_toLowerCase]

theorem isZoneUnit_lowerUnit (unit : UInt16) : isZoneUnit (lowerUnit unit) = isZoneUnit unit := by
  have hdash : Caseless 0x2d := by decide
  have hdot : Caseless 0x2e := by decide
  simp only [isZoneUnit, lowerUnit_eq_iff hdash, lowerUnit_eq_iff hdot, UInt16.le_iff_toNat_le,
    lowerUnit_toNat]
  rw [Bool.eq_iff_iff]
  simp only [Bool.or_eq_true, Bool.and_eq_true, decide_eq_true_eq]
  grind

theorem withoutZone_toLowerCase (text : JsString) :
    withoutZone (toLowerCase text) = (withoutZone text).map toLowerCase := by
  have hpercent : ((fun unit => decide (unit ≠ percent)) ∘ lowerUnit) =
      fun unit => decide (unit ≠ percent) :=
    funext fun unit => decide_eq_decide.mpr (lowerUnit_eq_iff (by decide)).not
  simp only [withoutZone, toLowerCase, List.dropWhile_map, List.takeWhile_map, hpercent]
  cases htext : text.dropWhile fun unit => decide (unit ≠ percent) with
  | nil => rfl
  | cons unit zone =>
      simp only [List.map_cons, ne_eq, List.map_eq_nil_iff, List.all_map]
      rw [show isZoneUnit ∘ lowerUnit = isZoneUnit from funext isZoneUnit_lowerUnit]
      split_ifs <;> rfl

theorem ipv6Groups_toLowerCase (text : JsString) :
    ipv6Groups (toLowerCase text) = ipv6Groups text := by
  rw [ipv6Groups, ipv6Groups, withoutZone_toLowerCase]
  cases withoutZone text with
  | none => rfl
  | some body => exact bodyGroups_toLowerCase body

/-! ### Groups -/

/-- A group is read from up to four digits. -/
theorem parseGroup_eq_some {piece : JsString} {group : Nat} (h : parseGroup piece = some group) :
    ∃ digits : List Nat, piece.map hexValue = digits.map some ∧ 1 ≤ digits.length ∧
      digits.length ≤ 4 ∧ group = digits.foldl (fun n digit => n * 16 + digit) 0 := by
  have hfold : ∀ (piece : JsString) (init : Nat),
      piece.foldlM (fun n unit => (hexValue unit).map (n * 16 + ·)) init = some group →
      ∃ digits : List Nat, piece.map hexValue = digits.map some ∧
        group = digits.foldl (fun n digit => n * 16 + digit) init := by
    intro piece
    induction piece with
    | nil =>
        intro init hinit
        exact ⟨[], rfl, (Option.some.inj hinit).symm⟩
    | cons unit piece ih =>
        intro init hinit
        rw [List.foldlM_cons, Option.bind_eq_bind, Option.bind_eq_some_iff] at hinit
        obtain ⟨next, hnext, hrest⟩ := hinit
        obtain ⟨digit, hdigit, rfl⟩ := Option.map_eq_some_iff.mp hnext
        obtain ⟨digits, hdigits, hgroup⟩ := ih _ hrest
        exact ⟨digit :: digits, by rw [List.map_cons, List.map_cons, hdigit, hdigits], hgroup⟩
  rw [parseGroup, Option.ite_none_left_eq_some, not_or] at h
  obtain ⟨⟨hnil, hlength⟩, hgroup⟩ := h
  obtain ⟨digits, hdigits, hvalue⟩ := hfold piece 0 hgroup
  have hlengths := congrArg List.length hdigits
  rw [List.length_map, List.length_map] at hlengths
  refine ⟨digits, hdigits, ?_, by omega, hvalue⟩
  rw [← hlengths]
  exact List.length_pos_of_ne_nil hnil

/-- The digits of a group in lower case. -/
theorem toLowerCase_of_digits {piece : JsString} {digits : List Nat}
    (h : piece.map hexValue = digits.map some) :
    toLowerCase piece = digits.map hexDigit ∧ ∀ digit ∈ digits, digit < 16 := by
  induction piece generalizing digits with
  | nil =>
      obtain rfl := List.map_eq_nil_iff.mp h.symm
      exact ⟨rfl, fun _ hnil => absurd hnil List.not_mem_nil⟩
  | cons unit piece ih =>
      cases digits with
      | nil => cases h
      | cons digit digits =>
          rw [List.map_cons, List.map_cons, List.cons.injEq] at h
          obtain ⟨hlt, hunit⟩ := lowerUnit_of_hexValue h.1
          obtain ⟨hpiece, hdigits⟩ := ih h.2
          rw [toLowerCase] at hpiece ⊢
          rw [List.map_cons, List.map_cons, hunit, hpiece]
          exact ⟨rfl, List.forall_mem_cons.mpr ⟨hlt, hdigits⟩⟩

theorem digits_lt {digits : List Nat} (h : ∀ digit ∈ digits, digit < 16) (init : Nat) :
    digits.foldl (fun n digit => n * 16 + digit) init < (init + 1) * 16 ^ digits.length := by
  induction digits generalizing init with
  | nil => simp
  | cons digit digits ih =>
      obtain ⟨hdigit, hdigits⟩ := List.forall_mem_cons.mp h
      rw [List.foldl_cons, List.length_cons, pow_succ', ← mul_assoc]
      refine Nat.lt_of_lt_of_le (ih hdigits _) (Nat.mul_le_mul_right _ ?_)
      omega

theorem parseGroup_lt {piece : JsString} {group : Nat} (h : parseGroup piece = some group) :
    group < 2 ^ 16 := by
  obtain ⟨digits, hdigits, -, hlength, rfl⟩ := parseGroup_eq_some h
  calc _ < (0 + 1) * 16 ^ digits.length := digits_lt (toLowerCase_of_digits hdigits).2 0
    _ ≤ 1 * 16 ^ 4 := Nat.mul_le_mul_left _ (Nat.pow_le_pow_right (by decide) hlength)
    _ = 2 ^ 16 := by decide

theorem frontGroups_eq_some {pieces : List JsString} {groups : List Nat}
    (h : frontGroups pieces = some groups) :
    List.Forall₂ (fun piece group => parseGroup piece = some group) pieces groups := by
  induction pieces generalizing groups with
  | nil =>
      rw [← Option.some.inj h]
      exact List.Forall₂.nil
  | cons piece pieces ih =>
      rw [frontGroups, List.mapM_cons] at h
      simp only [Option.bind_eq_bind, Option.bind_eq_some_iff, Option.pure_def,
        Option.some.injEq] at h
      obtain ⟨group, hgroup, others, hothers, rfl⟩ := h
      exact List.Forall₂.cons hgroup (ih hothers)

theorem frontGroups_lt {pieces : List JsString} {groups : List Nat}
    (h : frontGroups pieces = some groups) : ∀ group ∈ groups, group < 2 ^ 16 := by
  have hgroups := frontGroups_eq_some h
  clear h
  induction hgroups with
  | nil => exact fun _ hnil => absurd hnil List.not_mem_nil
  | cons hgroup hgroups ih => exact List.forall_mem_cons.mpr ⟨parseGroup_lt hgroup, ih⟩

theorem backGroups_lt {pieces : List JsString} {groups : List Nat}
    (h : backGroups pieces = some groups) : ∀ group ∈ groups, group < 2 ^ 16 := by
  fun_induction backGroups pieces generalizing groups with
  | case1 =>
      rw [← Option.some.inj h]
      exact fun _ hnil => absurd hnil List.not_mem_nil
  | case2 last value hvalue =>
      have hlt := parseV4_lt hvalue
      rw [← Option.some.inj h]
      simp only [List.forall_mem_cons]
      exact ⟨by omega, by omega, fun _ hnil => absurd hnil List.not_mem_nil⟩
  | case3 last hnone =>
      obtain ⟨group, hgroup, rfl⟩ := Option.map_eq_some_iff.mp h
      exact List.forall_mem_singleton.mpr (parseGroup_lt hgroup)
  | case4 piece next pieces ih =>
      rw [Option.bind_eq_bind, Option.bind_eq_some_iff] at h
      obtain ⟨group, hgroup, h⟩ := h
      obtain ⟨others, hothers, rfl⟩ := Option.map_eq_some_iff.mp h
      exact List.forall_mem_cons.mpr ⟨parseGroup_lt hgroup, ih hothers⟩

theorem backGroups_of_nil_mem {pieces : List JsString} (h : [] ∈ pieces) :
    backGroups pieces = none := by
  fun_induction backGroups pieces with
  | case1 => exact absurd h List.not_mem_nil
  | case2 last value hvalue =>
      obtain rfl := List.mem_singleton.mp h
      cases hvalue
  | case3 last hnone =>
      obtain rfl := List.mem_singleton.mp h
      rfl
  | case4 piece next pieces ih =>
      rcases List.mem_cons.mp h with rfl | h
      · rfl
      · rw [ih h]
        cases parseGroup piece <;> rfl

/-! ### The front of a text -/

theorem findDouble_eq_some {text before after : JsString}
    (h : findDouble text = some (before, after)) : text = before ++ colon :: colon :: after := by
  fun_induction findDouble text generalizing before with
  | case1 unit next rest hcolons =>
      obtain ⟨rfl, rfl⟩ := hcolons
      obtain ⟨rfl, rfl⟩ := Prod.mk.inj (Option.some.inj h)
      rfl
  | case2 unit next rest hcolons ih =>
      obtain ⟨⟨start, tail⟩, hparts, hpair⟩ := Option.map_eq_some_iff.mp h
      obtain ⟨rfl, rfl⟩ := Prod.mk.inj hpair
      rw [List.cons_append, ih hparts]
  | case3 => cases h

theorem split_append_cons (separator : UInt16) (front rest : JsString) :
    split separator (front ++ separator :: rest) = split separator front ++ split separator rest := by
  induction front with
  | nil => exact if_pos rfl
  | cons unit front ih =>
      rw [List.cons_append, split, split, ih]
      split_ifs
      · rfl
      · obtain ⟨first, others, hsplit⟩ := List.exists_cons_of_ne_nil (split_ne_nil separator front)
        rw [hsplit]
        rfl

/-- The first segment stands in front of the text. -/
theorem eq_append_of_split {separator : UInt16} {text first : JsString} {others : List JsString}
    (h : split separator text = first :: others) :
    text = first ++ others.flatMap (separator :: ·) := by
  have hall := flatMap_split separator text
  rw [h, List.flatMap_cons, List.cons_append, List.cons.injEq] at hall
  exact hall.2.symm

theorem flatMap_append_colon (others : List JsString) (rest : JsString) :
    ∃ tail, others.flatMap (colon :: ·) ++ colon :: rest = colon :: tail := by
  cases others with
  | nil => exact ⟨rest, rfl⟩
  | cons next others => exact ⟨_, rfl⟩

/-- A text begins with `::` and has the first group zero, or begins with its first group. -/
def BeginsWith (text : JsString) (group : Nat) : Prop :=
  (group = 0 ∧ ∃ rest, text = colon :: colon :: rest) ∨
    ∃ piece rest, text = piece ++ colon :: rest ∧ parseGroup piece = some group

theorem BeginsWith.append {body : JsString} {group : Nat} (h : BeginsWith body group)
    (zone : JsString) : BeginsWith (body ++ zone) group := by
  rcases h with ⟨hzero, rest, rfl⟩ | ⟨piece, rest, rfl, hpiece⟩
  · exact Or.inl ⟨hzero, rest ++ zone, rfl⟩
  · exact Or.inr ⟨piece, rest ++ zone, by rw [List.append_assoc]; rfl, hpiece⟩

/-- Eight groups, each of 16 bits, and the text begins with the first one. -/
structure Reads (text : JsString) (groups : List Nat) : Prop where
  length : groups.length = 8
  bound : ∀ group ∈ groups, group < 2 ^ 16
  front : ∃ group others, groups = group :: others ∧ BeginsWith text group

theorem bodyGroups_reads {body : JsString} {groups : List Nat}
    (h : bodyGroups body = some groups) : Reads body groups := by
  rw [bodyGroups] at h
  split at h
  · rw [Option.bind_eq_bind, Option.bind_eq_some_iff] at h
    obtain ⟨back, hback, h⟩ := h
    obtain ⟨hlength, hsome⟩ := Option.ite_none_right_eq_some.mp h
    obtain rfl := Option.some.inj hsome
    refine ⟨hlength, backGroups_lt hback, ?_⟩
    rw [pieces] at hback
    split_ifs at hback with hbody
    · rw [← Option.some.inj hback] at hlength
      cases hlength
    · obtain ⟨first, others, hsplit⟩ := List.exists_cons_of_ne_nil (split_ne_nil colon body)
      rw [hsplit] at hback
      cases others with
      | nil =>
          rw [backGroups] at hback
          split at hback
          · rw [← Option.some.inj hback] at hlength
            cases hlength
          · obtain ⟨group, -, rfl⟩ := Option.map_eq_some_iff.mp hback
            cases hlength
      | cons next others =>
          rw [backGroups, Option.bind_eq_bind, Option.bind_eq_some_iff] at hback
          obtain ⟨group, hgroup, hback⟩ := hback
          obtain ⟨rest, -, rfl⟩ := Option.map_eq_some_iff.mp hback
          exact ⟨group, rest, rfl, Or.inr ⟨first, _, eq_append_of_split hsplit, hgroup⟩⟩
  -- with `::` the groups on both sides are filled up to eight with zeros
  · rename_i before after hdouble
    simp only [Option.bind_eq_bind, Option.bind_eq_some_iff] at h
    obtain ⟨front, hfront, back, hback, h⟩ := h
    obtain ⟨hlt, hsome⟩ := Option.ite_none_right_eq_some.mp h
    obtain rfl := Option.some.inj hsome
    have hfronts := frontGroups_eq_some hfront
    refine ⟨?_, ?_, ?_⟩
    · rw [List.length_append, List.length_append, List.length_replicate]
      omega
    · intro group hgroup
      rcases List.mem_append.mp hgroup with hgroup | hgroup
      · rcases List.mem_append.mp hgroup with hgroup | hgroup
        · exact frontGroups_lt hfront group hgroup
        · rw [List.eq_of_mem_replicate hgroup]
          exact by decide
      · exact backGroups_lt hback group hgroup
    · have hbody := findDouble_eq_some hdouble
      rw [pieces] at hfronts
      -- nothing before the `::` means that the first group is zero
      split_ifs at hfronts with hbefore
      · cases hfronts
        refine ⟨0, List.replicate (7 - back.length) 0 ++ back, ?_, Or.inl ⟨rfl, after, ?_⟩⟩
        · rw [List.length_nil] at hlt ⊢
          rw [show 8 - 0 - back.length = (7 - back.length) + 1 by omega, List.replicate_succ]
          rfl
        · rw [hbody, hbefore]
          rfl
      · obtain ⟨first, others, hsplit⟩ := List.exists_cons_of_ne_nil (split_ne_nil colon before)
        rw [hsplit] at hfronts
        cases hfronts with
        | cons hgroup hothers =>
            obtain ⟨tail, htail⟩ := flatMap_append_colon others (colon :: after)
            refine ⟨_, _, rfl, Or.inr ⟨first, tail, ?_, hgroup⟩⟩
            rw [hbody, eq_append_of_split hsplit, List.append_assoc, htail]

theorem withoutZone_eq_some {text body : JsString} (h : withoutZone text = some body) :
    ∃ zone, text = body ++ zone := by
  rw [withoutZone] at h
  split at h
  · obtain rfl := Option.some.inj h
    exact ⟨[], (List.append_nil _).symm⟩
  · obtain ⟨-, hsome⟩ := Option.ite_none_right_eq_some.mp h
    obtain rfl := Option.some.inj hsome
    exact ⟨_, (List.takeWhile_append_dropWhile).symm⟩

theorem ipv6Groups_reads {text : JsString} {groups : List Nat}
    (h : ipv6Groups text = some groups) : Reads text groups := by
  obtain ⟨body, hbody, hgroups⟩ := Option.bind_eq_some_iff.mp h
  obtain ⟨zone, rfl⟩ := withoutZone_eq_some hbody
  obtain ⟨hlength, hbound, group, others, hcons, hfront⟩ := bodyGroups_reads hgroups
  exact ⟨hlength, hbound, group, others, hcons, hfront.append zone⟩

/-! ### An IPv4 address behind `::ffff:` -/

def mappedPrefix : JsString := ascii "::ffff:"

theorem withoutZone_append {front : JsString} (h : percent ∉ front) (rest : JsString) :
    withoutZone (front ++ rest) = (withoutZone rest).map (front ++ ·) := by
  have hfront : ∀ unit ∈ front, decide (unit ≠ percent) = true := fun unit hunit =>
    decide_eq_true fun hpercent => h (hpercent ▸ hunit)
  rw [withoutZone, withoutZone, List.dropWhile_append_of_pos hfront,
    List.takeWhile_append_of_pos hfront]
  split
  · rfl
  · split_ifs <;> rfl

theorem withoutZone_of_notMem {text : JsString} (h : percent ∉ text) :
    withoutZone text = some text := by
  have := withoutZone_append h []
  rw [List.append_nil] at this
  rw [this, withoutZone, List.dropWhile_nil, Option.map_some, List.append_nil]

/-- The groups behind `::ffff:`. -/
theorem ipv6Groups_mapped {rest : JsString} {groups : List Nat}
    (h : ipv6Groups (mappedPrefix ++ rest) = some groups) :
    ∃ body back, withoutZone rest = some body ∧ backGroups (split colon body) = some back ∧
      back.length < 7 ∧ groups = List.replicate (7 - back.length) 0 ++ 0xffff :: back := by
  rw [ipv6Groups, withoutZone_append (by decide +kernel), Option.bind_eq_some_iff] at h
  obtain ⟨whole, hwhole, h⟩ := h
  obtain ⟨body, hbody, rfl⟩ := Option.map_eq_some_iff.mp hwhole
  have hpieces : pieces (ascii "ffff:" ++ body) = ascii "ffff" :: split colon body := by
    rw [show ascii "ffff:" ++ body = ascii "ffff" ++ colon :: body from rfl, pieces,
      if_neg (List.append_ne_nil_of_right_ne_nil _ (List.cons_ne_nil _ _)),
      split_append (by decide +kernel)]
  obtain ⟨first, others, hsplit⟩ := List.exists_cons_of_ne_nil (split_ne_nil colon body)
  rw [show mappedPrefix ++ body = colon :: colon :: (ascii "ffff:" ++ body) from rfl, bodyGroups,
    findDouble, if_pos ⟨rfl, rfl⟩] at h
  simp only [Option.bind_eq_bind, Option.bind_eq_some_iff] at h
  obtain ⟨front, hfront, back, hback, h⟩ := h
  obtain rfl : [] = front := Option.some.inj hfront
  obtain ⟨hlt, hsome⟩ := Option.ite_none_right_eq_some.mp h
  rw [hpieces, hsplit, backGroups, Option.bind_eq_bind,
    show parseGroup (ascii "ffff") = some 0xffff by decide +kernel, Option.bind_some, ← hsplit] at hback
  obtain ⟨behind, hbehind, rfl⟩ := Option.map_eq_some_iff.mp hback
  rw [List.length_nil, List.length_cons] at hlt
  refine ⟨body, behind, hbody, hbehind, by omega, ?_⟩
  rw [← Option.some.inj hsome, List.length_nil, List.length_cons, List.nil_append,
    show 8 - 0 - (behind.length + 1) = 7 - behind.length by omega]

/-- The groups of an IPv4 address behind `::ffff:`. -/
theorem ipv6Groups_mapped_v4 {rest : JsString} {groups : List Nat} {value : Nat}
    (h : ipv6Groups (mappedPrefix ++ rest) = some groups) (hvalue : parseV4 rest = some value) :
    groups = [0, 0, 0, 0, 0, 0xffff, value / 2 ^ 16, value % 2 ^ 16] := by
  have hsome : (parseV4 rest).isSome = true := hvalue ▸ rfl
  obtain ⟨body, back, hbody, hback, -, rfl⟩ := ipv6Groups_mapped h
  rw [withoutZone_of_notMem (notMem_of_parseV4 hsome (by decide) (by decide))] at hbody
  obtain rfl := Option.some.inj hbody
  rw [split_single (notMem_of_parseV4 hsome (by decide) (by decide)), backGroups, hvalue] at hback
  rw [← Option.some.inj hback]
  rfl

/-- No IPv6 address is behind `::ffff:`. -/
theorem ipv6Groups_behind_mapped {rest : JsString} {groups : List Nat}
    (h : ipv6Groups (mappedPrefix ++ rest) = some groups) : ipv6Groups rest = none := by
  obtain ⟨body, back, hbody, hback, hlt, -⟩ := ipv6Groups_mapped h
  rw [ipv6Groups, hbody, Option.bind_some, bodyGroups]
  split
  · rw [pieces]
    split_ifs
    · rfl
    · rw [hback, Option.bind_eq_bind, Option.bind_some, if_neg (by omega)]
  · rename_i before after hdouble
    rw [findDouble_eq_some hdouble, split_append_cons, backGroups_of_nil_mem] at hback
    · cases hback
    · exact List.mem_append_right _ (by rw [split, if_pos rfl]; exact List.mem_cons_self)

end JsString

end PocketCoder.Foundation
