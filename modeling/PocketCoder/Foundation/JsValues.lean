import PocketCoder.Foundation.JsObjects

/-!
The values of JSON as JavaScript has them, the text that `JSON.stringify`
writes for them, and `JSON.parse`.

Strings may have lone surrogates, objects have own properties in the order of
their enumeration, and the numbers are those of the platform (`JsNumbers`):
finite or not, with a zero below zero, and with a text that is read back.
`parse_text` says what `JSON.parse` makes of the text of a value.
-/

namespace PocketCoder.Foundation

/-! ### Numbers -/

/-- A digit or a minus sign. -/
def startsNumber (unit : UInt16) : Bool := unit = 0x2d || (0x30 ≤ unit && unit ≤ 0x39)

/-- A unit of a number literal: a digit, or one of `-`, `+`, `.`, `e`, `E`. -/
def inNumber (unit : UInt16) : Bool :=
  startsNumber unit || unit = 0x2b || unit = 0x2e || unit = 0x65 || unit = 0x45

/-- The numbers of the platform. -/
structure JsNumbers (ν : Type) where
  isFinite : ν → Bool
  /-- The number, with `0` for `-0`. -/
  unsigned : ν → ν
  /-- `Number.prototype.toString`. -/
  text : ν → JsString
  /-- The number of a literal. -/
  read : JsString → Option ν
  isFinite_unsigned : ∀ n, isFinite (unsigned n) = isFinite n
  text_unsigned : ∀ n, text (unsigned n) = text n
  text_starts : ∀ n, isFinite n = true → ((text n).head?.any startsNumber) = true
  text_literal : ∀ n, isFinite n = true → ∀ unit ∈ text n, inNumber unit = true
  /-- The text of a finite number is read as the number. -/
  read_text : ∀ n, isFinite n = true → read (text n) = some (unsigned n)

inductive JsValue (ν : Type) where
  | null
  | bool (b : Bool)
  | num (n : ν)
  | str (s : JsString)
  | arr (items : List (JsValue ν))
  | obj (properties : List (JsString × JsValue ν))

variable {ν : Type}

/-- A property of every value that the items of an array and the properties of
an object hand on. -/
theorem JsValue.induction {P : JsValue ν → Prop} (null : P .null) (bool : ∀ b, P (.bool b))
    (num : ∀ n, P (.num n)) (str : ∀ s, P (.str s))
    (arr : ∀ items, (∀ v ∈ items, P v) → P (.arr items))
    (obj : ∀ properties, (∀ property ∈ properties, P property.2) → P (.obj properties))
    (v : JsValue ν) : P v :=
  @JsValue.rec ν P (fun items => ∀ v ∈ items, P v)
    (fun properties => ∀ property ∈ properties, P property.2) (fun property => P property.2)
    null bool num str arr obj (by simp)
    (fun _ _ hv hvs => List.forall_mem_cons.mpr ⟨hv, hvs⟩) (by simp)
    (fun _ _ hproperty hproperties => List.forall_mem_cons.mpr ⟨hproperty, hproperties⟩)
    (fun _ _ h => h) v

/-! ### Strings -/

def isHighSurrogate (unit : UInt16) : Bool := 0xd800 ≤ unit && unit ≤ 0xdbff

def isLowSurrogate (unit : UInt16) : Bool := 0xdc00 ≤ unit && unit ≤ 0xdfff

def hexDigit (n : Nat) : UInt16 := UInt16.ofNat (Nat.digitChar n).toNat

/-- `\uXXXX`. -/
def unicodeEscape (unit : UInt16) : JsString :=
  let n := unit.toNat
  [0x5c, 0x75, hexDigit (n / 4096), hexDigit (n / 256 % 16), hexDigit (n / 16 % 16),
    hexDigit (n % 16)]

/-- A unit that is no part of a surrogate pair, as `JSON.stringify` writes it. -/
def escapeUnit (unit : UInt16) : JsString :=
  if unit = 0x22 then [0x5c, 0x22]
  else if unit = 0x5c then [0x5c, 0x5c]
  else if unit = 0x08 then [0x5c, 0x62]
  else if unit = 0x09 then [0x5c, 0x74]
  else if unit = 0x0a then [0x5c, 0x6e]
  else if unit = 0x0c then [0x5c, 0x66]
  else if unit = 0x0d then [0x5c, 0x72]
  else if unit < 0x20 || isHighSurrogate unit || isLowSurrogate unit then unicodeEscape unit
  else [unit]

/-- The units between the quotes; a surrogate pair stays as it is. -/
def escapeUnits : JsString → JsString
  | high :: low :: units =>
      if isHighSurrogate high && isLowSurrogate low then high :: low :: escapeUnits units
      else escapeUnit high ++ escapeUnits (low :: units)
  | [unit] => escapeUnit unit
  | [] => []

/-- `JSON.stringify` of a string. -/
def quoteUnits (s : JsString) : JsString := 0x22 :: (escapeUnits s ++ [0x22])

def hexValue (unit : UInt16) : Option Nat :=
  if 0x30 ≤ unit && unit ≤ 0x39 then some (unit.toNat - 0x30)
  else if 0x61 ≤ unit && unit ≤ 0x66 then some (unit.toNat - 0x61 + 10)
  else if 0x41 ≤ unit && unit ≤ 0x46 then some (unit.toNat - 0x41 + 10)
  else none

/-- The unit that a letter after a backslash stands for. -/
def unescapeUnit (unit : UInt16) : Option UInt16 :=
  if unit = 0x22 || unit = 0x5c || unit = 0x2f then some unit
  else if unit = 0x62 then some 0x08
  else if unit = 0x66 then some 0x0c
  else if unit = 0x6e then some 0x0a
  else if unit = 0x72 then some 0x0d
  else if unit = 0x74 then some 0x09
  else none

/-- A unit in front of a string that is being read. -/
def consUnit (unit : UInt16) (read : JsString × JsString) : JsString × JsString :=
  (unit :: read.1, read.2)

/-- The units of a string up to its closing quote. -/
def parseUnits : JsString → Option (JsString × JsString)
  | [] => none
  | 0x22 :: rest => some ([], rest)
  | 0x5c :: 0x75 :: a :: b :: c :: d :: rest => do
      let code := (← hexValue a) * 4096 + (← hexValue b) * 256 + (← hexValue c) * 16 + (← hexValue d)
      (parseUnits rest).map (consUnit (UInt16.ofNat code))
  | 0x5c :: letter :: rest => do
      let unit ← unescapeUnit letter
      (parseUnits rest).map (consUnit unit)
  | unit :: rest => if unit < 0x20 then none else (parseUnits rest).map (consUnit unit)

theorem hexValue_hexDigit : ∀ n < 16, hexValue (hexDigit n) = some n := by decide

theorem parseUnits_unicodeEscape (unit : UInt16) (rest : JsString) :
    parseUnits (unicodeEscape unit ++ rest) = (parseUnits rest).map (consUnit unit) := by
  have hunit : UInt16.ofNat unit.toNat = unit := UInt16.ofNat_toNat
  have hlt : unit.toNat < 65536 := unit.toNat_lt
  simp only [unicodeEscape, List.cons_append, List.nil_append, parseUnits,
    hexValue_hexDigit _ (show unit.toNat / 4096 < 16 by omega),
    hexValue_hexDigit _ (show unit.toNat / 256 % 16 < 16 by omega),
    hexValue_hexDigit _ (show unit.toNat / 16 % 16 < 16 by omega),
    hexValue_hexDigit _ (show unit.toNat % 16 < 16 by omega)]
  have hcode : unit.toNat / 4096 * 4096 + unit.toNat / 256 % 16 * 256 + unit.toNat / 16 % 16 * 16 +
      unit.toNat % 16 = unit.toNat := by
    omega
  show (parseUnits rest).map (consUnit (UInt16.ofNat _)) = _
  rw [hcode, hunit]

/-- A unit that is written as it is. -/
theorem parseUnits_plain {unit : UInt16} (rest : JsString) (hquote : unit ≠ 0x22)
    (hslash : unit ≠ 0x5c) (hcontrol : ¬unit < 0x20) :
    parseUnits (unit :: rest) = (parseUnits rest).map (consUnit unit) := by
  rw [parseUnits.eq_def]
  split <;> simp_all

theorem parseUnits_escapeUnit (unit : UInt16) (rest : JsString) :
    parseUnits (escapeUnit unit ++ rest) = (parseUnits rest).map (consUnit unit) := by
  rw [escapeUnit]
  split_ifs with h₁ h₂ h₃ h₄ h₅ h₆ h₇ h₈
  · subst h₁; simp [parseUnits, unescapeUnit]
  · subst h₂; simp [parseUnits, unescapeUnit]
  · subst h₃; simp [parseUnits, unescapeUnit]
  · subst h₄; simp [parseUnits, unescapeUnit]
  · subst h₅; simp [parseUnits, unescapeUnit]
  · subst h₆; simp [parseUnits, unescapeUnit]
  · subst h₇; simp [parseUnits, unescapeUnit]
  · exact parseUnits_unicodeEscape unit rest
  · refine parseUnits_plain rest h₁ h₂ fun hcontrol => h₈ ?_
    simp [hcontrol]

theorem parseUnits_escapeUnits (s rest : JsString) :
    parseUnits (escapeUnits s ++ 0x22 :: rest) = some (s, rest) := by
  induction s using escapeUnits.induct with
  | case1 high low units hpair ih =>
      rw [escapeUnits, if_pos hpair, List.cons_append, List.cons_append]
      rw [Bool.and_eq_true, isHighSurrogate, isLowSurrogate, Bool.and_eq_true, Bool.and_eq_true,
        decide_eq_true_eq, decide_eq_true_eq, decide_eq_true_eq, decide_eq_true_eq] at hpair
      obtain ⟨⟨hhigh, -⟩, ⟨hlow, -⟩⟩ := hpair
      have hplain : ∀ {unit : UInt16}, 0xd800 ≤ unit →
          unit ≠ 0x22 ∧ unit ≠ 0x5c ∧ ¬unit < 0x20 := by
        intro unit hunit
        rw [UInt16.le_iff_toNat_le] at hunit
        refine ⟨?_, ?_, ?_⟩
        · rintro rfl
          exact absurd hunit (by decide)
        · rintro rfl
          exact absurd hunit (by decide)
        · rw [UInt16.lt_iff_toNat_lt]
          have : (0xd800 : UInt16).toNat = 55296 := rfl
          have : (0x20 : UInt16).toNat = 32 := rfl
          omega
      obtain ⟨hq, hs, hc⟩ := hplain hhigh
      obtain ⟨hq', hs', hc'⟩ := hplain (UInt16.le_trans (by decide) hlow)
      rw [parseUnits_plain _ hq hs hc, parseUnits_plain _ hq' hs' hc', ih]
      rfl
  | case2 high low units hpair ih =>
      rw [escapeUnits, if_neg hpair, List.append_assoc, parseUnits_escapeUnit, ih]
      rfl
  | case3 unit =>
      rw [escapeUnits, parseUnits_escapeUnit, parseUnits]
      rfl
  | case4 => rw [escapeUnits, List.nil_append, parseUnits]

namespace JsValue

variable (N : JsNumbers ν)

/-! ### Text -/

/-- The texts after the first one, with their commas and the closing unit. -/
def encloseRest (close : UInt16) : List JsString → JsString
  | [] => [close]
  | text :: texts => 0x2c :: (text ++ encloseRest close texts)

/-- Texts between commas, and the closing unit. -/
def enclose (close : UInt16) : List JsString → JsString
  | [] => [close]
  | text :: texts => text ++ encloseRest close texts

mutual

/-- `JSON.stringify(value)`: no white space, and `null` for a number that is
not finite. -/
def text : JsValue ν → JsString
  | .null => [0x6e, 0x75, 0x6c, 0x6c]
  | .bool true => [0x74, 0x72, 0x75, 0x65]
  | .bool false => [0x66, 0x61, 0x6c, 0x73, 0x65]
  | .num n => if N.isFinite n then N.text n else [0x6e, 0x75, 0x6c, 0x6c]
  | .str s => quoteUnits s
  | .arr items => 0x5b :: enclose 0x5d (itemTexts items)
  | .obj properties => 0x7b :: enclose 0x7d (propertyTexts properties)

def itemTexts : List (JsValue ν) → List JsString
  | [] => []
  | v :: vs => text v :: itemTexts vs

def propertyTexts : List (JsString × JsValue ν) → List JsString
  | [] => []
  | (key, v) :: properties => (quoteUnits key ++ 0x3a :: text v) :: propertyTexts properties

end

/-! ### Reading -/

/-- White space of JSON. -/
def isSpace (unit : UInt16) : Bool :=
  unit = 0x20 || unit = 0x09 || unit = 0x0a || unit = 0x0d

def skip (cs : JsString) : JsString := cs.dropWhile isSpace

def parseNumber (cs : JsString) : Option (JsValue ν × JsString) :=
  (N.read (cs.takeWhile inNumber)).map fun n => (.num n, cs.dropWhile inNumber)

/-- An object with the properties of a text: of two with one key, the later one. -/
def build (properties : List (JsString × JsValue ν)) : List (JsString × JsValue ν) :=
  properties.foldl (fun object property => ownSet property.1 property.2 object) []

mutual

/-- A value at the start of the text, and the text after it. -/
def parseValue : Nat → JsString → Option (JsValue ν × JsString)
  | 0, _ => none
  | fuel + 1, cs =>
      match skip cs with
      | 0x6e :: 0x75 :: 0x6c :: 0x6c :: rest => some (.null, rest)
      | 0x74 :: 0x72 :: 0x75 :: 0x65 :: rest => some (.bool true, rest)
      | 0x66 :: 0x61 :: 0x6c :: 0x73 :: 0x65 :: rest => some (.bool false, rest)
      | 0x22 :: rest => (parseUnits rest).map fun read => (.str read.1, read.2)
      | 0x5b :: rest => (parseItems fuel true rest).map fun read => (.arr read.1, read.2)
      | 0x7b :: rest => (parseProperties fuel true rest).map fun read => (.obj (build read.1), read.2)
      | cs => parseNumber N cs

/-- The items of an array; a comma is in front of each but the first. -/
def parseItems : Nat → Bool → JsString → Option (List (JsValue ν) × JsString)
  | 0, _, _ => none
  | fuel + 1, first, cs =>
      match first, skip cs with
      | _, 0x5d :: rest => some ([], rest)
      | false, 0x2c :: rest => parseItem fuel rest
      | true, rest => parseItem fuel rest
      | false, _ => none

def parseItem : Nat → JsString → Option (List (JsValue ν) × JsString)
  | 0, _ => none
  | fuel + 1, cs => do
      let (v, rest) ← parseValue fuel cs
      let (vs, rest) ← parseItems fuel false rest
      some (v :: vs, rest)

def parseProperties : Nat → Bool → JsString → Option (List (JsString × JsValue ν) × JsString)
  | 0, _, _ => none
  | fuel + 1, first, cs =>
      match first, skip cs with
      | _, 0x7d :: rest => some ([], rest)
      | false, 0x2c :: rest => parseProperty fuel (skip rest)
      | true, rest => parseProperty fuel rest
      | false, _ => none

def parseProperty : Nat → JsString → Option (List (JsString × JsValue ν) × JsString)
  | fuel + 1, 0x22 :: cs => do
      let (key, rest) ← parseUnits cs
      match skip rest with
      | 0x3a :: rest => do
          let (v, rest) ← parseValue fuel rest
          let (properties, rest) ← parseProperties fuel false rest
          some ((key, v) :: properties, rest)
      | _ => none
  | _, _ => none

end

/-- `JSON.parse(text)`; none where it throws. Two calls a level take a unit. -/
def parse (cs : JsString) : Option (JsValue ν) :=
  match parseValue N (3 * cs.length + 3) cs with
  | some (v, rest) => if skip rest = [] then some v else none
  | none => none

/-! ### What is read back -/

mutual

/-- The value that the text of a value stands for. -/
def shown : JsValue ν → JsValue ν
  | .num n => if N.isFinite n then .num (N.unsigned n) else .null
  | .arr items => .arr (shownItems items)
  | .obj properties => .obj (shownProperties properties)
  | v => v

def shownItems : List (JsValue ν) → List (JsValue ν)
  | [] => []
  | v :: vs => shown v :: shownItems vs

def shownProperties : List (JsString × JsValue ν) → List (JsString × JsValue ν)
  | [] => []
  | (key, v) :: properties => (key, shown v) :: shownProperties properties

end

mutual

/-- The keys of every object have the property. -/
def Objects (P : List JsString → Prop) : JsValue ν → Prop
  | .arr items => ItemsObjects P items
  | .obj properties => P (keys properties) ∧ PropertiesObjects P properties
  | _ => True

def ItemsObjects (P : List JsString → Prop) : List (JsValue ν) → Prop
  | [] => True
  | v :: vs => Objects P v ∧ ItemsObjects P vs

def PropertiesObjects (P : List JsString → Prop) : List (JsString × JsValue ν) → Prop
  | [] => True
  | (_, v) :: properties => Objects P v ∧ PropertiesObjects P properties

end

/-- Every object enumerates its properties in order. -/
def Ordered (v : JsValue ν) : Prop := v.Objects (List.Pairwise Enumerates)

/-- No object has two properties with one key. -/
def Distinct (v : JsValue ν) : Prop := v.Objects List.Nodup

variable {N}

theorem shownItems_eq (items : List (JsValue ν)) : shownItems N items = items.map (shown N) := by
  induction items with
  | nil => rfl
  | cons v vs ih => exact congrArg _ ih

theorem itemTexts_eq (items : List (JsValue ν)) : itemTexts N items = items.map (text N) := by
  induction items with
  | nil => rfl
  | cons v vs ih => exact congrArg _ ih

theorem propertyTexts_eq (properties : List (JsString × JsValue ν)) :
    propertyTexts N properties =
      (mapValues (text N) properties).map fun property => quoteUnits property.1 ++ 0x3a :: property.2 := by
  induction properties with
  | nil => rfl
  | cons property properties ih => exact congrArg _ ih

theorem itemsObjects_iff {P : List JsString → Prop} {items : List (JsValue ν)} :
    ItemsObjects P items ↔ ∀ v ∈ items, Objects P v := by
  induction items with
  | nil => simp [ItemsObjects]
  | cons v vs ih => rw [ItemsObjects, ih, List.forall_mem_cons]

theorem propertiesObjects_iff {P : List JsString → Prop}
    {properties : List (JsString × JsValue ν)} :
    PropertiesObjects P properties ↔ ∀ property ∈ properties, Objects P property.2 := by
  induction properties with
  | nil => simp [PropertiesObjects]
  | cons property properties ih => rw [PropertiesObjects, ih, List.forall_mem_cons]

theorem shownProperties_eq (properties : List (JsString × JsValue ν)) :
    shownProperties N properties = mapValues (shown N) properties := by
  induction properties with
  | nil => rfl
  | cons property properties ih => exact congrArg _ ih

/-- The text that may follow a number. -/
def Follows (rest : JsString) : Prop := ∀ unit ∈ rest.head?, inNumber unit = false

theorem startsNumber_cases {unit : UInt16} (h : startsNumber unit = true) :
    isSpace unit = false ∧ unit ≠ 0x5d ∧ unit ≠ 0x6e ∧ unit ≠ 0x74 ∧ unit ≠ 0x66 ∧ unit ≠ 0x22 ∧
      unit ≠ 0x5b ∧ unit ≠ 0x7b := by
  have hbound : unit.toNat = 0x2d ∨ 0x30 ≤ unit.toNat ∧ unit.toNat ≤ 0x39 := by
    rw [startsNumber, Bool.or_eq_true, Bool.and_eq_true, decide_eq_true_eq, decide_eq_true_eq,
      decide_eq_true_eq, UInt16.le_iff_toNat_le, UInt16.le_iff_toNat_le] at h
    exact h.imp_left (congrArg UInt16.toNat)
  have hne : ∀ {n : Nat}, n < 65536 → (n < 0x2d ∨ 0x39 < n) → unit ≠ UInt16.ofNat n := by
    rintro n hn hout rfl
    rw [UInt16.toNat_ofNat_of_lt' hn] at hbound
    omega
  have hspace : isSpace unit = false := by
    simp only [isSpace, Bool.or_eq_false_iff, decide_eq_false_iff_not]
    exact ⟨⟨⟨hne (n := 0x20) (by omega) (by omega), hne (n := 0x09) (by omega) (by omega)⟩,
      hne (n := 0x0a) (by omega) (by omega)⟩, hne (n := 0x0d) (by omega) (by omega)⟩
  exact ⟨hspace, hne (n := 0x5d) (by omega) (by omega), hne (n := 0x6e) (by omega) (by omega),
    hne (n := 0x74) (by omega) (by omega), hne (n := 0x66) (by omega) (by omega),
    hne (n := 0x22) (by omega) (by omega), hne (n := 0x5b) (by omega) (by omega),
    hne (n := 0x7b) (by omega) (by omega)⟩

theorem text_num {n : ν} (h : N.isFinite n = true) :
    ∃ unit units, N.text n = unit :: units ∧ startsNumber unit = true := by
  have hstart := N.text_starts n h
  cases htext : N.text n with
  | nil => rw [htext] at hstart; cases hstart
  | cons unit units =>
      rw [htext] at hstart
      exact ⟨unit, units, rfl, hstart⟩

/-- The text of a value starts with no space and no closing bracket. -/
theorem text_head (v : JsValue ν) :
    ∃ unit units, v.text N = unit :: units ∧ isSpace unit = false ∧ unit ≠ 0x5d := by
  match v with
  | .null => exact ⟨_, _, rfl, by decide, by decide⟩
  | .bool true => exact ⟨_, _, rfl, by decide, by decide⟩
  | .bool false => exact ⟨_, _, rfl, by decide, by decide⟩
  | .str s => exact ⟨_, _, rfl, by decide, by decide⟩
  | .arr items => exact ⟨_, _, rfl, by decide, by decide⟩
  | .obj properties => exact ⟨_, _, rfl, by decide, by decide⟩
  | .num n =>
      rw [text]
      split_ifs with hfinite
      · obtain ⟨unit, units, htext, hstart⟩ := text_num hfinite
        obtain ⟨hspace, hclose, -⟩ := startsNumber_cases hstart
        exact ⟨unit, units, htext, hspace, hclose⟩
      · exact ⟨_, _, rfl, by decide, by decide⟩

theorem skip_cons {unit : UInt16} (units : JsString) (h : isSpace unit = false) :
    skip (unit :: units) = unit :: units :=
  List.dropWhile_cons_of_neg (by simp [h])

theorem skip_text (v : JsValue ν) (rest : JsString) :
    skip (v.text N ++ rest) = v.text N ++ rest := by
  obtain ⟨unit, units, htext, hspace, -⟩ := text_head (N := N) v
  rw [htext, List.cons_append, skip_cons _ hspace]

theorem parseNumber_text {n : ν} (h : N.isFinite n = true) {rest : JsString} (hr : Follows rest) :
    parseNumber N (N.text n ++ rest) = some (.num (N.unsigned n), rest) := by
  have hliteral := N.text_literal n h
  have htake : rest.takeWhile inNumber = [] := by
    cases rest with
    | nil => rfl
    | cons unit units => simp [hr unit rfl]
  have hdrop : rest.dropWhile inNumber = rest := by
    cases rest with
    | nil => rfl
    | cons unit units => simp [hr unit rfl]
  rw [parseNumber, List.takeWhile_append_of_pos hliteral, htake, List.append_nil,
    List.dropWhile_append_of_pos hliteral, hdrop, N.read_text n h]
  rfl

theorem parseValue_num {n : ν} (h : N.isFinite n = true) (fuel : Nat) {rest : JsString}
    (hr : Follows rest) :
    parseValue N (fuel + 1) (N.text n ++ rest) = some (.num (N.unsigned n), rest) := by
  obtain ⟨unit, units, htext, hstart⟩ := text_num h
  obtain ⟨hspace, -, hn, ht, hf, hq, ha, ho⟩ := startsNumber_cases hstart
  rw [← parseNumber_text h hr, htext, List.cons_append, parseValue.eq_def]
  dsimp only
  rw [skip_cons _ hspace]
  split <;> simp_all

theorem encloseRest_follows {close : UInt16} (h : inNumber close = false) (texts : List JsString)
    (rest : JsString) : Follows (encloseRest close texts ++ rest) := by
  intro unit hunit
  cases texts with
  | nil =>
      obtain rfl := Option.some.inj hunit
      exact h
  | cons text texts =>
      obtain rfl := Option.some.inj hunit
      decide

theorem encloseRest_pos (close : UInt16) (texts : List JsString) :
    0 < (encloseRest close texts).length := by
  cases texts <;> exact Nat.succ_pos _

theorem text_pos (v : JsValue ν) : 0 < (v.text N).length := by
  obtain ⟨unit, units, htext, -⟩ := text_head (N := N) v
  rw [htext]
  exact Nat.succ_pos _

/-- An object that is built from ordered properties. -/
theorem build_shown {properties : List (JsString × JsValue ν)}
    (h : (keys properties).Pairwise Enumerates) :
    build (shownProperties N properties) = shownProperties N properties := by
  refine foldl_ownSet_self ?_
  rwa [Enumerated, shownProperties_eq, keys_mapValues]

mutual

theorem parseValue_text (v : JsValue ν) (fuel : Nat) (rest : JsString) (hv : v.Ordered)
    (hf : 3 * (v.text N).length ≤ fuel) (hr : Follows rest) :
    parseValue N fuel (v.text N ++ rest) = some (v.shown N, rest) := by
  have hpos := text_pos (N := N) v
  obtain ⟨fuel, rfl⟩ : ∃ n, fuel = n + 1 := ⟨fuel - 1, by omega⟩
  match v with
  | .null => rfl
  | .bool true => rfl
  | .bool false => rfl
  | .num n =>
      rw [text, shown]
      split_ifs with hfinite
      · exact parseValue_num hfinite fuel hr
      · rfl
  | .str s =>
      have hskip := skip_text (N := N) (.str s) rest
      rw [text] at hskip ⊢
      rw [parseValue, hskip, quoteUnits, List.cons_append, List.append_assoc]
      show (parseUnits (escapeUnits s ++ 0x22 :: rest)).map _ = _
      rw [parseUnits_escapeUnits]
      rfl
  | .arr items =>
      have hskip := skip_text (N := N) (.arr items) rest
      rw [text] at hskip hf ⊢
      rw [List.length_cons] at hf
      rw [parseValue, hskip, List.cons_append]
      show (parseItems N fuel true (enclose 0x5d (itemTexts N items) ++ rest)).map _ = _
      rw [parseItems_enclose items fuel rest hv (by omega)]
      rfl
  | .obj properties =>
      have hskip := skip_text (N := N) (.obj properties) rest
      rw [text] at hskip hf ⊢
      rw [List.length_cons] at hf
      rw [parseValue, hskip, List.cons_append]
      show (parseProperties N fuel true (enclose 0x7d (propertyTexts N properties) ++ rest)).map _ = _
      rw [parseProperties_enclose properties fuel rest hv.2 (by omega), Option.map_some,
        build_shown hv.1]
      rfl
termination_by fuel

theorem parseItem_text (v : JsValue ν) (vs : List (JsValue ν)) (fuel : Nat) (rest : JsString)
    (hv : v.Ordered) (hvs : ItemsObjects (List.Pairwise Enumerates) vs)
    (hf : 3 * ((v.text N).length + (encloseRest 0x5d (itemTexts N vs)).length) ≤ fuel + 1) :
    parseItem N fuel (v.text N ++ (encloseRest 0x5d (itemTexts N vs) ++ rest)) =
      some (v.shown N :: shownItems N vs, rest) := by
  have hpos := text_pos (N := N) v
  have hpos' := encloseRest_pos 0x5d (itemTexts N vs)
  obtain ⟨fuel, rfl⟩ : ∃ n, fuel = n + 1 := ⟨fuel - 1, by omega⟩
  have hvalue := parseValue_text v fuel (encloseRest 0x5d (itemTexts N vs) ++ rest) hv (by omega)
    (encloseRest_follows (by decide) _ rest)
  have hitems := parseItems_encloseRest vs fuel rest hvs (by omega)
  rw [parseItem, hvalue]
  show (parseItems N fuel false _ >>= _) = _
  rw [hitems]
  rfl
termination_by fuel

theorem parseItems_enclose (items : List (JsValue ν)) (fuel : Nat) (rest : JsString)
    (hitems : ItemsObjects (List.Pairwise Enumerates) items)
    (hf : 3 * (enclose 0x5d (itemTexts N items)).length ≤ fuel) :
    parseItems N fuel true (enclose 0x5d (itemTexts N items) ++ rest) =
      some (shownItems N items, rest) := by
  match items with
  | [] =>
      have hlength : (enclose 0x5d (itemTexts N ([] : List (JsValue ν)))).length = 1 := rfl
      obtain ⟨fuel, rfl⟩ : ∃ n, fuel = n + 1 := ⟨fuel - 1, by omega⟩
      rfl
  | v :: vs =>
      rw [itemTexts, enclose, List.length_append] at hf
      have hpos := text_pos (N := N) v
      have hpos' := encloseRest_pos 0x5d (itemTexts N vs)
      obtain ⟨fuel, rfl⟩ : ∃ n, fuel = n + 1 := ⟨fuel - 1, by omega⟩
      have hitem := parseItem_text v vs fuel rest hitems.1 hitems.2 (by omega)
      obtain ⟨unit, units, htext, hspace, hclose⟩ := text_head (N := N) v
      rw [itemTexts, enclose, List.append_assoc, shownItems, ← hitem, htext, List.cons_append,
        parseItems.eq_def]
      dsimp only
      rw [skip_cons _ hspace]
      split <;> simp_all
termination_by fuel

theorem parseItems_encloseRest (vs : List (JsValue ν)) (fuel : Nat) (rest : JsString)
    (hvs : ItemsObjects (List.Pairwise Enumerates) vs)
    (hf : 3 * (encloseRest 0x5d (itemTexts N vs)).length ≤ fuel + 2) :
    parseItems N fuel false (encloseRest 0x5d (itemTexts N vs) ++ rest) =
      some (shownItems N vs, rest) := by
  match vs with
  | [] =>
      have hlength : (encloseRest 0x5d (itemTexts N ([] : List (JsValue ν)))).length = 1 := rfl
      obtain ⟨fuel, rfl⟩ : ∃ n, fuel = n + 1 := ⟨fuel - 1, by omega⟩
      rfl
  | v :: vs =>
      rw [itemTexts, encloseRest, List.length_cons, List.length_append] at hf
      have hpos := text_pos (N := N) v
      obtain ⟨fuel, rfl⟩ : ∃ n, fuel = n + 1 := ⟨fuel - 1, by omega⟩
      have hitem := parseItem_text v vs fuel rest hvs.1 hvs.2 (by omega)
      rw [itemTexts, encloseRest, List.cons_append, List.append_assoc]
      show parseItem N fuel _ = _
      exact hitem
termination_by fuel

theorem parseProperty_text (key : JsString) (v : JsValue ν)
    (properties : List (JsString × JsValue ν)) (fuel : Nat) (rest : JsString) (hv : v.Ordered)
    (hproperties : PropertiesObjects (List.Pairwise Enumerates) properties)
    (hf : 3 * ((v.text N).length + (encloseRest 0x7d (propertyTexts N properties)).length) ≤
      fuel + 1) :
    parseProperty N fuel (quoteUnits key ++ 0x3a :: (v.text N ++
        (encloseRest 0x7d (propertyTexts N properties) ++ rest))) =
      some ((key, v.shown N) :: shownProperties N properties, rest) := by
  have hpos := text_pos (N := N) v
  have hpos' := encloseRest_pos 0x7d (propertyTexts N properties)
  obtain ⟨fuel, rfl⟩ : ∃ n, fuel = n + 1 := ⟨fuel - 1, by omega⟩
  have hvalue := parseValue_text v fuel (encloseRest 0x7d (propertyTexts N properties) ++ rest) hv
    (by omega) (encloseRest_follows (by decide) _ rest)
  have hrest := parseProperties_encloseRest properties fuel rest hproperties (by omega)
  rw [quoteUnits, List.cons_append, List.append_assoc, List.singleton_append, parseProperty,
    parseUnits_escapeUnits]
  show (parseValue N fuel _ >>= _) = _
  rw [hvalue]
  show (parseProperties N fuel false _ >>= _) = _
  rw [hrest]
  rfl
termination_by fuel

theorem parseProperties_enclose (properties : List (JsString × JsValue ν)) (fuel : Nat)
    (rest : JsString) (hproperties : PropertiesObjects (List.Pairwise Enumerates) properties)
    (hf : 3 * (enclose 0x7d (propertyTexts N properties)).length ≤ fuel) :
    parseProperties N fuel true (enclose 0x7d (propertyTexts N properties) ++ rest) =
      some (shownProperties N properties, rest) := by
  match properties with
  | [] =>
      have hlength : (enclose 0x7d (propertyTexts N ([] : List (JsString × JsValue ν)))).length = 1 :=
        rfl
      obtain ⟨fuel, rfl⟩ : ∃ n, fuel = n + 1 := ⟨fuel - 1, by omega⟩
      rfl
  | (key, v) :: properties =>
      rw [propertyTexts, enclose, List.length_append, List.length_append, List.length_cons] at hf
      obtain ⟨fuel, rfl⟩ : ∃ n, fuel = n + 1 := ⟨fuel - 1, by omega⟩
      have hproperty := parseProperty_text key v properties fuel rest hproperties.1 hproperties.2
        (by omega)
      rw [propertyTexts, enclose, List.append_assoc, List.append_assoc, List.cons_append]
      show parseProperty N fuel _ = _
      exact hproperty
termination_by fuel

theorem parseProperties_encloseRest (properties : List (JsString × JsValue ν)) (fuel : Nat)
    (rest : JsString) (hproperties : PropertiesObjects (List.Pairwise Enumerates) properties)
    (hf : 3 * (encloseRest 0x7d (propertyTexts N properties)).length ≤ fuel + 2) :
    parseProperties N fuel false (encloseRest 0x7d (propertyTexts N properties) ++ rest) =
      some (shownProperties N properties, rest) := by
  match properties with
  | [] =>
      have hlength :
          (encloseRest 0x7d (propertyTexts N ([] : List (JsString × JsValue ν)))).length = 1 := rfl
      obtain ⟨fuel, rfl⟩ : ∃ n, fuel = n + 1 := ⟨fuel - 1, by omega⟩
      rfl
  | (key, v) :: properties =>
      rw [propertyTexts, encloseRest, List.length_cons, List.length_append, List.length_append,
        List.length_cons] at hf
      obtain ⟨fuel, rfl⟩ : ∃ n, fuel = n + 1 := ⟨fuel - 1, by omega⟩
      have hproperty := parseProperty_text key v properties fuel rest hproperties.1 hproperties.2
        (by omega)
      rw [propertyTexts, encloseRest, List.cons_append, List.append_assoc, List.append_assoc,
        List.cons_append]
      show parseProperty N fuel _ = _
      exact hproperty
termination_by fuel

end

/-- The text of a value is read as the value that it stands for. -/
theorem parse_text {v : JsValue ν} (h : v.Ordered) : parse N (v.text N) = some (v.shown N) := by
  have hvalue := parseValue_text (N := N) v (3 * (v.text N).length + 3) [] h (by omega)
    fun _ h => (nomatch h)
  rw [List.append_nil] at hvalue
  rw [parse, hvalue]
  rfl

/-- A value and the value that its text stands for have one text. -/
theorem text_shown (v : JsValue ν) : (v.shown N).text N = v.text N := by
  induction v using JsValue.induction with
  | null => rfl
  | bool b => rfl
  | num n =>
      rw [shown]
      split_ifs with h
      · rw [text, text, N.isFinite_unsigned, N.text_unsigned]
      · rw [text, text, if_neg h]
  | str s => rfl
  | arr items ih =>
      rw [shown, text, text, itemTexts_eq, itemTexts_eq, shownItems_eq, List.map_map]
      congr 2
      exact List.map_congr_left ih
  | obj properties ih =>
      rw [shown, text, text, propertyTexts_eq, propertyTexts_eq, shownProperties_eq, mapValues_map]
      congr 3
      exact mapValues_congr ih

/-! ### What can be read -/

theorem Ordered.distinct {v : JsValue ν} (h : v.Ordered) : v.Distinct := by
  induction v using JsValue.induction with
  | null => trivial
  | bool b => trivial
  | num n => trivial
  | str s => trivial
  | arr items ih =>
      exact itemsObjects_iff.mpr fun v hv => ih v hv (itemsObjects_iff.mp h v hv)
  | obj properties ih =>
      exact ⟨h.1.imp fun hkeys => hkeys.ne, propertiesObjects_iff.mpr fun property hproperty =>
        ih property hproperty (propertiesObjects_iff.mp h.2 property hproperty)⟩

theorem build_ordered {properties : List (JsString × JsValue ν)}
    (h : PropertiesObjects (List.Pairwise Enumerates) properties) :
    Ordered (.obj (build properties)) := by
  suffices hfold : ∀ object : List (JsString × JsValue ν), Ordered (.obj object) →
      Ordered (.obj (properties.foldl (fun object property => ownSet property.1 property.2 object)
        object)) from hfold [] ⟨List.Pairwise.nil, trivial⟩
  induction properties with
  | nil => exact fun object hobject => hobject
  | cons property properties ih =>
      refine fun object hobject => ih h.2 _ ⟨Enumerated.ownSet hobject.1 _ _, ?_⟩
      refine propertiesObjects_iff.mpr fun other hother => ?_
      rcases mem_ownSet hother with rfl | hother
      · exact h.1
      · exact propertiesObjects_iff.mp hobject.2 other hother

theorem parseNumber_ordered {cs rest : JsString} {v : JsValue ν}
    (h : parseNumber N cs = some (v, rest)) : v.Ordered := by
  rw [parseNumber, Option.map_eq_some_iff] at h
  obtain ⟨n, -, hv⟩ := h
  obtain ⟨rfl, -⟩ := Prod.mk.inj hv
  trivial

mutual

theorem parseValue_ordered {fuel : Nat} {cs rest : JsString} {v : JsValue ν}
    (h : parseValue N fuel cs = some (v, rest)) : v.Ordered := by
  match fuel with
  | 0 => cases h
  | fuel + 1 =>
      rw [parseValue] at h
      split at h
      · cases h; trivial
      · cases h; trivial
      · cases h; trivial
      · obtain ⟨read, -, hread⟩ := Option.map_eq_some_iff.mp h
        cases hread
        trivial
      · obtain ⟨⟨items, after⟩, hitems, hread⟩ := Option.map_eq_some_iff.mp h
        cases hread
        exact parseItems_ordered hitems
      · obtain ⟨⟨properties, after⟩, hproperties, hread⟩ := Option.map_eq_some_iff.mp h
        cases hread
        exact build_ordered (parseProperties_ordered hproperties)
      · exact parseNumber_ordered h
termination_by fuel

theorem parseItems_ordered {fuel : Nat} {first : Bool} {cs rest : JsString}
    {items : List (JsValue ν)} (h : parseItems N fuel first cs = some (items, rest)) :
    ItemsObjects (List.Pairwise Enumerates) items := by
  match fuel with
  | 0 => cases h
  | fuel + 1 =>
      rw [parseItems.eq_def] at h
      dsimp only at h
      split at h
      · cases h; trivial
      · exact parseItem_ordered h
      · exact parseItem_ordered h
      · cases h
termination_by fuel

theorem parseItem_ordered {fuel : Nat} {cs rest : JsString} {items : List (JsValue ν)}
    (h : parseItem N fuel cs = some (items, rest)) :
    ItemsObjects (List.Pairwise Enumerates) items := by
  match fuel with
  | 0 => cases h
  | fuel + 1 =>
      rw [parseItem] at h
      obtain ⟨⟨v, after⟩, hvalue, h⟩ := Option.bind_eq_some_iff.mp h
      obtain ⟨⟨vs, last⟩, hitems, h⟩ := Option.bind_eq_some_iff.mp h
      cases h
      exact ⟨parseValue_ordered hvalue, parseItems_ordered hitems⟩
termination_by fuel

theorem parseProperties_ordered {fuel : Nat} {first : Bool} {cs rest : JsString}
    {properties : List (JsString × JsValue ν)}
    (h : parseProperties N fuel first cs = some (properties, rest)) :
    PropertiesObjects (List.Pairwise Enumerates) properties := by
  match fuel with
  | 0 => cases h
  | fuel + 1 =>
      rw [parseProperties.eq_def] at h
      dsimp only at h
      split at h
      · cases h; trivial
      · exact parseProperty_ordered h
      · exact parseProperty_ordered h
      · cases h
termination_by fuel

theorem parseProperty_ordered {fuel : Nat} {cs rest : JsString}
    {properties : List (JsString × JsValue ν)}
    (h : parseProperty N fuel cs = some (properties, rest)) :
    PropertiesObjects (List.Pairwise Enumerates) properties := by
  match fuel with
  | 0 => cases h
  | fuel + 1 =>
      rw [parseProperty.eq_def] at h
      split at h
      · rename_i hfuel
        obtain rfl := Nat.succ.inj hfuel
        obtain ⟨⟨key, after⟩, -, h⟩ := Option.bind_eq_some_iff.mp h
        dsimp only at h
        split at h
        · obtain ⟨⟨v, after'⟩, hvalue, h⟩ := Option.bind_eq_some_iff.mp h
          obtain ⟨⟨others, last⟩, hothers, h⟩ := Option.bind_eq_some_iff.mp h
          cases h
          exact ⟨parseValue_ordered hvalue, parseProperties_ordered hothers⟩
        · cases h
      · cases h
termination_by fuel

end

/-- The objects of a value that is read enumerate their properties in order. -/
theorem parse_ordered {cs : JsString} {v : JsValue ν} (h : parse N cs = some v) : v.Ordered := by
  rw [parse] at h
  split at h
  · rename_i hvalue
    split_ifs at h
    cases h
    exact parseValue_ordered hvalue
  · cases h

end JsValue

end PocketCoder.Foundation
