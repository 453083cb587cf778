import Mathlib.Data.List.Lex
import Mathlib.Algebra.Order.Ring.Nat
import Mathlib.Tactic.IntervalCases
import PocketCoder.Foundation.Formats

/-!
JSON values, the text `JSON.stringify` writes for them, and a decoder for
that text.

The values are the ones with an exact text: integers instead of floating
point numbers, and strings of Unicode scalar values, which have no lone
surrogates. Object fields are a list, since `JSON.parse` keeps the order of
the text and `JSON.stringify` writes that order.

A development that only needs *some* correct decoder takes a `JsonDecoder`,
the function `JSON.parse` together with the one law it is relied on for:
the text of a value decodes to that value. `JSON.parse` has this law for
`Plain` values only: it keeps the last of two members with one key, moves array
indices to the front and rounds integers that are not safe. `Json.decoder` is a
concrete one, so the structure is inhabited.
-/

namespace PocketCoder.Foundation

/-- A JSON value. -/
inductive Json where
  | null
  | bool (b : Bool)
  | num (n : Int)
  | str (s : String)
  | arr (items : List Json)
  | obj (fields : List (String × Json))

namespace Json

/-! ### Writing -/

/-- One character inside a string literal, as `JSON.stringify` escapes it. -/
def escape (c : Char) : List Char :=
  if c = '"' then ['\\', '"']
  else if c = '\\' then ['\\', '\\']
  else if c = '\x08' then ['\\', 'b']
  else if c = '\t' then ['\\', 't']
  else if c = '\n' then ['\\', 'n']
  else if c = '\x0c' then ['\\', 'f']
  else if c = '\r' then ['\\', 'r']
  else if c.toNat < 0x20 then
    ['\\', 'u', '0', '0', Nat.digitChar (c.toNat / 16), Nat.digitChar (c.toNat % 16)]
  else [c]

def quote (s : String) : List Char :=
  '"' :: (s.toList.flatMap escape ++ ['"'])

def numChars : Int → List Char
  | .ofNat n => Nat.toDigits 10 n
  | .negSucc n => '-' :: Nat.toDigits 10 (n + 1)

mutual

/-- The text of a value, without white space. -/
def chars : Json → List Char
  | .null => ['n', 'u', 'l', 'l']
  | .bool true => ['t', 'r', 'u', 'e']
  | .bool false => ['f', 'a', 'l', 's', 'e']
  | .num n => numChars n
  | .str s => quote s
  | .arr [] => ['[', ']']
  | .arr (v :: vs) => '[' :: (chars v ++ itemsChars vs)
  | .obj [] => ['{', '}']
  | .obj ((k, v) :: fs) => '{' :: (quote k ++ ':' :: (chars v ++ fieldsChars fs))

/-- The items after the first one, with the closing bracket. -/
def itemsChars : List Json → List Char
  | [] => [']']
  | v :: vs => ',' :: (chars v ++ itemsChars vs)

/-- The fields after the first one, with the closing brace. -/
def fieldsChars : List (String × Json) → List Char
  | [] => ['}']
  | (k, v) :: fs => ',' :: (quote k ++ ':' :: (chars v ++ fieldsChars fs))

end

/-- `JSON.stringify(value)`. -/
def stringify (v : Json) : String := String.ofList v.chars

/-! ### Bounds on the length of a text -/

theorem length_escape_le (c : Char) : (escape c).length ≤ 6 := by
  unfold escape
  split_ifs <;> simp

theorem length_quote_le (cs : List Char) : (quote (.ofList cs)).length ≤ 6 * cs.length + 2 := by
  rw [quote, String.toList_ofList, List.length_cons, List.length_append, List.length_singleton]
  suffices h : (cs.flatMap escape).length ≤ 6 * cs.length by omega
  induction cs with
  | nil => exact Nat.le_refl _
  | cons c cs ih =>
      have hc := length_escape_le c
      rw [List.flatMap_cons, List.length_append, List.length_cons]
      omega

theorem length_str_le (cs : List Char) : (str (.ofList cs)).chars.length ≤ 6 * cs.length + 2 := by
  rw [chars]
  exact length_quote_le cs

theorem length_fields_le {v : Json} {fs : List (String × Json)} {m n : Nat} (cs : List Char)
    (hv : v.chars.length ≤ m) (hfs : (fieldsChars fs).length ≤ n) :
    (fieldsChars ((.ofList cs, v) :: fs)).length ≤ 6 * cs.length + m + n + 4 := by
  have hk := length_quote_le cs
  rw [fieldsChars]
  simp only [List.length_cons, List.length_append]
  omega

theorem length_obj_le {v : Json} {fs : List (String × Json)} {m n : Nat} (cs : List Char)
    (hv : v.chars.length ≤ m) (hfs : (fieldsChars fs).length ≤ n) :
    (obj ((.ofList cs, v) :: fs)).chars.length ≤ 6 * cs.length + m + n + 4 := by
  have hk := length_quote_le cs
  rw [chars]
  simp only [List.length_cons, List.length_append]
  omega

theorem length_items_le {v : Json} {vs : List Json} {m n : Nat}
    (hv : v.chars.length ≤ m) (hvs : (itemsChars vs).length ≤ n) :
    (itemsChars (v :: vs)).length ≤ m + n + 1 := by
  rw [itemsChars]
  simp only [List.length_cons, List.length_append]
  omega

theorem length_arr_le {v : Json} {vs : List Json} {m n : Nat}
    (hv : v.chars.length ≤ m) (hvs : (itemsChars vs).length ≤ n) :
    (arr (v :: vs)).chars.length ≤ m + n + 1 := by
  rw [chars]
  simp only [List.length_cons, List.length_append]
  omega

/-! ### The end of a text -/

theorem getLast?_fieldsChars (fs : List (String × Json)) : (fieldsChars fs).getLast? = some '}' := by
  induction fs with
  | nil => rfl
  | cons field fs ih =>
      obtain ⟨k, v⟩ := field
      rw [fieldsChars, ← List.cons_append, ← List.cons_append, List.getLast?_append,
        List.getLast?_append, ih]
      rfl

theorem getLast?_chars_obj (fs : List (String × Json)) : (obj fs).chars.getLast? = some '}' := by
  cases fs with
  | nil => rfl
  | cons field fs =>
      obtain ⟨k, v⟩ := field
      rw [chars, ← List.cons_append, ← List.cons_append, List.getLast?_append,
        List.getLast?_append, getLast?_fieldsChars]
      rfl

/-! ### Sorting the keys of objects -/

/-- The UTF-16 code units of a character. -/
def utf16 (c : Char) : List Nat :=
  if c.toNat < 0x10000 then [c.toNat]
  else [0xd800 + (c.toNat - 0x10000) / 0x400, 0xdc00 + (c.toNat - 0x10000) % 0x400]

/-- The order `Array.prototype.sort` puts strings in: by UTF-16 code units. -/
def keyLe (a b : String) : Bool :=
  decide (a.toList.flatMap utf16 ≤ b.toList.flatMap utf16)

def insertField (f : String × Json) : List (String × Json) → List (String × Json)
  | [] => [f]
  | g :: fs => if keyLe f.1 g.1 then f :: g :: fs else g :: insertField f fs

mutual

/-- The value with the keys of every object sorted. -/
def sortValue : Json → Json
  | .arr items => .arr (sortItems items)
  | .obj fields => .obj (sortFields fields)
  | v => v

def sortItems : List Json → List Json
  | [] => []
  | v :: vs => sortValue v :: sortItems vs

def sortFields : List (String × Json) → List (String × Json)
  | [] => []
  | (k, v) :: fs => insertField (k, sortValue v) (sortFields fs)

end

theorem sortItems_eq_map (vs : List Json) : sortItems vs = vs.map sortValue := by
  induction vs with
  | nil => simp [sortItems]
  | cons v vs ih => simp [sortItems, ih]

/-! ### Reading -/

def hexValue (c : Char) : Option Nat :=
  if '0' ≤ c ∧ c ≤ '9' then some (c.toNat - '0'.toNat)
  else if 'a' ≤ c ∧ c ≤ 'f' then some (c.toNat - 'a'.toNat + 10)
  else none

def unescape : Char → Option Char
  | '"' => some '"'
  | '\\' => some '\\'
  | '/' => some '/'
  | 'b' => some '\x08'
  | 't' => some '\t'
  | 'n' => some '\n'
  | 'f' => some '\x0c'
  | 'r' => some '\r'
  | _ => none

/-- The characters of a string literal up to its closing quote. -/
def parseChars : List Char → Option (List Char × List Char)
  | [] => none
  | '"' :: rest => some ([], rest)
  | '\\' :: 'u' :: a :: b :: c :: d :: rest => do
      let code := (← hexValue a) * 4096 + (← hexValue b) * 256 + (← hexValue c) * 16 + (← hexValue d)
      let (s, rest) ← parseChars rest
      if code.isValidChar then some (Char.ofNat code :: s, rest) else none
  | '\\' :: e :: rest => do
      let c ← unescape e
      let (s, rest) ← parseChars rest
      some (c :: s, rest)
  | c :: rest => do
      if c.toNat < 0x20 then none
      let (s, rest) ← parseChars rest
      some (c :: s, rest)

/-- A quoted string at the start of the text. -/
def parseString : List Char → Option (String × List Char)
  | '"' :: rest => (parseChars rest).map fun p => (String.ofList p.1, p.2)
  | _ => none

def parseNat (cs : List Char) : Option (Nat × List Char) :=
  let digits := cs.takeWhile Char.isDigit
  if digits = [] then none else some (Nat.ofDigitChars 10 digits 0, cs.dropWhile Char.isDigit)

mutual

/-- A value at the start of the text, and the text after it. -/
def parseValue : Nat → List Char → Option (Json × List Char)
  | 0, _ => none
  | _ + 1, 'n' :: 'u' :: 'l' :: 'l' :: rest => some (.null, rest)
  | _ + 1, 't' :: 'r' :: 'u' :: 'e' :: rest => some (.bool true, rest)
  | _ + 1, 'f' :: 'a' :: 'l' :: 's' :: 'e' :: rest => some (.bool false, rest)
  | _ + 1, '"' :: rest => (parseString ('"' :: rest)).map fun p => (.str p.1, p.2)
  | _ + 1, '[' :: ']' :: rest => some (.arr [], rest)
  | fuel + 1, '[' :: rest => do
      let (v, rest) ← parseValue fuel rest
      let (vs, rest) ← parseItems fuel rest
      some (.arr (v :: vs), rest)
  | _ + 1, '{' :: '}' :: rest => some (.obj [], rest)
  | fuel + 1, '{' :: rest => do
      let (k, v, rest) ← parseField fuel rest
      let (fs, rest) ← parseFields fuel rest
      some (.obj ((k, v) :: fs), rest)
  | _ + 1, '-' :: rest => (parseNat rest).map fun p => (.num (-p.1), p.2)
  | _ + 1, rest => (parseNat rest).map fun p => (.num p.1, p.2)

def parseItems : Nat → List Char → Option (List Json × List Char)
  | 0, _ => none
  | _ + 1, ']' :: rest => some ([], rest)
  | fuel + 1, ',' :: rest => do
      let (v, rest) ← parseValue fuel rest
      let (vs, rest) ← parseItems fuel rest
      some (v :: vs, rest)
  | _ + 1, _ => none

def parseField : Nat → List Char → Option (String × Json × List Char)
  | 0, _ => none
  | fuel + 1, rest => do
      let (k, rest) ← parseString rest
      match rest with
      | ':' :: rest =>
          let (v, rest) ← parseValue fuel rest
          some (k, v, rest)
      | _ => none

def parseFields : Nat → List Char → Option (List (String × Json) × List Char)
  | 0, _ => none
  | _ + 1, '}' :: rest => some ([], rest)
  | fuel + 1, ',' :: rest => do
      let (k, v, rest) ← parseField fuel rest
      let (fs, rest) ← parseFields fuel rest
      some ((k, v) :: fs, rest)
  | _ + 1, _ => none

end

/-- The value a text stands for, when the text is exactly one value. Each
parser call consumes a character before it recurses, so the length of the
text is enough fuel. -/
def parse (text : String) : Option Json :=
  match parseValue text.toList.length text.toList with
  | some (v, []) => some v
  | _ => none

/-! ### The text of a value decodes to the value -/

theorem parseChars_escape (c : Char) (cs : List Char) :
    parseChars (escape c ++ cs) = (parseChars cs).map fun p => (c :: p.1, p.2) := by
  have hplain (hq : c ≠ '"') (hb : c ≠ '\\') (h20 : ¬c.toNat < 0x20) :
      parseChars (c :: cs) = (parseChars cs).map fun p => (c :: p.1, p.2) := by
    rw [parseChars.eq_def]
    split <;> simp_all [Option.map_eq_bind]
  unfold escape
  split_ifs with h₁ h₂ h₃ h₄ h₅ h₆ h₇ h₈
  · subst h₁; simp [parseChars, unescape, Option.map_eq_bind]
  · subst h₂; simp [parseChars, unescape, Option.map_eq_bind]
  · subst h₃; simp [parseChars, unescape, Option.map_eq_bind]
  · subst h₄; simp [parseChars, unescape, Option.map_eq_bind]
  · subst h₅; simp [parseChars, unescape, Option.map_eq_bind]
  · subst h₆; simp [parseChars, unescape, Option.map_eq_bind]
  · subst h₇; simp [parseChars, unescape, Option.map_eq_bind]
  · -- A control character without a short escape: its code is below 32, and
    -- the two hexadecimal digits spell it.
    have hc : Char.ofNat c.toNat = c := Char.ofNat_toNat c
    generalize c.toNat = n at h₈ hc
    subst hc
    interval_cases n <;>
      simp [parseChars, hexValue, Nat.digitChar, Nat.isValidChar, Option.map_eq_bind]
  · simpa using hplain h₁ h₂ h₈

theorem parseChars_flatMap (s rest : List Char) :
    parseChars (s.flatMap escape ++ '"' :: rest) = some (s, rest) := by
  induction s with
  | nil => simp [parseChars]
  | cons c s ih =>
      rw [List.flatMap_cons, List.append_assoc, parseChars_escape, ih]
      rfl

theorem parseString_quote (s : String) (rest : List Char) :
    parseString (quote s ++ rest) = some (s, rest) := by
  simp [quote, parseString, parseChars_flatMap]

/-- The text that may follow a number: nothing that would extend it. -/
def Follows (rest : List Char) : Prop := ∀ c ∈ rest.head?, c.isDigit = false

theorem parseNat_toDigits (n : Nat) (rest : List Char) (hr : Follows rest) :
    parseNat (Nat.toDigits 10 n ++ rest) = some (n, rest) := by
  have hdigits : ∀ c ∈ Nat.toDigits 10 n, c.isDigit = true := fun c hc =>
    Nat.isDigit_of_mem_toDigits (by omega) (by omega) hc
  have htake : rest.takeWhile Char.isDigit = [] := by
    cases rest with
    | nil => rfl
    | cons c cs => simp [hr c rfl]
  have hdrop : rest.dropWhile Char.isDigit = rest := by
    cases rest with
    | nil => rfl
    | cons c cs => simp [hr c rfl]
  have hword : (Nat.toDigits 10 n ++ rest).takeWhile Char.isDigit = Nat.toDigits 10 n := by
    rw [List.takeWhile_append_of_pos hdigits, htake, List.append_nil]
  simp only [parseNat, hword, Nat.toDigits_ne_nil, if_false]
  rw [Nat.ofDigitChars_toDigits (by omega) (by omega), List.dropWhile_append_of_pos hdigits, hdrop]

theorem parseValue_digit (fuel : Nat) (cs : List Char) (c : Char) (hc : c.isDigit = true)
    (hhead : cs.head? = some c) :
    parseValue (fuel + 1) cs = (parseNat cs).map fun p => (.num p.1, p.2) := by
  obtain ⟨tail, rfl⟩ : ∃ tail, cs = c :: tail := by
    cases cs with
    | nil => simp at hhead
    | cons d tail => exact ⟨tail, by simpa using hhead⟩
  rw [parseValue.eq_def]
  split <;> simp_all [Char.isDigit]

theorem toDigits_head (n : Nat) (rest : List Char) :
    ∃ c, c.isDigit = true ∧ (Nat.toDigits 10 n ++ rest).head? = some c := by
  cases h : Nat.toDigits 10 n with
  | nil => exact absurd h Nat.toDigits_ne_nil
  | cons c cs =>
      refine ⟨c, Nat.isDigit_of_mem_toDigits (b := 10) (n := n) (by omega) (by omega) ?_, rfl⟩
      simp [h]

theorem itemsChars_follows (vs : List Json) (rest : List Char) :
    Follows (itemsChars vs ++ rest) := by
  cases vs <;> simp [itemsChars, Follows, Char.isDigit]

theorem fieldsChars_follows (fs : List (String × Json)) (rest : List Char) :
    Follows (fieldsChars fs ++ rest) := by
  cases fs <;> simp [fieldsChars, Follows, Char.isDigit]

/-- The text of a value never starts with a closing bracket, so the parser
never takes a first item for the end of an array. -/
theorem chars_head (v : Json) : ∃ c cs, v.chars = c :: cs ∧ c ≠ ']' := by
  suffices h : v.chars.head? ≠ some ']' ∧ v.chars ≠ [] by
    cases hv : v.chars with
    | nil => exact absurd hv h.2
    | cons c cs => exact ⟨c, cs, rfl, fun hc => h.1 (by rw [hv, hc]; rfl)⟩
  match v with
  | .null => simp [chars]
  | .bool true => simp [chars]
  | .bool false => simp [chars]
  | .str s => simp [chars, quote]
  | .arr [] => simp [chars]
  | .arr (v :: vs) => simp [chars]
  | .obj [] => simp [chars]
  | .obj ((k, v) :: fs) => simp [chars]
  | .num (.negSucc n) => simp [chars, numChars]
  | .num (.ofNat n) =>
      obtain ⟨c, hc, hhead⟩ := toDigits_head n []
      rw [List.append_nil] at hhead
      simp only [chars, numChars, hhead, ne_eq, Option.some.injEq, Nat.toDigits_ne_nil,
        not_false_eq_true, and_true]
      rintro rfl
      simp [Char.isDigit] at hc

theorem parseValue_arr_cons (fuel : Nat) (v : Json) (tail : List Char) :
    parseValue (fuel + 1) ('[' :: (v.chars ++ tail)) = (do
      let (v, rest) ← parseValue fuel (v.chars ++ tail)
      let (vs, rest) ← parseItems fuel rest
      some (.arr (v :: vs), rest)) := by
  obtain ⟨c, cs, hv, hc⟩ := chars_head v
  rw [hv, List.cons_append, parseValue]
  rintro rest ⟨rfl, rfl⟩
  exact hc rfl

theorem parseValue_num (fuel : Nat) (n : Int) (rest : List Char) (hr : Follows rest) :
    parseValue (fuel + 1) (numChars n ++ rest) = some (.num n, rest) := by
  cases n with
  | ofNat n =>
      obtain ⟨c, hc, hhead⟩ := toDigits_head n rest
      rw [numChars, parseValue_digit fuel _ c hc hhead, parseNat_toDigits n rest hr]
      rfl
  | negSucc n =>
      simp only [numChars, List.cons_append, parseValue, parseNat_toDigits (n + 1) rest hr,
        Option.map_some]
      rfl

mutual

theorem parseValue_chars (v : Json) (fuel : Nat) (rest : List Char)
    (hf : v.chars.length ≤ fuel) (hr : Follows rest) :
    parseValue fuel (v.chars ++ rest) = some (v, rest) := by
  obtain ⟨c, cs, hhead, -⟩ := chars_head v
  obtain ⟨fuel, rfl⟩ : ∃ n, fuel = n + 1 := ⟨fuel - 1, by simp [hhead] at hf; omega⟩
  match v with
  | .null => simp [chars, parseValue]
  | .bool true => simp [chars, parseValue]
  | .bool false => simp [chars, parseValue]
  | .num n => exact parseValue_num fuel n rest hr
  | .str s =>
      have h := parseString_quote s rest
      simp only [quote, List.cons_append] at h
      simp only [chars, quote, List.cons_append, parseValue, h, Option.map_some]
  | .arr [] => simp [chars, parseValue]
  | .arr (v :: vs) =>
      simp only [chars, List.length_cons, List.length_append] at hf
      have hv := parseValue_chars v fuel (itemsChars vs ++ rest) (by omega)
        (itemsChars_follows vs rest)
      have hvs := parseItems_chars vs fuel rest (by omega)
      rw [chars, List.cons_append, List.append_assoc, parseValue_arr_cons]
      simp [hv, hvs]
  | .obj [] => simp [chars, parseValue]
  | .obj ((k, v) :: fs) =>
      simp only [chars, List.length_cons, List.length_append] at hf
      have hfield := parseField_chars k v fuel (fieldsChars fs ++ rest) (by omega)
        (fieldsChars_follows fs rest)
      have hfields := parseFields_chars fs fuel rest (by omega)
      simp only [chars, quote, List.cons_append, List.append_assoc, List.nil_append] at hfield ⊢
      simp [parseValue, hfield, hfields]
termination_by fuel

theorem parseItems_chars (vs : List Json) (fuel : Nat) (rest : List Char)
    (hf : (itemsChars vs).length ≤ fuel) :
    parseItems fuel (itemsChars vs ++ rest) = some (vs, rest) := by
  match vs, fuel with
  | [], fuel + 1 => simp [itemsChars, parseItems]
  | [], 0 => simp [itemsChars] at hf
  | _ :: _, 0 => simp [itemsChars] at hf
  | v :: vs, fuel + 1 =>
      simp only [itemsChars, List.length_cons, List.length_append] at hf
      have hv := parseValue_chars v fuel (itemsChars vs ++ rest) (by omega)
        (itemsChars_follows vs rest)
      have hvs := parseItems_chars vs fuel rest (by omega)
      simp [itemsChars, parseItems, hv, hvs]
termination_by fuel

theorem parseField_chars (k : String) (v : Json) (fuel : Nat) (rest : List Char)
    (hf : (quote k).length + (v.chars.length + 1) ≤ fuel) (hr : Follows rest) :
    parseField fuel (quote k ++ ':' :: (v.chars ++ rest)) = some (k, v, rest) := by
  match fuel with
  | 0 => omega
  | fuel + 1 =>
      have hv := parseValue_chars v fuel rest (by omega) hr
      simp [parseField, parseString_quote, hv]
termination_by fuel

theorem parseFields_chars (fs : List (String × Json)) (fuel : Nat) (rest : List Char)
    (hf : (fieldsChars fs).length ≤ fuel) :
    parseFields fuel (fieldsChars fs ++ rest) = some (fs, rest) := by
  match fs, fuel with
  | [], fuel + 1 => simp [fieldsChars, parseFields]
  | [], 0 => simp [fieldsChars] at hf
  | _ :: _, 0 => simp [fieldsChars] at hf
  | (k, v) :: fs, fuel + 1 =>
      simp only [fieldsChars, List.length_cons, List.length_append] at hf
      have hfield := parseField_chars k v fuel (fieldsChars fs ++ rest) (by omega)
        (fieldsChars_follows fs rest)
      have hfields := parseFields_chars fs fuel rest (by omega)
      simp [fieldsChars, parseFields, hfield, hfields]
termination_by fuel

end

theorem parse_stringify (v : Json) : parse v.stringify = some v := by
  have h := parseValue_chars v v.chars.length [] le_rfl (by simp [Follows])
  rw [List.append_nil] at h
  simp [parse, stringify, h]

end Json

/-! ### Canonical text -/

/-- The text of a value with the keys of its objects sorted. -/
def canonicalJson (v : Json) : String := v.sortValue.stringify

instance canonicalSetoid : Setoid Json where
  r v w := canonicalJson v = canonicalJson w
  iseqv := ⟨fun _ => rfl, Eq.symm, Eq.trans⟩

/-- A value without the order of its keys, as a `jsonb` column keeps it and
`canonicalJson` compares it. -/
def JsonValue : Type := Quotient canonicalSetoid

namespace JsonValue

def of (v : Json) : JsonValue := Quotient.mk _ v

def null : JsonValue := of .null

/-- The text the value is compared by. -/
def canonical : JsonValue → String := Quotient.lift canonicalJson fun _ _ h => h

theorem canonical_inj {v w : JsonValue} : v.canonical = w.canonical ↔ v = w := by
  constructor
  · refine Quotient.inductionOn₂ v w fun _ _ h => ?_
    exact Quotient.sound h
  · exact congrArg canonical

instance : DecidableEq JsonValue := fun _ _ => decidable_of_iff _ canonical_inj

end JsonValue

/-! ### Decoders -/

namespace Json

mutual

/-- The integers are safe, and the keys of each object are distinct and no
array indices (none starts with a digit). -/
def Plain : Json → Prop
  | .null => True
  | .bool _ => True
  | .num n => n.natAbs ≤ MAX_SAFE_INTEGER
  | .str _ => True
  | .arr items => PlainItems items
  | .obj fields => (fields.map Prod.fst).Nodup ∧ PlainFields fields

def PlainItems : List Json → Prop
  | [] => True
  | v :: vs => v.Plain ∧ PlainItems vs

def PlainFields : List (String × Json) → Prop
  | [] => True
  | (k, v) :: fs => k.toList.head?.any Char.isDigit = false ∧ v.Plain ∧ PlainFields fs

end

theorem plainItems_iff {items : List Json} : PlainItems items ↔ ∀ v ∈ items, v.Plain := by
  induction items with
  | nil => simp [PlainItems]
  | cons v vs ih => simp [PlainItems, ih]

end Json

/-- A correct decoder: whatever `JSON.parse` does on other texts, the text of
a plain value decodes to that value. -/
structure JsonDecoder where
  parse : String → Option Json
  parse_stringify : ∀ v, v.Plain → parse v.stringify = some v

/-- The decoder of this file. -/
def Json.decoder : JsonDecoder where
  parse := Json.parse
  parse_stringify v _ := Json.parse_stringify v

end PocketCoder.Foundation
