import PocketCoder.Foundation.Bytes

/-!
The texts and numbers that schemas accept: digests, identifiers, decimals
and safe integers.
-/

namespace PocketCoder.Foundation

/-- `Number.MAX_SAFE_INTEGER`. A natural number `n` stands for a value of the
source that passes `Number.isSafeInteger` exactly when `n` is at most this:
sums and products of safe integers are exact up to here, and rounding never
brings a larger one back. -/
def MAX_SAFE_INTEGER : Nat := 2 ^ 53 - 1

def isLowerAlnum (c : Char) : Bool := c.isLower || c.isDigit

/-- `/[0-9a-f]/`. -/
def isHexDigit (c : Char) : Bool := c.isDigit || ('a' ≤ c && c ≤ 'f')

/-- `/[0-9a-fA-F]/`. -/
def isAnyHexDigit (c : Char) : Bool := isHexDigit c || ('A' ≤ c && c ≤ 'F')

/-- `/^sha256:[a-f0-9]{64}$/`. -/
def isDigest (s : String) : Bool :=
  s.toList.take 7 = "sha256:".toList && (s.toList.drop 7).length = 64 &&
    (s.toList.drop 7).all isHexDigit

theorem isDigest_hex {bytes : Bytes} (h : bytes.length = 32) :
    isDigest ("sha256:" ++ hex bytes) = true := by
  have hlen := length_hex bytes
  rw [h] at hlen
  have hall : (hex bytes).toList.all isHexDigit = true :=
    List.all_eq_true.mpr (forall_mem_hex _ (by decide))
  have hdrop : ("sha256:" ++ hex bytes).toList.drop 7 = (hex bytes).toList := by
    rw [String.toList_append]
    exact List.drop_left' (by decide)
  have htake : ("sha256:" ++ hex bytes).toList.take 7 = "sha256:".toList := by
    rw [String.toList_append]
    exact List.take_left' (by decide)
  simp only [isDigest, hdrop, htake, hlen, hall, decide_true, Bool.and_self]

/-- `/^[a-f0-9]{64}$/`. -/
def isHexDigest (s : String) : Bool := s.toList.length = 64 && s.toList.all isHexDigit

theorem isHexDigest_hex {bytes : Bytes} (h : bytes.length = 32) : isHexDigest (hex bytes) = true := by
  have hlen := length_hex bytes
  rw [h] at hlen
  have hall : (hex bytes).toList.all isHexDigit = true :=
    List.all_eq_true.mpr (forall_mem_hex _ (by decide))
  rw [isHexDigest, hlen, hall]
  rfl

/-- `/^(0|[1-9]\d*)$/`. -/
def isDecimal (s : String) : Bool :=
  s = "0" || (s.toList.head?.any (fun c => c.isDigit && c ≠ '0') && s.toList.all Char.isDigit)

/-- One character class for each position. -/
def matchesEach : List (Char → Bool) → List Char → Bool
  | [], [] => true
  | p :: ps, c :: cs => p c && matchesEach ps cs
  | _, _ => false

/-- `z.uuid()`: a version from 1 to 8 and the RFC variant, or the nil or the
max UUID. -/
def isUuid (s : String) : Bool :=
  matchesEach
    (List.replicate 8 isAnyHexDigit ++ [fun c => c == '-'] ++
      List.replicate 4 isAnyHexDigit ++ [fun c => c == '-'] ++
      [fun c => '1' ≤ c && c ≤ '8'] ++ List.replicate 3 isAnyHexDigit ++ [fun c => c == '-'] ++
      [fun c => c = '8' || c = '9' || c = 'a' || c = 'b' || c = 'A' || c = 'B'] ++
      List.replicate 3 isAnyHexDigit ++ [fun c => c == '-'] ++ List.replicate 12 isAnyHexDigit)
    s.toList ||
  s = "00000000-0000-0000-0000-000000000000" || s = "ffffffff-ffff-ffff-ffff-ffffffffffff"

/-- The days of a month. -/
def daysInMonth (year month : Nat) : Nat :=
  if month = 2 then
    if year % 4 = 0 && (year % 100 ≠ 0 || year % 400 = 0) then 29 else 28
  else if month = 4 || month = 6 || month = 9 || month = 11 then 30
  else 31

/-- `z.iso.datetime()`: a date, hours and minutes, optional seconds with an
optional fraction, and the zone `Z`. -/
def isDatetime (s : String) : Bool :=
  let cs := s.toList
  let number (from_ width : Nat) : Nat := Nat.ofDigitChars 10 ((cs.drop from_).take width) 0
  let digits (from_ width : Nat) : Bool :=
    ((cs.drop from_).take width).length = width && ((cs.drop from_).take width).all Char.isDigit
  let seconds : List Char → Bool
    | ['Z'] => true
    | ':' :: a :: b :: rest =>
        ('0' ≤ a && a ≤ '5') && b.isDigit &&
          match rest with
          | ['Z'] => true
          | '.' :: fraction =>
              2 ≤ fraction.length && fraction.getLast? = some 'Z' &&
                fraction.dropLast.all Char.isDigit
          | _ => false
    | _ => false
  digits 0 4 && cs[4]? = some '-' && digits 5 2 && cs[7]? = some '-' && digits 8 2 &&
    cs[10]? = some 'T' && digits 11 2 && cs[13]? = some ':' && digits 14 2 &&
    (1 ≤ number 5 2 && number 5 2 ≤ 12) &&
    (1 ≤ number 8 2 && number 8 2 ≤ daysInMonth (number 0 4) (number 5 2)) &&
    number 11 2 ≤ 23 && number 14 2 ≤ 59 && seconds (cs.drop 16)

/-- `z.number().int().nonnegative().max(Number.MAX_SAFE_INTEGER)`. -/
def isCount (n : Nat) : Bool := n ≤ MAX_SAFE_INTEGER

end PocketCoder.Foundation
