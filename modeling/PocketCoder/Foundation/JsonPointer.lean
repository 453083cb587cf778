import PocketCoder.Foundation.JsObjects

/-!
JSON Pointers (RFC 6901) over UTF-16 code units: a pointer is a list of names,
each behind a slash, with `~0` for a tilde and `~1` for a slash in a name.

The reader splits the text at its slashes, refuses a tilde that escapes nothing,
and replaces `~1` before `~0`. `decodeToken_encodeToken` and
`encodeToken_decodeToken` say that this is the inverse of the encoding, and
`readNames_eq_some` that a text is read as the names whose pointer it is.
-/

namespace PocketCoder.Foundation.JsonPointer

open JsString

def slash : UInt16 := 0x2f
def tilde : UInt16 := 0x7e
def zero : UInt16 := 0x30
def one : UInt16 := 0x31

/-! ### Writing -/

def encodeUnit (unit : UInt16) : JsString :=
  if unit = tilde then [tilde, zero] else if unit = slash then [tilde, one] else [unit]

def encodeToken (name : JsString) : JsString := name.flatMap encodeUnit

/-- The pointer of some names. -/
def pointerText (names : List JsString) : JsString :=
  names.flatMap fun name => slash :: encodeToken name

/-! ### Reading -/

/-- `/~(?:[^01]|$)/`: a tilde that is the start of no escape. -/
def badEscape : JsString → Bool
  | [] => false
  | unit :: rest =>
      unit = tilde && rest.head?.all (fun next => next ≠ zero && next ≠ one) || badEscape rest

/-- `replaceAll` of two different units by one. -/
def replacePair (first second unit : UInt16) : JsString → JsString
  | [] => []
  | [x] => [x]
  | x :: y :: rest =>
      if x = first ∧ y = second then unit :: replacePair first second unit rest
      else x :: replacePair first second unit (y :: rest)

def decodeToken (segment : JsString) : JsString :=
  replacePair tilde zero tilde (replacePair tilde one slash segment)

/-- The names of a text after its first slash. -/
def readNames (rest : JsString) : Option (List JsString) :=
  if (split slash rest).any badEscape then none else some ((split slash rest).map decodeToken)

/-! ### Tokens -/

theorem replacePair_cons {first second unit x : UInt16} (h : x ≠ first) (rest : JsString) :
    replacePair first second unit (x :: rest) = x :: replacePair first second unit rest := by
  cases rest with
  | nil => rfl
  | cons y rest => rw [replacePair, if_neg fun hx => h hx.1]

theorem decodeToken_zero (rest : JsString) :
    decodeToken (tilde :: zero :: rest) = tilde :: decodeToken rest := by
  have hinner : replacePair tilde one slash (tilde :: zero :: rest) =
      tilde :: zero :: replacePair tilde one slash rest := by
    rw [replacePair, if_neg (by decide), replacePair_cons (by decide)]
  rw [decodeToken, hinner, replacePair, if_pos ⟨rfl, rfl⟩, decodeToken]

theorem decodeToken_one (rest : JsString) :
    decodeToken (tilde :: one :: rest) = slash :: decodeToken rest := by
  rw [decodeToken, replacePair, if_pos ⟨rfl, rfl⟩, replacePair_cons (by decide), decodeToken]

theorem decodeToken_plain {unit : UInt16} (h : unit ≠ tilde) (rest : JsString) :
    decodeToken (unit :: rest) = unit :: decodeToken rest := by
  rw [decodeToken, replacePair_cons h, replacePair_cons h, decodeToken]

theorem decodeToken_encodeToken (name : JsString) : decodeToken (encodeToken name) = name := by
  induction name with
  | nil => rfl
  | cons unit name ih =>
      rw [encodeToken, List.flatMap_cons, encodeUnit, ← encodeToken]
      split_ifs with htilde hslash
      · rw [htilde]
        exact (decodeToken_zero _).trans (congrArg _ ih)
      · rw [hslash]
        exact (decodeToken_one _).trans (congrArg _ ih)
      · exact (decodeToken_plain htilde _).trans (congrArg _ ih)

theorem badEscape_encodeToken (name : JsString) : badEscape (encodeToken name) = false := by
  induction name with
  | nil => rfl
  | cons unit name ih =>
      rw [encodeToken, List.flatMap_cons, encodeUnit, ← encodeToken]
      split_ifs with htilde hslash
      · simp [badEscape, ih, tilde, zero, one]
      · simp [badEscape, ih, tilde, zero, one]
      · simp [badEscape, ih, htilde]

theorem slash_notMem_encodeToken (name : JsString) : slash ∉ encodeToken name := by
  rw [encodeToken, List.mem_flatMap]
  rintro ⟨unit, -, hunit⟩
  rw [encodeUnit] at hunit
  split_ifs at hunit with htilde hslash
  · exact absurd hunit (by decide)
  · exact absurd hunit (by decide)
  · exact hslash (List.mem_singleton.mp hunit).symm

/-- A segment without bad escapes is the token of what it is decoded to. -/
theorem encodeToken_decodeToken {segment : JsString} (hslash : slash ∉ segment)
    (h : badEscape segment = false) : encodeToken (decodeToken segment) = segment := by
  induction hn : segment.length using Nat.strong_induction_on generalizing segment with
  | _ n ih =>
      cases segment with
      | nil => rfl
      | cons unit rest =>
          rw [List.mem_cons, not_or] at hslash
          rw [badEscape, Bool.or_eq_false_iff] at h
          by_cases htilde : unit = tilde
          · subst htilde
            cases rest with
            | nil => exact absurd h.1 (by decide)
            | cons next rest =>
                rw [List.mem_cons, not_or] at hslash
                have hrest : encodeToken (decodeToken rest) = rest := by
                  refine ih rest.length ?_ hslash.2.2 ?_ rfl
                  · rw [← hn]
                    exact Nat.lt_succ_of_lt (Nat.lt_succ_self _)
                  · have hlater := h.2
                    rw [badEscape, Bool.or_eq_false_iff] at hlater
                    exact hlater.2
                -- an escape is `~0` or `~1`
                have hnext : next = zero ∨ next = one := by
                  by_contra hother
                  rw [not_or] at hother
                  simp [hother.1, hother.2] at h
                rcases hnext with rfl | rfl
                · rw [decodeToken_zero, encodeToken, List.flatMap_cons, ← encodeToken, hrest]
                  rfl
                · rw [decodeToken_one, encodeToken, List.flatMap_cons, ← encodeToken, hrest]
                  rfl
          · have hrest : encodeToken (decodeToken rest) = rest := by
              refine ih rest.length ?_ hslash.2 h.2 rfl
              rw [← hn]
              exact Nat.lt_succ_self _
            rw [decodeToken_plain htilde, encodeToken, List.flatMap_cons, ← encodeToken, hrest,
              encodeUnit, if_neg htilde, if_neg (Ne.symm hslash.1)]
            rfl

/-! ### Pointers -/

theorem pointerText_eq (names : List JsString) :
    pointerText names = (names.map encodeToken).flatMap (slash :: ·) := by
  rw [pointerText, List.flatMap_map]

/-- A text is read as the names whose pointer it is. -/
theorem readNames_eq_some {rest : JsString} {names : List JsString} :
    readNames rest = some names ↔ names ≠ [] ∧ slash :: rest = pointerText names := by
  rw [readNames, pointerText_eq]
  constructor
  · intro h
    split_ifs at h with hbad
    obtain rfl := Option.some.inj h
    have htokens : ((split slash rest).map decodeToken).map encodeToken = split slash rest := by
      rw [List.map_map]
      conv_rhs => rw [← List.map_id (split slash rest)]
      refine List.map_congr_left fun segment hsegment => ?_
      refine encodeToken_decodeToken (notMem_of_mem_split hsegment) (Bool.eq_false_iff.mpr ?_)
      exact fun htrue => hbad (List.any_eq_true.mpr ⟨segment, hsegment, htrue⟩)
    rw [htokens, flatMap_split]
    exact ⟨fun hnil => split_ne_nil slash rest (List.map_eq_nil_iff.mp hnil), rfl⟩
  · rintro ⟨hnames, htext⟩
    obtain ⟨first, others, rfl⟩ := List.exists_cons_of_ne_nil hnames
    rw [List.map_cons, List.flatMap_cons, List.cons_append, List.cons.injEq] at htext
    have hsplit : split slash rest = (first :: others).map encodeToken := by
      rw [htext.2]
      refine split_flatMap _ _ fun segment hsegment => ?_
      obtain ⟨name, -, rfl⟩ := List.mem_map.mp (List.map_cons ▸ hsegment)
      exact slash_notMem_encodeToken name
    have hgood : ((first :: others).map encodeToken).any badEscape = false := by
      rw [List.any_eq_false]
      intro segment hsegment
      obtain ⟨name, -, rfl⟩ := List.mem_map.mp hsegment
      rw [badEscape_encodeToken]
      exact Bool.false_ne_true
    rw [hsplit, hgood, if_neg Bool.false_ne_true, List.map_map]
    congr 1
    conv_rhs => rw [← List.map_id (first :: others)]
    exact List.map_congr_left fun name _ => decodeToken_encodeToken name

/-- A pointer is the text of one list of names. -/
theorem pointerText_inj {names names' : List JsString} (h : pointerText names = pointerText names') :
    names = names' := by
  cases names with
  | nil =>
      cases names' with
      | nil => rfl
      | cons => cases h
  | cons first others =>
      cases names' with
      | nil => cases h
      | cons first' others' =>
          have hread := readNames_eq_some.mpr
            ⟨List.cons_ne_nil first others, (rfl : slash :: _ = pointerText (first :: others))⟩
          have hread' := readNames_eq_some.mpr ⟨List.cons_ne_nil first' others', h⟩
          exact Option.some.inj (hread.symm.trans hread')

end PocketCoder.Foundation.JsonPointer
