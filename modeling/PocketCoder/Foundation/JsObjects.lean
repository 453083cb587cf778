import Mathlib.Data.List.Sort
import Mathlib.Data.List.Lex
import Mathlib.Data.UInt

/-!
Strings and objects of JavaScript: a string is its UTF-16 code units, an object
its own properties in the order in which they are enumerated.

An array index comes before every other key, in numeric order; other keys keep
the order in which they were added. `ownSet` adds a property at its place, so an
object that is built from the properties of another one in their order is that
object (`foldl_ownSet_self`).
-/

namespace PocketCoder.Foundation

/-- A string: its UTF-16 code units. -/
abbrev JsString := List UInt16

namespace JsString

/-- A text of ASCII characters. -/
def ascii (text : String) : JsString := text.toList.map fun c => UInt16.ofNat c.toNat

/-- `Number.prototype.toString` of a natural number. -/
def decimal (n : Nat) : JsString := (Nat.toDigits 10 n).map fun c => UInt16.ofNat c.toNat

/-- The unit of a digit. -/
theorem toNat_digit {c : Char} (h : c.isDigit = true) :
    48 ≤ c.toNat ∧ c.toNat ≤ 57 ∧ (UInt16.ofNat c.toNat).toNat = c.toNat := by
  obtain ⟨hlower, hupper⟩ := Char.isDigit_iff_toNat.mp h
  have hupper' : c.toNat ≤ 57 := hupper
  have hsize : UInt16.size = 65536 := rfl
  exact ⟨hlower, hupper', UInt16.toNat_ofNat_of_lt' (by omega)⟩

/-- The number of the digits. -/
def digitsValue (key : JsString) : Nat := key.foldl (fun n unit => n * 10 + (unit.toNat - 48)) 0

/-- The array index that a key is. -/
def arrayIndex (key : JsString) : Option Nat :=
  let n := digitsValue key
  if key = decimal n ∧ n < 2 ^ 32 - 1 then some n else none

/-- An array index has one text. -/
theorem arrayIndex_inj {key key' : JsString} {n : Nat} (h : arrayIndex key = some n)
    (h' : arrayIndex key' = some n) : key = key' := by
  simp only [arrayIndex, Option.ite_none_right_eq_some, Option.some.injEq] at h h'
  obtain ⟨⟨hkey, -⟩, hn⟩ := h
  obtain ⟨⟨hkey', -⟩, hn'⟩ := h'
  rw [hkey, hkey', hn, hn']

/-- The order of `Array.prototype.sort`. -/
def Le (key key' : JsString) : Prop := key.map UInt16.toNat ≤ key'.map UInt16.toNat

instance (key key' : JsString) : Decidable (Le key key') :=
  inferInstanceAs (Decidable (_ ≤ _))

theorem Le.antisymm {key key' : JsString} (h : Le key key') (h' : Le key' key) : key = key' :=
  List.map_injective_iff.mpr (fun _ _ => UInt16.toNat_inj.mp) (le_antisymm h h')

/-! ### Splitting -/

/-- `text.split(separator)`, for a separator of one unit. -/
def split (separator : UInt16) : JsString → List JsString
  | [] => [[]]
  | unit :: rest =>
      if unit = separator then [] :: split separator rest
      else (split separator rest).modifyHead (unit :: ·)

variable {separator : UInt16} {rest segment : JsString}

theorem split_ne_nil (separator : UInt16) (rest : JsString) : split separator rest ≠ [] := by
  induction rest with
  | nil => exact List.cons_ne_nil _ _
  | cons unit rest ih =>
      rw [split]
      split_ifs
      · exact List.cons_ne_nil _ _
      · obtain ⟨first, others, hsplit⟩ := List.exists_cons_of_ne_nil ih
        rw [hsplit]
        exact List.cons_ne_nil _ _

/-- The segments behind their separators are the text. -/
theorem flatMap_split (separator : UInt16) (rest : JsString) :
    (split separator rest).flatMap (separator :: ·) = separator :: rest := by
  induction rest with
  | nil => rfl
  | cons unit rest ih =>
      rw [split]
      split_ifs with hunit
      · rw [List.flatMap_cons, ih, hunit]
        rfl
      · obtain ⟨first, others, hsplit⟩ := List.exists_cons_of_ne_nil (split_ne_nil separator rest)
        rw [hsplit, List.flatMap_cons, List.cons_append, List.cons.injEq] at ih
        rw [hsplit, List.modifyHead_cons, List.flatMap_cons, List.cons_append, List.cons_append, ih.2]

theorem notMem_of_mem_split (h : segment ∈ split separator rest) : separator ∉ segment := by
  induction rest generalizing segment with
  | nil =>
      rw [List.mem_singleton.mp h]
      exact List.not_mem_nil
  | cons unit rest ih =>
      rw [split] at h
      split_ifs at h with hunit
      · rcases List.mem_cons.mp h with rfl | h
        · exact List.not_mem_nil
        · exact ih h
      · obtain ⟨first, others, hsplit⟩ := List.exists_cons_of_ne_nil (split_ne_nil separator rest)
        rw [hsplit, List.modifyHead_cons] at h
        rw [hsplit] at ih
        rcases List.mem_cons.mp h with rfl | h
        · rw [List.mem_cons, not_or]
          exact ⟨Ne.symm hunit, ih List.mem_cons_self⟩
        · exact ih (List.mem_cons_of_mem _ h)

theorem split_append (h : separator ∉ segment) (rest : JsString) :
    split separator (segment ++ separator :: rest) = segment :: split separator rest := by
  induction segment with
  | nil => exact if_pos rfl
  | cons unit segment ih =>
      rw [List.mem_cons, not_or] at h
      rw [List.cons_append, split, if_neg (Ne.symm h.1), ih h.2, List.modifyHead_cons]

theorem split_single (h : separator ∉ segment) : split separator segment = [segment] := by
  induction segment with
  | nil => rfl
  | cons unit segment ih =>
      rw [List.mem_cons, not_or] at h
      rw [split, if_neg (Ne.symm h.1), ih h.2, List.modifyHead_cons]

/-- Segments without separators are found again. -/
theorem split_flatMap (segment : JsString) (segments : List JsString)
    (h : ∀ other ∈ segment :: segments, separator ∉ other) :
    split separator (segment ++ segments.flatMap (separator :: ·)) = segment :: segments := by
  induction segments generalizing segment with
  | nil => rw [List.flatMap_nil, List.append_nil, split_single (h _ List.mem_cons_self)]
  | cons next segments ih =>
      rw [List.flatMap_cons, List.cons_append, split_append (h _ List.mem_cons_self),
        ih next fun other hother => h other (List.mem_cons_of_mem _ hother)]

end JsString

open JsString

/-! ### Own properties -/

variable {α β : Type}

/-- The keys are enumerated in this order. -/
def Enumerates (key key' : JsString) : Prop :=
  match arrayIndex key, arrayIndex key' with
  | some n, some n' => n < n'
  | some _, none => True
  | none, some _ => False
  | none, none => key ≠ key'

/-- A new key goes in front of this one. -/
def goesBefore (key key' : JsString) : Bool :=
  match arrayIndex key, arrayIndex key' with
  | some n, some n' => n < n'
  | some _, none => true
  | none, _ => false

/-- `object[key] = value` for an own property of a plain object. -/
def ownSet (key : JsString) (value : α) : List (JsString × α) → List (JsString × α)
  | [] => [(key, value)]
  | property :: properties =>
      if property.1 = key then (key, value) :: properties
      else if goesBefore key property.1 then (key, value) :: property :: properties
      else property :: ownSet key value properties

def keys (properties : List (JsString × α)) : List JsString := properties.map Prod.fst

/-- The properties are in the order in which an object enumerates them. -/
def Enumerated (properties : List (JsString × α)) : Prop := (keys properties).Pairwise Enumerates

/-- The properties with other values. -/
def mapValues (f : α → β) (properties : List (JsString × α)) : List (JsString × β) :=
  properties.map fun property => (property.1, f property.2)

@[simp] theorem keys_mapValues (f : α → β) (properties : List (JsString × α)) :
    keys (mapValues f properties) = keys properties := by
  rw [keys, mapValues, List.map_map]
  rfl

theorem mapValues_map {γ : Type} (f : α → β) (g : β → γ) (properties : List (JsString × α)) :
    mapValues g (mapValues f properties) = mapValues (fun value => g (f value)) properties := by
  rw [mapValues, mapValues, List.map_map]
  rfl

theorem mapValues_congr {f g : α → β} {properties : List (JsString × α)}
    (h : ∀ property ∈ properties, f property.2 = g property.2) :
    mapValues f properties = mapValues g properties :=
  List.map_congr_left fun property hproperty => congrArg _ (h property hproperty)

theorem mapValues_ownSet (f : α → β) (key : JsString) (value : α)
    (properties : List (JsString × α)) :
    mapValues f (ownSet key value properties) = ownSet key (f value) (mapValues f properties) := by
  induction properties with
  | nil => rfl
  | cons property properties ih =>
      simp only [ownSet, mapValues, List.map_cons] at ih ⊢
      split_ifs
      · rfl
      · rfl
      · rw [List.map_cons, ih]

/-- A new property is added. -/
theorem perm_ownSet {key : JsString} (value : α) {properties : List (JsString × α)}
    (h : key ∉ keys properties) : (ownSet key value properties).Perm ((key, value) :: properties) := by
  induction properties with
  | nil => exact List.Perm.refl _
  | cons property properties ih =>
      rw [keys, List.map_cons, List.mem_cons, not_or] at h
      rw [ownSet, if_neg (Ne.symm h.1)]
      split_ifs
      · exact List.Perm.refl _
      · exact ((ih h.2).cons property).trans (List.Perm.swap _ _ _)

theorem Enumerates.ne {key key' : JsString} (h : Enumerates key key') : key ≠ key' := by
  rintro rfl
  rw [Enumerates] at h
  cases hindex : arrayIndex key with
  | none => simp [hindex] at h
  | some n => simp [hindex] at h

theorem Enumerated.nodup {properties : List (JsString × α)} (h : Enumerated properties) :
    (keys properties).Nodup :=
  h.imp fun hkeys => hkeys.ne

/-- A key goes in front of another one, is that key, or comes after it. -/
theorem enumerates_of_goesBefore {key key' : JsString} (h : goesBefore key key' = true) :
    Enumerates key key' := by
  rw [goesBefore] at h
  rw [Enumerates]
  cases hkey : arrayIndex key with
  | none => simp [hkey] at h
  | some n =>
      cases hkey' : arrayIndex key' with
      | none => trivial
      | some n' =>
          rw [hkey, hkey'] at h
          exact of_decide_eq_true h

theorem enumerates_of_not_goesBefore {key key' : JsString} (hne : key' ≠ key)
    (h : ¬goesBefore key key' = true) : Enumerates key' key := by
  rw [goesBefore] at h
  rw [Enumerates]
  cases hkey : arrayIndex key with
  | none =>
      cases hkey' : arrayIndex key' with
      | none => exact hne
      | some n' => trivial
  | some n =>
      cases hkey' : arrayIndex key' with
      | none => simp [hkey, hkey'] at h
      | some n' =>
          rw [hkey, hkey'] at h
          have hle : n' ≤ n := by simpa using h
          rcases Nat.lt_or_eq_of_le hle with hlt | rfl
          · exact hlt
          · exact absurd (arrayIndex_inj hkey' hkey) hne

theorem not_goesBefore_of_enumerates {key key' : JsString} (h : Enumerates key key') :
    goesBefore key' key = false := by
  rw [Enumerates] at h
  rw [goesBefore]
  cases hkey : arrayIndex key with
  | none =>
      cases hkey' : arrayIndex key' with
      | none => rfl
      | some n' => simp [hkey, hkey'] at h
  | some n =>
      cases hkey' : arrayIndex key' with
      | none => rfl
      | some n' =>
          rw [hkey, hkey'] at h
          exact decide_eq_false (Nat.not_lt.mpr (Nat.le_of_lt h))

/-- What goes before a key goes before those that come later. -/
theorem Enumerates.of_goesBefore {key key' key'' : JsString} (h : goesBefore key key' = true)
    (h' : Enumerates key' key'') : Enumerates key key'' := by
  have hkeys := enumerates_of_goesBefore h
  rw [goesBefore] at h
  rw [Enumerates] at hkeys h' ⊢
  cases hkey : arrayIndex key with
  | none => simp [hkey] at h
  | some n =>
      cases hkey'' : arrayIndex key'' with
      | none => trivial
      | some n'' =>
          cases hkey' : arrayIndex key' with
          | none => simp [hkey', hkey''] at h'
          | some n' =>
              rw [hkey', hkey''] at h'
              rw [hkey, hkey'] at hkeys
              exact Nat.lt_trans hkeys h'

/-- A new property comes to its place. -/
theorem enumerated_ownSet {key : JsString} (value : α) {properties : List (JsString × α)}
    (hnew : key ∉ keys properties) (h : Enumerated properties) :
    Enumerated (ownSet key value properties) := by
  induction properties with
  | nil => exact List.pairwise_singleton _ _
  | cons property properties ih =>
      obtain ⟨hfirst, hrest⟩ := List.pairwise_cons.mp h
      rw [keys, List.map_cons, List.mem_cons, not_or] at hnew
      rw [ownSet, if_neg (Ne.symm hnew.1)]
      split_ifs with hbefore
      · refine List.pairwise_cons.mpr ⟨fun other hother => ?_, h⟩
        rcases List.mem_cons.mp hother with rfl | hother
        · exact enumerates_of_goesBefore hbefore
        · exact Enumerates.of_goesBefore hbefore (hfirst other hother)
      · refine List.pairwise_cons.mpr ⟨fun other hother => ?_, ih hnew.2 hrest⟩
        have hmem := ((perm_ownSet value hnew.2).map Prod.fst).mem_iff.mp hother
        rcases List.mem_cons.mp hmem with rfl | hmem
        · exact enumerates_of_not_goesBefore (Ne.symm hnew.1) hbefore
        · exact hfirst other hmem

/-- A property that is there keeps its place. -/
theorem keys_ownSet {key : JsString} (value : α) {properties : List (JsString × α)}
    (hkey : key ∈ keys properties) (h : Enumerated properties) :
    keys (ownSet key value properties) = keys properties := by
  induction properties with
  | nil => exact absurd hkey List.not_mem_nil
  | cons property properties ih =>
      obtain ⟨hfirst, hrest⟩ := List.pairwise_cons.mp h
      rw [ownSet]
      split_ifs with heq hbefore
      · rw [keys, List.map_cons, ← heq]
        rfl
      all_goals
        have hmem : key ∈ keys properties := by
          rw [keys, List.map_cons, List.mem_cons] at hkey
          exact hkey.resolve_left (Ne.symm heq)
      · rw [not_goesBefore_of_enumerates (hfirst key hmem)] at hbefore
        cases hbefore
      · exact congrArg (property.1 :: ·) (ih hmem hrest)

/-- The properties after an assignment are enumerated in order. -/
theorem Enumerated.ownSet {properties : List (JsString × α)} (h : Enumerated properties)
    (key : JsString) (value : α) : Enumerated (ownSet key value properties) := by
  by_cases hkey : key ∈ keys properties
  · rwa [Enumerated, keys_ownSet value hkey h]
  · exact enumerated_ownSet value hkey h

theorem mem_ownSet {key : JsString} {value : α} {properties : List (JsString × α)}
    {property : JsString × α} (h : property ∈ ownSet key value properties) :
    property = (key, value) ∨ property ∈ properties := by
  induction properties with
  | nil => exact .inl (List.mem_singleton.mp h)
  | cons first properties ih =>
      rw [PocketCoder.Foundation.ownSet] at h
      split_ifs at h
      · exact (List.mem_cons.mp h).imp id (List.mem_cons_of_mem _)
      · exact List.mem_cons.mp h
      · rcases List.mem_cons.mp h with rfl | h
        · exact .inr List.mem_cons_self
        · exact (ih h).imp id (List.mem_cons_of_mem _)

/-- A property whose key comes last is added at the end. -/
theorem ownSet_last {key : JsString} (value : α) {properties : List (JsString × α)}
    (h : ∀ other ∈ keys properties, Enumerates other key) :
    ownSet key value properties = properties ++ [(key, value)] := by
  induction properties with
  | nil => rfl
  | cons property properties ih =>
      have hfirst := h property.1 List.mem_cons_self
      rw [ownSet, if_neg hfirst.ne, if_neg (by simp [not_goesBefore_of_enumerates hfirst]),
        ih fun other hother => h other (List.mem_cons_of_mem _ hother), List.cons_append]

/-- The properties of an object, in their order, make the object again. -/
theorem foldl_ownSet_self {properties : List (JsString × α)} (h : Enumerated properties) :
    properties.foldl (fun object property => ownSet property.1 property.2 object) [] = properties := by
  induction properties using List.reverseRecOn with
  | nil => rfl
  | append_singleton properties property ih =>
      have hkeys : keys (properties ++ [property]) = keys properties ++ [property.1] := by
        rw [keys, List.map_append]
        rfl
      rw [Enumerated, hkeys, List.pairwise_append] at h
      rw [List.foldl_append, ih h.1]
      exact ownSet_last _ fun other hother => h.2.2 other hother _ List.mem_cons_self

end PocketCoder.Foundation
