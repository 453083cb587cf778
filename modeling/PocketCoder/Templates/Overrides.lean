import Mathlib.Data.List.Pairwise
import PocketCoder.Foundation.JsonPointer

/-!
Overrides of a template (`contracts/src/templates/template-render.ts`): a JSON
Pointer and a value that replaces the one at its place.

The code finds a place through the own properties of objects and arrays, and an
array has one that is no element: its `length`. `locate` is the place that the
pointer denotes, which only has members and elements, and `replaceAt` the
document with another value there.
-/

namespace PocketCoder.Templates

open PocketCoder.Foundation PocketCoder.Foundation.JsString PocketCoder.Foundation.JsonPointer

/-- A JSON document as JavaScript holds it. An array whose `length` was set may
have elements that are missing. -/
inductive Document (ν : Type) where
  | null
  | bool (b : Bool)
  | num (n : ν)
  | str (s : JsString)
  | arr (items : List (Option (Document ν)))
  | obj (properties : List (JsString × Document ν))

/-- What the platform does with the `length` of an array. -/
structure JsArrays (ν : Type) where
  /-- The number of a length. -/
  ofLength : Nat → ν
  /-- The length that an assignment to `length` makes of a value; none where it
  throws. -/
  toLength : Document ν → Option Nat

inductive OverrideError where
  | error (message : JsString)
  /-- `RangeError: Invalid array length`. -/
  | rangeError
  deriving DecidableEq

variable {ν : Type}

/-! ### Own properties -/

def lengthKey : JsString := ascii "length"

def lookup (key : JsString) (properties : List (JsString × Document ν)) : Option (Document ν) :=
  (properties.find? (·.1 = key)).map Prod.snd

/-- The property with another value. -/
def setValue (key : JsString) (value : Document ν) :
    List (JsString × Document ν) → List (JsString × Document ν)
  | [] => []
  | property :: properties =>
      if property.1 = key then (key, value) :: properties
      else property :: setValue key value properties

/-- `target[key]` for a target that has the own property. -/
def ownGet (J : JsArrays ν) (key : JsString) : Document ν → Option (Document ν)
  | .arr items =>
      match arrayIndex key with
      | some n => items[n]?.join
      | none => if key = lengthKey then some (.num (J.ofLength items.length)) else none
  | .obj properties => lookup key properties
  | _ => none

/-- `Reflect.set(target, key, value)` for an own property. -/
def reflectSet (J : JsArrays ν) (key : JsString) (value : Document ν) :
    Document ν → Except OverrideError (Document ν)
  | .arr items =>
      match arrayIndex key with
      | some n => .ok (.arr (items.set n (some value)))
      | none =>
          match J.toLength value with
          | some n => .ok (.arr (items.take n ++ List.replicate (n - items.length) none))
          | none => .error .rangeError
  | .obj properties => .ok (.obj (setValue key value properties))
  | target => .ok target

/-- The target after the object at a property of it has been changed. -/
def putChild (key : JsString) (child : Document ν) : Document ν → Document ν
  | .arr items =>
      match arrayIndex key with
      | some n => .arr (items.set n (some child))
      | none => .arr items
  | .obj properties => .obj (setValue key child properties)
  | target => target

/-! ### Overrides -/

def segments (pointer : JsString) : Except OverrideError (List JsString) :=
  match pointer with
  | [] => .error (.error (ascii "override path must be a non-root JSON Pointer"))
  | unit :: rest =>
      if unit ≠ slash || rest = [] then
        .error (.error (ascii "override path must be a non-root JSON Pointer"))
      else
        match readNames rest with
        | none => .error (.error (ascii "invalid JSON Pointer: " ++ pointer))
        | some names => .ok names

/-- The loop of `setExisting` over the path. -/
def setAlong (J : JsArrays ν) (failure : OverrideError) (value : Document ν) :
    List JsString → Document ν → Except OverrideError (Document ν)
  | [], target => .ok target
  | [key], target =>
      if (ownGet J key target).isSome then reflectSet J key value target else .error failure
  | key :: next :: path, target =>
      match ownGet J key target with
      | none => .error failure
      | some child =>
          (setAlong J failure value (next :: path) child).map fun child => putChild key child target

def setExisting (J : JsArrays ν) (root : Document ν) (pointer : JsString) (value : Document ν) :
    Except OverrideError (Document ν) := do
  let path ← segments pointer
  setAlong J (.error (ascii "override path does not exist: " ++ pointer)) value path root

/-- The value behind some names. -/
def follow (J : JsArrays ν) : List JsString → Document ν → Option (Document ν)
  | [], value => some value
  | segment :: path, value => (ownGet J segment value).bind (follow J path)

def valueAt (J : JsArrays ν) (root : Document ν) (pointer : JsString) :
    Except OverrideError (Option (Document ν)) := do
  let path ← segments pointer
  return follow J path root

/-- An argument `<json-pointer>=<json-value>`; `parse` is `JSON.parse`. -/
def override (parse : JsString → Option (Document ν)) (raw : JsString) :
    Except OverrideError (JsString × Document ν) :=
  match raw.findIdx? (· = 0x3d) with
  | none => .error (.error (ascii "--set must use <json-pointer>=<json-value>"))
  | some 0 => .error (.error (ascii "--set must use <json-pointer>=<json-value>"))
  | some separator =>
      match parse (raw.drop (separator + 1)) with
      | some value => .ok (raw.take separator, value)
      | none => .error (.error (ascii "override value for " ++ raw.take separator ++
          ascii " must be valid JSON"))

/-- The loop of `renderManifest` over its arguments. -/
def setRaw (J : JsArrays ν) (parse : JsString → Option (Document ν)) (rendered : Document ν)
    (raws : List JsString) : Except OverrideError (Document ν) :=
  raws.foldlM (fun rendered raw => do
    let item ← override parse raw
    setExisting J rendered item.1 item.2) rendered

/-- Overrides one after the other. -/
def setAll (J : JsArrays ν) (root : Document ν) (overrides : List (JsString × Document ν)) :
    Except OverrideError (Document ν) :=
  overrides.foldlM (fun root item => setExisting J root item.1 item.2) root

/-! ### Locations -/

/-- A member of an object or an element of an array. -/
def member (key : JsString) : Document ν → Option (Document ν)
  | .arr items => (arrayIndex key).bind fun n => items[n]?.join
  | .obj properties => lookup key properties
  | _ => none

/-- The value that a pointer with these names denotes. -/
def locate : List JsString → Document ν → Option (Document ν)
  | [], d => some d
  | name :: names, d => (member name d).bind (locate names)

/-- The document with another value at a location. -/
def replaceAt (value : Document ν) : List JsString → Document ν → Document ν
  | [], _ => value
  | name :: names, d =>
      match member name d with
      | none => d
      | some child => putChild name (replaceAt value names child) d

/-- Neither location is at or below the other. -/
def Apart (names names' : List JsString) : Prop := ¬names <+: names' ∧ ¬names' <+: names

theorem apart_cons {name : JsString} {names names' : List JsString} :
    Apart (name :: names) (name :: names') ↔ Apart names names' := by
  simp only [Apart, List.cons_prefix_cons, true_and]

theorem Apart.symm {names names' : List JsString} (h : Apart names names') : Apart names' names :=
  ⟨h.2, h.1⟩

/-! ### Properties and elements -/

variable {J : JsArrays ν} {d child value : Document ν} {key key' : JsString}
  {properties : List (JsString × Document ν)}

theorem arrayIndex_lengthKey : arrayIndex lengthKey = none := by decide +kernel

theorem lookup_cons (key : JsString) (property : JsString × Document ν) :
    lookup key (property :: properties) =
      if property.1 = key then some property.2 else lookup key properties := by
  rw [lookup, List.find?_cons]
  by_cases h : property.1 = key
  · rw [decide_eq_true h, if_pos h]
    rfl
  · rw [decide_eq_false h, if_neg h]
    rfl

theorem lookup_setValue (h : (lookup key properties).isSome) (value : Document ν) :
    lookup key' (setValue key value properties) =
      if key' = key then some value else lookup key' properties := by
  induction properties with
  | nil => cases h
  | cons property properties ih =>
      rw [setValue, lookup_cons]
      rw [lookup_cons] at h
      by_cases hhead : property.1 = key
      · rw [if_pos hhead, lookup_cons]
        by_cases hkey : key' = key
        · rw [if_pos hkey, if_pos hkey.symm]
        · rw [if_neg hkey, if_neg (Ne.symm hkey), if_neg fun hsame => hkey (hsame.symm.trans hhead)]
      · rw [if_neg hhead] at h ⊢
        rw [lookup_cons, ih h]
        by_cases hkey : property.1 = key'
        · rw [if_pos hkey, if_pos hkey, if_neg fun hsame => hhead (hkey.trans hsame)]
        · rw [if_neg hkey, if_neg hkey]

theorem setValue_setValue (key : JsString) (value value' : Document ν) :
    setValue key value (setValue key value' properties) = setValue key value properties := by
  induction properties with
  | nil => rfl
  | cons property properties ih =>
      by_cases hhead : property.1 = key
      · rw [setValue, if_pos hhead, setValue, if_pos rfl, setValue, if_pos hhead]
      · rw [setValue, if_neg hhead, setValue, if_neg hhead, ih, setValue, if_neg hhead]

theorem setValue_comm (h : key ≠ key') (value value' : Document ν) :
    setValue key value (setValue key' value' properties) =
      setValue key' value' (setValue key value properties) := by
  induction properties with
  | nil => rfl
  | cons property properties ih =>
      by_cases hhead : property.1 = key
      · have hother : property.1 ≠ key' := fun hsame => h (hhead.symm.trans hsame)
        rw [setValue, if_neg hother, setValue, if_pos hhead, setValue, if_pos hhead, setValue,
          if_neg h]
      · by_cases hother : property.1 = key'
        · rw [setValue, if_pos hother, setValue, if_neg (Ne.symm h), setValue, if_neg hhead, setValue,
            if_pos hother]
        · rw [setValue, if_neg hother, setValue, if_neg hhead, ih, setValue, if_neg hhead, setValue,
            if_neg hother]

/-- An own property is a member or an element, or the length of an array. -/
theorem ownGet_eq_some (h : ownGet J key d = some child) :
    member key d = some child ∨
      key = lengthKey ∧ ∃ items, d = .arr items ∧ child = .num (J.ofLength items.length) := by
  cases d with
  | arr items =>
      rw [ownGet] at h
      rw [member]
      cases hindex : arrayIndex key with
      | some n =>
          rw [hindex] at h
          exact .inl h
      | none =>
          rw [hindex] at h
          simp only [Option.ite_none_right_eq_some, Option.some.injEq] at h
          exact .inr ⟨h.1, items, rfl, h.2.symm⟩
  | obj properties => exact .inl h
  | null | bool b | num n | str s => cases h

theorem ownGet_of_member (h : member key d = some child) : ownGet J key d = some child := by
  cases d with
  | arr items =>
      rw [member, Option.bind_eq_some_iff] at h
      obtain ⟨n, hindex, hitem⟩ := h
      rw [ownGet, hindex]
      exact hitem
  | obj properties => exact h
  | null | bool b | num n | str s => cases h

theorem reflectSet_of_member (h : member key d = some child) :
    reflectSet J key value d = .ok (putChild key value d) := by
  cases d with
  | arr items =>
      rw [member, Option.bind_eq_some_iff] at h
      obtain ⟨n, hindex, -⟩ := h
      rw [reflectSet, putChild, hindex]
  | obj properties => rfl
  | null | bool b | num n | str s => cases h

/-- The elements of an array after one of them was replaced. -/
theorem element_set {items : List (Option (Document ν))} {n m : Nat}
    (hindex : arrayIndex key = some n) (hitem : items[n]?.join = some child)
    (hindex' : arrayIndex key' = some m) (value : Document ν) :
    (items.set n (some value))[m]?.join = if key' = key then some value else items[m]?.join := by
  by_cases hkey : key' = key
  · obtain rfl : m = n := Option.some.inj (hindex'.symm.trans (hkey ▸ hindex))
    have hlt : m < items.length := by
      by_contra hge
      rw [List.getElem?_eq_none (Nat.not_lt.mp hge)] at hitem
      cases hitem
    rw [if_pos hkey, List.getElem?_set_self hlt]
    rfl
  · have hne : n ≠ m := fun hsame => hkey (arrayIndex_inj hindex' (hsame ▸ hindex))
    rw [if_neg hkey, List.getElem?_set_ne hne]

theorem ne_of_arrayIndex {n : Nat} (h : arrayIndex key = some n) (h' : arrayIndex key' = none) :
    key' ≠ key := by
  rintro rfl
  rw [h'] at h
  cases h

theorem member_putChild (h : member key d = some child) (value : Document ν) :
    member key' (putChild key value d) = if key' = key then some value else member key' d := by
  cases d with
  | arr items =>
      rw [member, Option.bind_eq_some_iff] at h
      obtain ⟨n, hindex, hitem⟩ := h
      rw [putChild, hindex]
      show (arrayIndex key').bind (fun m => (items.set n (some value))[m]?.join) =
        if key' = key then some value else (arrayIndex key').bind fun m => items[m]?.join
      cases hindex' : arrayIndex key' with
      | none => rw [if_neg (ne_of_arrayIndex hindex hindex')]; rfl
      | some m => exact element_set hindex hitem hindex' value
  | obj properties => exact lookup_setValue (by rw [show lookup key properties = _ from h]; rfl) value
  | null | bool b | num n | str s => cases h

/-- Another property is as it was, the length of an array too. -/
theorem ownGet_putChild (h : member key d = some child) (value : Document ν) :
    ownGet J key' (putChild key value d) = if key' = key then some value else ownGet J key' d := by
  cases d with
  | arr items =>
      rw [member, Option.bind_eq_some_iff] at h
      obtain ⟨n, hindex, hitem⟩ := h
      rw [putChild, hindex]
      show ownGet J key' (.arr (items.set n (some value))) = _
      rw [ownGet, ownGet]
      cases hindex' : arrayIndex key' with
      | none => rw [if_neg (ne_of_arrayIndex hindex hindex'), List.length_set]
      | some m => exact element_set hindex hitem hindex' value
  | obj properties => exact lookup_setValue (by rw [show lookup key properties = _ from h]; rfl) value
  | null | bool b | num n | str s => cases h

theorem putChild_putChild (key : JsString) (value value' d : Document ν) :
    putChild key value (putChild key value' d) = putChild key value d := by
  cases d with
  | arr items =>
      rw [putChild, putChild]
      cases hindex : arrayIndex key with
      | none => rw [putChild, hindex]
      | some n =>
          rw [putChild, hindex]
          exact congrArg Document.arr (List.set_set _)
  | obj properties => exact congrArg Document.obj (setValue_setValue key value value')
  | null | bool b | num n | str s => rfl

theorem putChild_comm (h : key ≠ key') (value value' d : Document ν) :
    putChild key value (putChild key' value' d) = putChild key' value' (putChild key value d) := by
  cases d with
  | arr items =>
      rw [putChild, putChild]
      cases hindex : arrayIndex key with
      | none =>
          cases hindex' : arrayIndex key' with
          | none => rw [putChild, putChild, hindex, hindex']
          | some m => rw [putChild, putChild, hindex, hindex']
      | some n =>
          cases hindex' : arrayIndex key' with
          | none => rw [putChild, putChild, hindex, hindex']
          | some m =>
              have hne : m ≠ n := fun hsame => h (arrayIndex_inj hindex (hsame ▸ hindex'))
              rw [putChild, putChild, hindex, hindex']
              exact congrArg Document.arr (List.set_comm _ _ hne)
  | obj properties => exact congrArg Document.obj (setValue_comm h value value')
  | null | bool b | num n | str s => rfl

/-! ### Replacing at a location -/

variable {names names' : List JsString} {located result : Document ν} {failure : OverrideError}

theorem locate_cons (name : JsString) (names : List JsString) (d : Document ν) :
    locate (name :: names) d = (member name d).bind (locate names) := rfl

theorem replaceAt_cons (h : member key d = some child) (value : Document ν) (names : List JsString) :
    replaceAt value (key :: names) d = putChild key (replaceAt value names child) d := by
  rw [replaceAt, h]

theorem replaceAt_none (h : member key d = none) (value : Document ν) (names : List JsString) :
    replaceAt value (key :: names) d = d := by
  rw [replaceAt, h]

/-- The code replaces what is at a location. -/
theorem setAlong_of_locate (hnames : names ≠ []) (h : locate names d = some located) :
    setAlong J failure value names d = .ok (replaceAt value names d) := by
  induction names generalizing d with
  | nil => exact absurd rfl hnames
  | cons name names ih =>
      rw [locate_cons, Option.bind_eq_some_iff] at h
      obtain ⟨child, hmember, hrest⟩ := h
      rw [replaceAt_cons hmember]
      cases names with
      | nil =>
          rw [setAlong, ownGet_of_member hmember, Option.isSome_some, if_pos rfl]
          exact reflectSet_of_member hmember
      | cons next names =>
          rw [setAlong, ownGet_of_member hmember]
          show (setAlong J failure value (next :: names) child).map _ = _
          rw [ih (List.cons_ne_nil _ _) hrest]
          rfl

theorem map_eq_ok {α β : Type} {x : Except OverrideError α} {f : α → β} {b : β} :
    x.map f = .ok b ↔ ∃ a, x = .ok a ∧ f a = b := by
  cases x with
  | error e => exact ⟨fun h => (nomatch h), fun ⟨_, h, _⟩ => (nomatch h)⟩
  | ok a =>
      refine ⟨fun h => ⟨a, rfl, Except.ok.inj h⟩, ?_⟩
      rintro ⟨_, h, rfl⟩
      cases h
      rfl

theorem not_setAlong_num {n : ν} (hnames : names ≠ []) :
    setAlong J failure value names (.num n) ≠ .ok result := by
  cases names with
  | nil => exact absurd rfl hnames
  | cons name names => cases names <;> exact fun h => (nomatch h)

/-- Where the code succeeds there is a location, or the length of an array. -/
theorem setAlong_eq_ok (hnames : names ≠ []) (h : setAlong J failure value names d = .ok result) :
    (∃ located, locate names d = some located) ∨
      ∃ before items n, names = before ++ [lengthKey] ∧ locate before d = some (.arr items) ∧
        J.toLength value = some n := by
  induction names generalizing d result with
  | nil => exact absurd rfl hnames
  | cons name names ih =>
      cases names with
      | nil =>
          rw [setAlong] at h
          split_ifs at h with hown
          obtain ⟨child, hown⟩ := Option.isSome_iff_exists.mp hown
          -- an own property of an array that is no member is its `length`
          rcases ownGet_eq_some hown with hmember | ⟨rfl, items, rfl, -⟩
          · exact .inl ⟨child, by rw [locate_cons, hmember]; rfl⟩
          · rw [reflectSet, arrayIndex_lengthKey] at h
            cases hlength : J.toLength value with
            | none =>
                rw [hlength] at h
                cases h
            | some n => exact .inr ⟨[], items, n, rfl, rfl, rfl⟩
      | cons next names =>
          rw [setAlong] at h
          cases hown : ownGet J name d with
          | none =>
              rw [hown] at h
              cases h
          | some child =>
              rw [hown] at h
              obtain ⟨child', hchild, -⟩ := map_eq_ok.mp h
              rcases ownGet_eq_some hown with hmember | ⟨_, items, _, rfl⟩
              · rcases ih (List.cons_ne_nil _ _) hchild with ⟨located, hlocated⟩ |
                  ⟨before, items, n, hbefore, hitems, hlength⟩
                · exact .inl ⟨located, by rw [locate_cons, hmember]; exact hlocated⟩
                · refine .inr ⟨name :: before, items, n, by rw [hbefore]; rfl, ?_, hlength⟩
                  rw [locate_cons, hmember]
                  exact hitems
              · exact absurd hchild (not_setAlong_num (List.cons_ne_nil _ _))

theorem locate_append (before names : List JsString) (d : Document ν) :
    locate (before ++ names) d = (locate before d).bind (locate names) := by
  induction before generalizing d with
  | nil => rfl
  | cons name before ih =>
      rw [List.cons_append, locate_cons, locate_cons, Option.bind_assoc]
      exact congrArg _ (funext fun child => ih child)

/-- The length of an array is set. -/
theorem setAlong_length {items : List (Option (Document ν))} {n : Nat}
    (h : locate names d = some (.arr items)) (hlength : J.toLength value = some n) :
    ∃ result, setAlong J failure value (names ++ [lengthKey]) d = .ok result := by
  induction names generalizing d with
  | nil =>
      obtain rfl := Option.some.inj h
      rw [List.nil_append, setAlong, ownGet, arrayIndex_lengthKey, reflectSet, arrayIndex_lengthKey,
        hlength]
      exact ⟨_, rfl⟩
  | cons name names ih =>
      rw [locate_cons, Option.bind_eq_some_iff] at h
      obtain ⟨child, hmember, hrest⟩ := h
      obtain ⟨child', hchild⟩ := ih hrest
      obtain ⟨next, others, hnext⟩ := List.exists_cons_of_ne_nil
        (List.append_ne_nil_of_right_ne_nil names (List.cons_ne_nil lengthKey []))
      rw [hnext] at hchild
      rw [List.cons_append, hnext, setAlong, ownGet_of_member hmember]
      exact ⟨_, map_eq_ok.mpr ⟨child', hchild, rfl⟩⟩

/-- The value at the location. -/
theorem follow_replaceAt (h : locate names d = some located) (value : Document ν) :
    follow J names (replaceAt value names d) = some value := by
  induction names generalizing d with
  | nil => rfl
  | cons name names ih =>
      rw [locate_cons, Option.bind_eq_some_iff] at h
      obtain ⟨child, hmember, hrest⟩ := h
      rw [replaceAt_cons hmember, follow, ownGet_putChild hmember, if_pos rfl]
      exact ih hrest

/-- The value at every other location. -/
theorem follow_replaceAt_apart (h : locate names d = some located) (happart : Apart names names')
    (value : Document ν) : follow J names' (replaceAt value names d) = follow J names' d := by
  induction names generalizing d names' with
  | nil => exact absurd List.nil_prefix happart.1
  | cons name names ih =>
      rw [locate_cons, Option.bind_eq_some_iff] at h
      obtain ⟨child, hmember, hrest⟩ := h
      cases names' with
      | nil => exact absurd List.nil_prefix happart.2
      | cons name' names' =>
          rw [replaceAt_cons hmember, follow, ownGet_putChild hmember, follow]
          split_ifs with hsame
          · subst hsame
            rw [ownGet_of_member hmember]
            exact ih hrest (apart_cons.mp happart)
          · rfl

theorem locate_replaceAt_apart (h : locate names d = some located) (happart : Apart names names')
    (value : Document ν) : locate names' (replaceAt value names d) = locate names' d := by
  induction names generalizing d names' with
  | nil => exact absurd List.nil_prefix happart.1
  | cons name names ih =>
      rw [locate_cons, Option.bind_eq_some_iff] at h
      obtain ⟨child, hmember, hrest⟩ := h
      cases names' with
      | nil => exact absurd List.nil_prefix happart.2
      | cons name' names' =>
          rw [replaceAt_cons hmember, locate_cons, member_putChild hmember, locate_cons]
          split_ifs with hsame
          · subst hsame
            rw [hmember]
            exact ih hrest (apart_cons.mp happart)
          · rfl

/-- Replacements at two locations of which neither is at or below the other. -/
theorem replaceAt_comm (happart : Apart names names') (value value' d : Document ν) :
    replaceAt value' names' (replaceAt value names d) =
      replaceAt value names (replaceAt value' names' d) := by
  induction names generalizing d names' with
  | nil => exact absurd List.nil_prefix happart.1
  | cons name names ih =>
      cases names' with
      | nil => exact absurd List.nil_prefix happart.2
      | cons name' names' =>
          -- below one member the rest of the locations are apart; two members do not meet
          by_cases hsame : name' = name
          · subst hsame
            cases hmember : member name' d with
            | none => rw [replaceAt_none hmember, replaceAt_none hmember, replaceAt_none hmember]
            | some child =>
                rw [replaceAt_cons hmember, replaceAt_cons hmember,
                  @replaceAt_cons _ _ (replaceAt value names child) _
                    (by rw [member_putChild hmember, if_pos rfl]),
                  @replaceAt_cons _ _ (replaceAt value' names' child) _
                    (by rw [member_putChild hmember, if_pos rfl]),
                  putChild_putChild, putChild_putChild, ih (apart_cons.mp happart)]
          · cases hmember : member name d with
            | none =>
                cases hmember' : member name' d with
                | none =>
                    rw [replaceAt_none hmember, replaceAt_none hmember', replaceAt_none hmember]
                | some child' =>
                    have hnone : member name (putChild name' (replaceAt value' names' child') d) = none := by
                      rw [member_putChild hmember', if_neg (Ne.symm hsame), hmember]
                    rw [replaceAt_none hmember, replaceAt_cons hmember', replaceAt_none hnone]
            | some child =>
                cases hmember' : member name' d with
                | none =>
                    have hnone : member name' (putChild name (replaceAt value names child) d) = none := by
                      rw [member_putChild hmember, if_neg hsame, hmember']
                    rw [replaceAt_none hmember', replaceAt_cons hmember, replaceAt_none hnone]
                | some child' =>
                    rw [replaceAt_cons hmember, replaceAt_cons hmember',
                      @replaceAt_cons _ _ child' _
                        (by rw [member_putChild hmember, if_neg hsame, hmember']),
                      @replaceAt_cons _ _ child _
                        (by rw [member_putChild hmember', if_neg (Ne.symm hsame), hmember]),
                      putChild_comm hsame]

/-! ### Pointers -/

variable {pointer : JsString}

/-- The texts that the code reads as a path: pointers, less the one of the
member with no name. -/
theorem segments_eq_ok : segments pointer = .ok names ↔
    names ≠ [] ∧ pointer = pointerText names ∧ pointer ≠ [slash] := by
  cases pointer with
  | nil =>
      refine ⟨fun h => (by cases h), fun h => ?_⟩
      obtain ⟨hnames, htext, -⟩ := h
      obtain ⟨name, others, rfl⟩ := List.exists_cons_of_ne_nil hnames
      cases htext
  | cons unit rest =>
      rw [segments]
      by_cases hguard : unit ≠ slash || rest = []
      · rw [if_pos hguard]
        refine ⟨fun h => (by cases h), fun h => ?_⟩
        obtain ⟨hnames, htext, hroot⟩ := h
        obtain ⟨name, others, rfl⟩ := List.exists_cons_of_ne_nil hnames
        rw [pointerText, List.flatMap_cons, List.cons_append, List.cons.injEq] at htext
        rcases Bool.or_eq_true_iff.mp hguard with hunit | hrest
        · exact absurd htext.1 (of_decide_eq_true hunit)
        · rw [htext.1, of_decide_eq_true hrest] at hroot
          exact absurd rfl hroot
      · rw [if_neg hguard]
        simp only [Bool.or_eq_true, decide_eq_true_eq, not_or, not_not] at hguard
        obtain ⟨rfl, hrest⟩ := hguard
        have hroot : slash :: rest ≠ [slash] := fun h => hrest (List.cons.inj h).2
        rw [and_iff_left hroot, ← readNames_eq_some]
        cases readNames rest with
        | none => exact ⟨fun h => (by cases h), fun h => (by cases h)⟩
        | some read =>
          exact ⟨fun h => congrArg some (Except.ok.inj h), fun h => congrArg _ (Option.some.inj h)⟩

theorem setExisting_eq_ok : setExisting J d pointer value = .ok result ↔
    ∃ names, names ≠ [] ∧ pointer = pointerText names ∧ pointer ≠ [slash] ∧
      setAlong J (.error (ascii "override path does not exist: " ++ pointer)) value names d =
        .ok result := by
  have hbind : setExisting J d pointer value = (segments pointer >>= fun path =>
    setAlong J (.error (ascii "override path does not exist: " ++ pointer)) value path d) := rfl
  rw [hbind]
  constructor
  · intro h
    cases hpath : segments pointer with
    | error e =>
        rw [hpath] at h
        cases h
    | ok names =>
        rw [hpath] at h
        obtain ⟨hnames, htext, hroot⟩ := segments_eq_ok.mp hpath
        exact ⟨names, hnames, htext, hroot, h⟩
  · rintro ⟨names, hnames, htext, hroot, h⟩
    rw [segments_eq_ok.mpr ⟨hnames, htext, hroot⟩]
    exact h

theorem valueAt_eq (hnames : names ≠ []) (hroot : pointerText names ≠ [slash]) :
    valueAt J d (pointerText names) = .ok (follow J names d) := by
  rw [valueAt, segments_eq_ok.mpr ⟨hnames, rfl, hroot⟩]
  rfl

theorem valueAt_refused (hroot : pointerText names = [slash] ∨ names = []) (d' : Document ν) :
    valueAt J d' (pointerText names) = valueAt J d (pointerText names) := by
  rw [valueAt, valueAt]
  rcases hroot with hroot | rfl
  · rw [hroot]
    rfl
  · rfl

/-! ### What an override does -/

/-- An override does what its pointer and its value say. -/
structure Overrides (J : JsArrays ν) (d : Document ν) (pointer : JsString) (value : Document ν) :
    Prop where
  succeeds : (∃ result, setExisting J d pointer value = .ok result) ↔
    ∃ names located, names ≠ [] ∧ pointer = pointerText names ∧ locate names d = some located
  replaces : ∀ names result, pointer = pointerText names →
    setExisting J d pointer value = .ok result → result = replaceAt value names d
  written : ∀ result, setExisting J d pointer value = .ok result →
    valueAt J result pointer = .ok (some value)
  others : ∀ names names' result, pointer = pointerText names → Apart names names' →
    setExisting J d pointer value = .ok result →
      valueAt J result (pointerText names') = valueAt J d (pointerText names')

/-- The pointer is not `/` with a member that has no name, and it does not set
the length of an array. -/
structure Ordinary (J : JsArrays ν) (d : Document ν) (pointer : JsString) (value : Document ν) :
    Prop where
  named : ¬(pointer = [slash] ∧ (member [] d).isSome)
  element : ¬∃ names items n, pointer = pointerText (names ++ [lengthKey]) ∧
    locate names d = some (.arr items) ∧ J.toLength value = some n

theorem setExisting_of_locate (hnames : names ≠ []) (hroot : pointerText names ≠ [slash])
    (h : locate names d = some located) :
    setExisting J d (pointerText names) value = .ok (replaceAt value names d) :=
  setExisting_eq_ok.mpr ⟨names, hnames, rfl, hroot, setAlong_of_locate hnames h⟩

theorem pointerText_nameless : pointerText [[]] = [slash] := rfl

/-- Where an ordinary override succeeds, its pointer denotes a location. -/
theorem Ordinary.locate (hordinary : Ordinary J d pointer value)
    (h : setExisting J d pointer value = .ok result) :
    ∃ names located, names ≠ [] ∧ pointer = pointerText names ∧ pointer ≠ [slash] ∧
      locate names d = some located ∧ result = replaceAt value names d := by
  obtain ⟨names, hnames, htext, hroot, hset⟩ := setExisting_eq_ok.mp h
  rcases setAlong_eq_ok hnames hset with ⟨located, hlocated⟩ | ⟨before, items, n, hbefore, hitems, hlength⟩
  · rw [setAlong_of_locate hnames hlocated] at hset
    exact ⟨names, located, hnames, htext, hroot, hlocated, (Except.ok.inj hset).symm⟩
  · exact absurd ⟨before, items, n, hbefore ▸ htext, hitems, hlength⟩ hordinary.element

theorem Ordinary.overrides (hordinary : Ordinary J d pointer value) : Overrides J d pointer value where
  succeeds := by
    constructor
    · rintro ⟨result, h⟩
      obtain ⟨names, located, hnames, htext, -, hlocated, -⟩ := hordinary.locate h
      exact ⟨names, located, hnames, htext, hlocated⟩
    · rintro ⟨names, located, hnames, rfl, hlocated⟩
      refine ⟨_, setExisting_of_locate hnames (fun hroot => hordinary.named ⟨hroot, ?_⟩) hlocated⟩
      obtain rfl := pointerText_inj (hroot.trans pointerText_nameless.symm)
      rw [locate_cons, Option.bind_eq_some_iff] at hlocated
      obtain ⟨child, hmember, -⟩ := hlocated
      rw [hmember]
      rfl
  replaces names result htext h := by
    obtain ⟨names', located, -, htext', -, -, rfl⟩ := hordinary.locate h
    rw [pointerText_inj (htext.symm.trans htext')]
  written result h := by
    obtain ⟨names, located, hnames, rfl, hroot, hlocated, rfl⟩ := hordinary.locate h
    rw [valueAt_eq hnames hroot, follow_replaceAt hlocated]
  others names names' result htext happart h := by
    obtain ⟨names₁, located, -, htext₁, -, hlocated, rfl⟩ := hordinary.locate h
    obtain rfl := pointerText_inj (htext.symm.trans htext₁)
    by_cases hroot : pointerText names' = [slash] ∨ names' = []
    · exact valueAt_refused hroot _
    · rw [not_or] at hroot
      rw [valueAt_eq hroot.2 hroot.1, valueAt_eq hroot.2 hroot.1,
        follow_replaceAt_apart hlocated happart]

/-- A member that has no name is not set, and the length of an array is. -/
theorem Overrides.ordinary (h : Overrides J d pointer value) : Ordinary J d pointer value where
  named := by
    rintro ⟨rfl, hmember⟩
    obtain ⟨child, hmember⟩ := Option.isSome_iff_exists.mp hmember
    have hlocated : Templates.locate [[]] d = some child := by
      rw [locate_cons, hmember]
      rfl
    obtain ⟨result, hset⟩ := h.succeeds.mpr
      ⟨[[]], child, List.cons_ne_nil _ _, pointerText_nameless.symm, hlocated⟩
    obtain ⟨-, -, -, hroot, -⟩ := setExisting_eq_ok.mp hset
    exact hroot rfl
  element := by
    rintro ⟨names, items, n, rfl, hitems, hlength⟩
    have hnames : names ++ [lengthKey] ≠ [] :=
      List.append_ne_nil_of_right_ne_nil _ (List.cons_ne_nil _ _)
    have hroot : pointerText (names ++ [lengthKey]) ≠ [slash] := by
      rw [← pointerText_nameless]
      intro htext
      have hlast := congrArg List.getLast? (pointerText_inj htext)
      rw [List.getLast?_concat] at hlast
      exact absurd (Option.some.inj hlast) (by decide +kernel)
    obtain ⟨result, hset⟩ := setAlong_length hitems hlength
    obtain ⟨names', located, -, htext, hlocated⟩ :=
      h.succeeds.mp ⟨result, setExisting_eq_ok.mpr ⟨_, hnames, rfl, hroot, hset⟩⟩
    rw [← pointerText_inj htext, locate_append, hitems, Option.bind_some, locate_cons, member,
      arrayIndex_lengthKey] at hlocated
    cases hlocated

/-! ### Lists of overrides -/

/-- An override of a location that the document has; the one of a member with no
name has no pointer that the code reads. -/
def Addresses (d : Document ν) (item : JsString × Document ν) : Prop :=
  item.1 ≠ [slash] ∧
    ∃ names located, names ≠ [] ∧ item.1 = pointerText names ∧ locate names d = some located

/-- The locations of two pointers are apart. -/
def PointersApart (item item' : JsString × Document ν) : Prop :=
  ∀ names names', item.1 = pointerText names → item'.1 = pointerText names' → Apart names names'

/-- The names of a pointer. -/
def namesOf (pointer : JsString) : List JsString := (readNames pointer.tail).getD []

/-- The document after an override. -/
def overridden (d : Document ν) (item : JsString × Document ν) : Document ν :=
  replaceAt item.2 (namesOf item.1) d

theorem namesOf_pointerText (hnames : names ≠ []) : namesOf (pointerText names) = names := by
  obtain ⟨name, others, rfl⟩ := List.exists_cons_of_ne_nil hnames
  have hread := readNames_eq_some.mpr
    ⟨hnames, (rfl : slash :: (pointerText (name :: others)).tail = pointerText (name :: others))⟩
  rw [namesOf, hread]
  rfl

variable {items : List (JsString × Document ν)}

/-- Overrides of locations that are apart, one after the other. -/
theorem setAll_eq (haddresses : ∀ item ∈ items, Addresses d item)
    (happart : items.Pairwise PointersApart) : setAll J d items = .ok (items.foldl overridden d) := by
  induction items generalizing d with
  | nil => rfl
  | cons item items ih =>
      obtain ⟨hroot, names, located, hnames, htext, hlocated⟩ := haddresses item List.mem_cons_self
      obtain ⟨hfirst, hrest⟩ := List.pairwise_cons.mp happart
      have hset : setExisting J d item.1 item.2 = .ok (overridden d item) := by
        rw [overridden, htext, namesOf_pointerText hnames]
        exact setExisting_of_locate hnames (htext ▸ hroot) hlocated
      rw [setAll, List.foldlM_cons, hset]
      refine ih (fun other hother => ?_) hrest
      obtain ⟨hroot', names', located', hnames', htext', hlocated'⟩ :=
        haddresses other (List.mem_cons_of_mem _ hother)
      refine ⟨hroot', names', located', hnames', htext', ?_⟩
      rw [overridden, htext, namesOf_pointerText hnames]
      rwa [locate_replaceAt_apart hlocated (hfirst other hother names names' htext htext')]

/-- Arguments that are all read are overrides one after the other. -/
theorem setRaw_eq {parse : JsString → Option (Document ν)} {raws : List JsString}
    (h : List.Forall₂ (fun raw item => override parse raw = .ok item) raws items) :
    setRaw J parse d raws = setAll J d items := by
  induction h generalizing d with
  | nil => rfl
  | @cons raw item raws items hread _ ih =>
      have hbind : setRaw J parse d (raw :: raws) =
          ((override parse raw >>= fun item => setExisting J d item.1 item.2) >>= fun d =>
            setRaw J parse d raws) := rfl
      rw [hbind, hread]
      show (setExisting J d item.1 item.2 >>= fun d => setRaw J parse d raws) = _
      rw [setAll, List.foldlM_cons]
      exact congrArg _ (funext fun d => ih)

theorem PointersApart.symm {item item' : JsString × Document ν} (h : PointersApart item item') :
    PointersApart item' item :=
  fun names names' htext htext' => (h names' names htext' htext).symm

instance : Std.Symm (@PointersApart ν) := ⟨fun _ _ h => PointersApart.symm h⟩

/-- The order of overrides of locations that are apart is of no account. -/
theorem setAll_perm {items' : List (JsString × Document ν)} (hperm : items'.Perm items)
    (haddresses : ∀ item ∈ items, Addresses d item) (happart : items.Pairwise PointersApart) :
    setAll J d items' = .ok (items.foldl overridden d) := by
  have happart' : items'.Pairwise PointersApart :=
    (hperm.pairwise_iff fun h => PointersApart.symm h).mpr happart
  rw [setAll_eq (fun item hitem => haddresses item (hperm.mem_iff.mp hitem)) happart']
  refine congrArg _ (hperm.foldl_eq' ?_ d)
  intro item hitem other hother document
  by_cases hsame : item = other
  · rw [hsame]
  obtain ⟨-, names, -, hnames, htext, -⟩ := haddresses item (hperm.mem_iff.mp hitem)
  obtain ⟨-, names', -, hnames', htext', -⟩ := haddresses other (hperm.mem_iff.mp hother)
  have hapart : PointersApart item other :=
    happart'.forall hitem hother hsame
  rw [overridden, overridden, overridden, overridden, htext, htext', namesOf_pointerText hnames,
    namesOf_pointerText hnames']
  exact replaceAt_comm (hapart names names' htext htext') _ _ _

/-- An override does what its pointer says exactly when the pointer is not `/`
for a member and does not set the length of an array; and arguments that
override locations that are apart have one result in every order. -/
theorem setExisting_overrides (J : JsArrays ν) (parse : JsString → Option (Document ν)) :
    (∀ d pointer value, Overrides J d pointer value ↔ Ordinary J d pointer value) ∧
      ∀ {d : Document ν} {items : List (JsString × Document ν)},
        (∀ item ∈ items, Addresses d item) → items.Pairwise PointersApart →
          ∃ result, ∀ raws items', items'.Perm items →
            List.Forall₂ (fun raw item => override parse raw = .ok item) raws items' →
              setRaw J parse d raws = .ok result :=
  ⟨fun _ _ _ => ⟨Overrides.ordinary, Ordinary.overrides⟩,
    fun haddresses happart => ⟨_, fun _ _ hperm hraws =>
      (setRaw_eq hraws).trans (setAll_perm hperm haddresses happart)⟩⟩

/-! ### The arguments of a template -/

namespace Arguments

/-- Lengths are numbers. -/
def arrays : JsArrays Nat where
  ofLength n := n
  toLength
    | .num n => if n < 2 ^ 32 then some n else none
    | _ => none

/-- `{"args": ["a", "b"], "image": "x"}`. -/
def manifest : Document Nat :=
  .obj [(ascii "args", .arr [some (.str (ascii "a")), some (.str (ascii "b"))]),
    (ascii "image", .str (ascii "x"))]

/-- `JSON.parse`, of two texts. -/
def parse (text : JsString) : Option (Document Nat) :=
  if text = ascii "null" then some .null else if text = ascii "true" then some (.bool true) else none

def first : JsString × Document Nat := (pointerText [ascii "args", ascii "0"], .null)

def image : JsString × Document Nat := (pointerText [ascii "image"], .bool true)

end Arguments

/-- `/args/length` empties the arguments. -/
theorem setExisting_length :
    ¬∀ (d : Document Nat) pointer value, Overrides Arguments.arrays d pointer value := by
  intro h
  have hordinary := (h Arguments.manifest (pointerText [ascii "args", lengthKey]) (.num 0)).ordinary
  exact hordinary.element ⟨[ascii "args"], _, 0, rfl, rfl, rfl⟩

/-- An argument and the image are set in both orders. -/
theorem setExisting_overrides_arguments :
    ∃ result,
      setRaw Arguments.arrays Arguments.parse Arguments.manifest
        [ascii "/args/0=null", ascii "/image=true"] = .ok result ∧
      setRaw Arguments.arrays Arguments.parse Arguments.manifest
        [ascii "/image=true", ascii "/args/0=null"] = .ok result := by
  have haddresses : ∀ item ∈ [Arguments.first, Arguments.image], Addresses Arguments.manifest item := by
    intro item hitem
    rcases List.mem_cons.mp hitem with rfl | hitem
    · exact ⟨by decide +kernel, [ascii "args", ascii "0"], _, List.cons_ne_nil _ _, rfl, rfl⟩
    · rw [List.mem_singleton.mp hitem]
      exact ⟨by decide +kernel, [ascii "image"], _, List.cons_ne_nil _ _, rfl, rfl⟩
  have happart : [Arguments.first, Arguments.image].Pairwise PointersApart := by
    refine List.pairwise_pair.mpr fun names names' htext htext' => ?_
    rw [← pointerText_inj htext, ← pointerText_inj htext']
    exact ⟨by decide +kernel, by decide +kernel⟩
  obtain ⟨result, hresult⟩ :=
    (setExisting_overrides Arguments.arrays Arguments.parse).2 haddresses happart
  exact ⟨result, hresult _ _ (List.Perm.refl _) (.cons rfl (.cons rfl .nil)),
    hresult _ _ (List.Perm.swap _ _ _) (.cons rfl (.cons rfl .nil))⟩

end PocketCoder.Templates
