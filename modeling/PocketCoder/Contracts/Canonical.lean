import PocketCoder.Foundation.JsValues

/-!
Canonical JSON: object keys sorted recursively, no white space. Template
manifests and workspace create requests are compared by the digest of this text,
so that their equality is independent of key order.

`sortValue` copies an object into a fresh one, key by key. The copy enumerates
its integer-like keys first, whatever the order of the copying, and the key
`__proto__` names no property of it but its prototype: that member of the
object is lost. `JSON.stringify` writes `null` for a number that is not finite,
which `JSON.parse` makes of `1e400`. Those two apart the text depends on the
contents of a value alone, and on all of them.
-/

namespace PocketCoder.Contracts

open Foundation JsString JsValue

variable {ν α β : Type}

/-! ### The sorted copy -/

def protoKey : JsString := ascii "__proto__"

/-- `out[key] = value`. An assignment to `__proto__` sets the prototype of a plain
object, or does nothing, and adds no property. -/
def assign (out : List (JsString × α)) (property : JsString × α) : List (JsString × α) :=
  if property.1 = protoKey then out else ownSet property.1 property.2 out

/-- The properties in the order of their sorted keys. -/
def sortedKeys (properties : List (JsString × α)) : List (JsString × α) :=
  properties.insertionSort fun property property' => Le property.1 property'.1

/-- A fresh object with the properties, assigned in the order of their sorted keys. -/
def copySorted (properties : List (JsString × α)) : List (JsString × α) :=
  (sortedKeys properties).foldl assign []

mutual

def sortValue : JsValue ν → JsValue ν
  | .arr items => .arr (sortItems items)
  | .obj properties => .obj (copySorted (sortProperties properties))
  | v => v

def sortItems : List (JsValue ν) → List (JsValue ν)
  | [] => []
  | v :: vs => sortValue v :: sortItems vs

def sortProperties : List (JsString × JsValue ν) → List (JsString × JsValue ν)
  | [] => []
  | (key, v) :: properties => (key, sortValue v) :: sortProperties properties

end

def canonicalJson (N : JsNumbers ν) (value : JsValue ν) : JsString := (sortValue value).text N

/-- The digest of a value; the parameter is SHA-256 in hexadecimal digits. -/
def digestOf (N : JsNumbers ν) (sha256Hex : JsString → JsString) (value : JsValue ν) : JsString :=
  ascii "sha256:" ++ sha256Hex (canonicalJson N value)

/-! ### Equal contents -/

variable (N : JsNumbers ν)

mutual

/-- The values are equal as JSON values: `-0` is `0`, and an object is a map from
its keys. -/
def Same : JsValue ν → JsValue ν → Prop
  | .null, .null => True
  | .bool b, .bool b' => b = b'
  | .num n, .num n' => N.unsigned n = N.unsigned n'
  | .str s, .str s' => s = s'
  | .arr items, .arr items' => SameItems items items'
  | .obj properties, .obj properties' =>
      (∀ key, key ∈ keys properties ↔ key ∈ keys properties') ∧ SameProperties properties properties'
  | _, _ => False

def SameItems : List (JsValue ν) → List (JsValue ν) → Prop
  | [], [] => True
  | v :: vs, w :: ws => Same v w ∧ SameItems vs ws
  | _, _ => False

/-- Each property has the same value in the other object. -/
def SameProperties : List (JsString × JsValue ν) → List (JsString × JsValue ν) → Prop
  | [], _ => True
  | (key, v) :: properties, properties' =>
      (∃ w, (key, w) ∈ properties' ∧ Same v w) ∧ SameProperties properties properties'

end

mutual

/-- The value without its members of the name `__proto__`, and with `null` for
a number that is not finite. -/
def strip : JsValue ν → JsValue ν
  | .num n => if N.isFinite n then .num n else .null
  | .arr items => .arr (stripItems items)
  | .obj properties =>
      .obj ((stripProperties properties).filter fun property => property.1 ≠ protoKey)
  | v => v

def stripItems : List (JsValue ν) → List (JsValue ν)
  | [] => []
  | v :: vs => strip v :: stripItems vs

def stripProperties : List (JsString × JsValue ν) → List (JsString × JsValue ν)
  | [] => []
  | (key, v) :: properties => (key, strip v) :: stripProperties properties

end

mutual

/-- The value with its keys in order and no minus at a zero: one of all the values
with its contents. -/
def normal : JsValue ν → JsValue ν
  | .num n => .num (N.unsigned n)
  | .arr items => .arr (normalItems items)
  | .obj properties => .obj (sortedKeys (normalProperties properties))
  | v => v

def normalItems : List (JsValue ν) → List (JsValue ν)
  | [] => []
  | v :: vs => normal v :: normalItems vs

def normalProperties : List (JsString × JsValue ν) → List (JsString × JsValue ν)
  | [] => []
  | (key, v) :: properties => (key, normal v) :: normalProperties properties

end

variable {N}

theorem sortItems_eq (items : List (JsValue ν)) : sortItems items = items.map sortValue := by
  induction items with
  | nil => rfl
  | cons v vs ih => exact congrArg _ ih

theorem sortProperties_eq (properties : List (JsString × JsValue ν)) :
    sortProperties properties = mapValues sortValue properties := by
  induction properties with
  | nil => rfl
  | cons property properties ih => exact congrArg _ ih

theorem stripItems_eq (items : List (JsValue ν)) : stripItems N items = items.map (strip N) := by
  induction items with
  | nil => rfl
  | cons v vs ih => exact congrArg _ ih

theorem stripProperties_eq (properties : List (JsString × JsValue ν)) :
    stripProperties N properties = mapValues (strip N) properties := by
  induction properties with
  | nil => rfl
  | cons property properties ih => exact congrArg _ ih

theorem normalItems_eq (items : List (JsValue ν)) : normalItems N items = items.map (normal N) := by
  induction items with
  | nil => rfl
  | cons v vs ih => exact congrArg _ ih

theorem normalProperties_eq (properties : List (JsString × JsValue ν)) :
    normalProperties N properties = mapValues (normal N) properties := by
  induction properties with
  | nil => rfl
  | cons property properties ih => exact congrArg _ ih

/-! ### Sorting and copying -/

instance : Std.Total fun property property' : JsString × α => Le property.1 property'.1 :=
  ⟨fun _ _ => le_total _ _⟩

instance : IsTrans (JsString × α) fun property property' => Le property.1 property'.1 :=
  ⟨fun _ _ _ => le_trans⟩

theorem sortedKeys_perm (properties : List (JsString × α)) :
    (sortedKeys properties).Perm properties :=
  List.perm_insertionSort _ _

theorem sortedKeys_mapValues (f : α → β) (properties : List (JsString × α)) :
    mapValues f (sortedKeys properties) = sortedKeys (mapValues f properties) :=
  List.map_insertionSort _ _ _ _ fun _ _ _ _ => Iff.rfl

theorem eq_of_nodup_keys {properties : List (JsString × α)} (h : (keys properties).Nodup)
    {property property' : JsString × α} (hmem : property ∈ properties)
    (hmem' : property' ∈ properties) (hkey : property.1 = property'.1) : property = property' :=
  List.inj_on_of_nodup_map h hmem hmem' hkey

/-- Sorted properties with distinct keys are determined by what they contain. -/
theorem eq_of_sorted {properties properties' : List (JsString × α)}
    (h : (keys properties).Nodup)
    (hle : properties.Pairwise fun property property' => Le property.1 property'.1)
    (hle' : properties'.Pairwise fun property property' => Le property.1 property'.1)
    (hperm : properties.Perm properties') : properties = properties' :=
  List.Perm.eq_of_pairwise (fun _ _ hmem hmem' hlt hlt' =>
    eq_of_nodup_keys h hmem (hperm.mem_iff.mpr hmem') (hlt.antisymm hlt')) hle hle' hperm

theorem sortedKeys_pairwise (properties : List (JsString × α)) :
    (sortedKeys properties).Pairwise fun property property' => Le property.1 property'.1 :=
  List.pairwise_insertionSort _ _

theorem sortedKeys_nodup {properties : List (JsString × α)} (h : (keys properties).Nodup) :
    (keys (sortedKeys properties)).Nodup :=
  (((sortedKeys_perm properties).map Prod.fst).nodup_iff).mpr h

/-- The sorted properties do not depend on their order. -/
theorem sortedKeys_congr {properties properties' : List (JsString × α)}
    (h : (keys properties).Nodup) (hperm : properties.Perm properties') :
    sortedKeys properties = sortedKeys properties' :=
  eq_of_sorted (sortedKeys_nodup h) (sortedKeys_pairwise _) (sortedKeys_pairwise _)
    (((sortedKeys_perm properties).trans hperm).trans (sortedKeys_perm properties').symm)

theorem assign_mapValues (f : α → β) (out : List (JsString × α)) (property : JsString × α) :
    mapValues f (assign out property) = assign (mapValues f out) (property.1, f property.2) := by
  rw [assign, assign]
  split_ifs
  · rfl
  · exact mapValues_ownSet f _ _ _

theorem copySorted_mapValues (f : α → β) (properties : List (JsString × α)) :
    mapValues f (copySorted properties) = copySorted (mapValues f properties) := by
  have hfold : ∀ (sorted out : List (JsString × α)),
      mapValues f (sorted.foldl assign out) = (mapValues f sorted).foldl assign (mapValues f out) := by
    intro sorted
    induction sorted with
    | nil => exact fun out => rfl
    | cons property sorted ih =>
        intro out
        rw [List.foldl_cons, ih, assign_mapValues]
        rfl
  rw [copySorted, copySorted, hfold, sortedKeys_mapValues]
  rfl

theorem copySorted_enumerated (properties : List (JsString × α)) :
    Enumerated (copySorted properties) := by
  refine List.foldlRecOn (motive := Enumerated) _ _ List.Pairwise.nil fun out hout property _ => ?_
  rw [assign]
  split_ifs
  · exact hout
  · exact hout.ownSet _ _

/-- Assigning properties of other keys adds each of them but `__proto__`. -/
theorem foldl_assign_perm (properties out : List (JsString × α))
    (h : (keys (properties ++ out)).Nodup) :
    (properties.foldl assign out).Perm
      (properties.filter (fun property => property.1 ≠ protoKey) ++ out) := by
  induction properties generalizing out with
  | nil => exact List.Perm.refl _
  | cons property properties ih =>
      rw [List.foldl_cons, assign]
      have hmiddle : (keys (properties ++ property :: out)).Nodup :=
        ((List.perm_middle.map Prod.fst).nodup_iff).mpr h
      have hnew : property.1 ∉ keys out := fun hmem => by
        rw [keys, List.map_append, List.map_cons] at hmiddle
        exact (List.nodup_cons.mp hmiddle.of_append_right).1 hmem
      split_ifs with hproto
      · have hrest : (keys (properties ++ out)).Nodup := (List.nodup_cons.mp h).2
        rw [List.filter_cons_of_neg (by simp [hproto])]
        exact ih out hrest
      · have hset := perm_ownSet property.2 hnew
        have hrest : (keys (properties ++ ownSet property.1 property.2 out)).Nodup :=
          (((List.Perm.append_left properties hset).map Prod.fst).nodup_iff).mpr hmiddle
        rw [List.filter_cons_of_pos (by simp [hproto])]
        exact ((ih _ hrest).trans (List.Perm.append_left _ hset)).trans List.perm_middle

/-- A copy has the properties but `__proto__`. -/
theorem copySorted_perm {properties : List (JsString × α)} (h : (keys properties).Nodup) :
    (copySorted properties).Perm (properties.filter fun property => property.1 ≠ protoKey) := by
  have hcopy := foldl_assign_perm (sortedKeys properties) []
    (by rw [List.append_nil]; exact sortedKeys_nodup h)
  rw [List.append_nil] at hcopy
  exact hcopy.trans ((sortedKeys_perm properties).filter _)

theorem copySorted_nodup {properties : List (JsString × α)} :
    (keys (copySorted properties)).Nodup :=
  (copySorted_enumerated properties).nodup

theorem foldl_assign_filter (properties out : List (JsString × α)) :
    (properties.filter fun property => property.1 ≠ protoKey).foldl assign out =
      properties.foldl assign out := by
  induction properties generalizing out with
  | nil => rfl
  | cons property properties ih =>
      by_cases hproto : property.1 = protoKey
      · rw [List.filter_cons_of_neg (by simp [hproto]), ih, List.foldl_cons, assign, if_pos hproto]
      · rw [List.filter_cons_of_pos (by simp [hproto]), List.foldl_cons, ih, List.foldl_cons]

/-- A copy depends on the properties but `__proto__` alone, and not on their order. -/
theorem copySorted_congr {properties properties' : List (JsString × α)}
    (h : (keys properties).Nodup)
    (hperm : (properties.filter fun property => property.1 ≠ protoKey).Perm
      (properties'.filter fun property => property.1 ≠ protoKey)) :
    copySorted properties = copySorted properties' := by
  have hsorted : (sortedKeys properties).filter (fun property => property.1 ≠ protoKey) =
      (sortedKeys properties').filter (fun property => property.1 ≠ protoKey) := by
    refine eq_of_sorted ?_ ((sortedKeys_pairwise _).filter _) ((sortedKeys_pairwise _).filter _) ?_
    · exact (List.filter_sublist.map Prod.fst).nodup (sortedKeys_nodup h)
    · exact (((sortedKeys_perm properties).filter _).trans hperm).trans
        ((sortedKeys_perm properties').filter _).symm
  rw [copySorted, copySorted, ← foldl_assign_filter, hsorted, foldl_assign_filter]

/-- A copy is copied as it is. -/
theorem copySorted_copySorted {properties : List (JsString × α)} (h : (keys properties).Nodup) :
    copySorted (copySorted properties) = copySorted properties := by
  refine copySorted_congr copySorted_nodup ?_
  have hcopy := (copySorted_perm h).filter fun property => decide (property.1 ≠ protoKey)
  simpa only [List.filter_filter, Bool.and_self] using hcopy

theorem mem_copySorted {property : JsString × α} {properties : List (JsString × α)}
    (h : property ∈ copySorted properties) : property ∈ properties := by
  have hfold : ∀ (sorted out : List (JsString × α)), property ∈ sorted.foldl assign out →
      property ∈ sorted ∨ property ∈ out := by
    intro sorted
    induction sorted with
    | nil => exact fun out hmem => .inr hmem
    | cons first sorted ih =>
        intro out hmem
        rcases ih _ hmem with hmem | hmem
        · exact .inl (List.mem_cons_of_mem _ hmem)
        · rw [assign] at hmem
          split_ifs at hmem
          · exact .inr hmem
          · rcases mem_ownSet hmem with rfl | hmem
            · exact .inl List.mem_cons_self
            · exact .inr hmem
  rcases hfold _ _ h with hmem | hmem
  · exact (sortedKeys_perm properties).mem_iff.mp hmem
  · exact absurd hmem List.not_mem_nil

theorem filter_mapValues (f : α → β) (properties : List (JsString × α)) :
    (mapValues f properties).filter (fun property => property.1 ≠ protoKey) =
      mapValues f (properties.filter fun property => property.1 ≠ protoKey) :=
  List.filter_map

/-! ### Equal values have one normal value -/

theorem distinct_item {items : List (JsValue ν)} (h : Distinct (.arr items)) {v : JsValue ν}
    (hv : v ∈ items) : v.Distinct :=
  itemsObjects_iff.mp h v hv

theorem distinct_property {properties : List (JsString × JsValue ν)}
    (h : Distinct (.obj properties)) {property : JsString × JsValue ν}
    (hproperty : property ∈ properties) : property.2.Distinct :=
  propertiesObjects_iff.mp h.2 property hproperty

theorem sameItems_iff {items items' : List (JsValue ν)} :
    SameItems N items items' ↔ List.Forall₂ (Same N) items items' := by
  induction items generalizing items' with
  | nil => cases items' <;> simp [SameItems]
  | cons v vs ih => cases items' <;> simp [SameItems, ih]

theorem sameProperties_iff {properties properties' : List (JsString × JsValue ν)} :
    SameProperties N properties properties' ↔
      ∀ property ∈ properties, ∃ w, (property.1, w) ∈ properties' ∧ Same N property.2 w := by
  induction properties with
  | nil => simp [SameProperties]
  | cons property properties ih => rw [SameProperties, ih, List.forall_mem_cons]

/-- Objects with the same keys and the same values have the same properties. -/
theorem perm_of_same_keys {properties properties' : List (JsString × α)}
    (h : (keys properties).Nodup) (h' : (keys properties').Nodup)
    (hkeys : ∀ key, key ∈ keys properties ↔ key ∈ keys properties')
    (hsub : ∀ property ∈ properties, property ∈ properties') : properties.Perm properties' := by
  have hlength : properties'.length ≤ properties.length := by
    have hperm := (List.perm_ext_iff_of_nodup h h').mpr hkeys
    have hlength := hperm.length_eq
    rw [keys, keys, List.length_map, List.length_map] at hlength
    exact hlength.ge
  exact (List.subperm_of_subset (List.Nodup.of_map _ h) hsub).perm_of_length_le hlength

theorem forall₂_iff_map_eq {r : α → α → Prop} {f : α → β} {l l' : List α}
    (h : ∀ a ∈ l, ∀ b ∈ l', (r a b ↔ f a = f b)) : List.Forall₂ r l l' ↔ l.map f = l'.map f := by
  induction l generalizing l' with
  | nil => cases l' <;> simp
  | cons a l ih =>
      cases l' with
      | nil => simp
      | cons b l' =>
          rw [List.forall₂_cons, List.map_cons, List.map_cons, List.cons.injEq,
            h a List.mem_cons_self b List.mem_cons_self,
            ih fun a ha b hb => h a (List.mem_cons_of_mem _ ha) b (List.mem_cons_of_mem _ hb)]

theorem same_iff_normal {v w : JsValue ν} (hv : v.Distinct) (hw : w.Distinct) :
    Same N v w ↔ normal N v = normal N w := by
  induction v using JsValue.induction generalizing w with
  | null => cases w <;> simp [Same, normal]
  | bool b => cases w <;> simp [Same, normal]
  | num n => cases w <;> simp [Same, normal]
  | str s => cases w <;> simp [Same, normal]
  | arr items ih =>
      cases w with
      | arr items' =>
          rw [Same, normal, normal, JsValue.arr.injEq, sameItems_iff, normalItems_eq, normalItems_eq]
          exact forall₂_iff_map_eq fun v hmem w hmem' =>
            ih v hmem (distinct_item hv hmem) (distinct_item hw hmem')
      | _ => simp [Same, normal]
  | obj properties ih =>
      cases w with
      | obj properties' =>
          have hmember : ∀ property ∈ properties, ∀ property' ∈ properties',
              (Same N property.2 property'.2 ↔ normal N property.2 = normal N property'.2) :=
            fun property hp property' hp' =>
              ih property hp (distinct_property hv hp) (distinct_property hw hp')
          rw [Same, normal, normal, JsValue.obj.injEq, sameProperties_iff, normalProperties_eq,
            normalProperties_eq]
          -- members in any order have one sorted copy, and a sorted copy has the same members
          constructor
          · rintro ⟨hkeys, hvalues⟩
            refine sortedKeys_congr (by rw [keys_mapValues]; exact hv.1) ?_
            refine perm_of_same_keys (by rw [keys_mapValues]; exact hv.1)
              (by rw [keys_mapValues]; exact hw.1)
              (by rw [keys_mapValues, keys_mapValues]; exact hkeys) fun property hproperty => ?_
            obtain ⟨⟨key, v⟩, hmem, rfl⟩ := List.mem_map.mp hproperty
            obtain ⟨w, hmem', hsame⟩ := hvalues _ hmem
            rw [(hmember _ hmem _ hmem').mp hsame]
            exact List.mem_map_of_mem hmem'
          · intro hsorted
            have hperm : (mapValues (normal N) properties).Perm (mapValues (normal N) properties') :=
              (sortedKeys_perm _).symm.trans (hsorted ▸ sortedKeys_perm _)
            refine ⟨fun key => ?_, fun property hproperty => ?_⟩
            · have hkeys := (hperm.map Prod.fst).mem_iff (a := key)
              rwa [← keys, ← keys, keys_mapValues, keys_mapValues] at hkeys
            · have hmem : (property.1, normal N property.2) ∈ mapValues (normal N) properties' :=
                hperm.mem_iff.mp (List.mem_map_of_mem hproperty)
              obtain ⟨⟨key, w⟩, hmem', heq⟩ := List.mem_map.mp hmem
              obtain ⟨rfl, hvalue⟩ := Prod.mk.inj heq
              exact ⟨w, hmem', (hmember _ hproperty _ hmem').mpr hvalue.symm⟩
      | _ => simp [Same, normal]

/-! ### What is read back from the text -/

/-- The sorted copy enumerates the properties of its objects in order. -/
theorem sortValue_ordered (v : JsValue ν) : (sortValue v).Ordered := by
  induction v using JsValue.induction with
  | null => trivial
  | bool b => trivial
  | num n => trivial
  | str s => trivial
  | arr items ih =>
      rw [sortValue, sortItems_eq]
      refine itemsObjects_iff.mpr fun v hv => ?_
      obtain ⟨w, hw, rfl⟩ := List.mem_map.mp hv
      exact ih w hw
  | obj properties ih =>
      rw [sortValue, sortProperties_eq]
      refine ⟨copySorted_enumerated _, propertiesObjects_iff.mpr fun property hproperty => ?_⟩
      obtain ⟨other, hother, rfl⟩ := List.mem_map.mp (mem_copySorted hproperty)
      exact ih other hother

variable (N)

/-- `JSON.parse(canonicalJson(value))`. -/
def readBack (v : JsValue ν) : JsValue ν := (sortValue v).shown N

variable {N}

theorem parse_canonicalJson (v : JsValue ν) : parse N (canonicalJson N v) = some (readBack N v) :=
  parse_text (sortValue_ordered v)

theorem canonicalJson_eq (v : JsValue ν) : canonicalJson N v = (readBack N v).text N :=
  (text_shown _).symm

/-- Two texts are equal if and only if they are read as equal values. -/
theorem canonicalJson_inj {v w : JsValue ν} :
    canonicalJson N v = canonicalJson N w ↔ readBack N v = readBack N w := by
  constructor
  · intro h
    have hread := parse_canonicalJson (N := N) v
    rw [h, parse_canonicalJson] at hread
    exact (Option.some.inj hread).symm
  · intro h
    rw [canonicalJson_eq, canonicalJson_eq, h]

theorem readBack_num (n : ν) :
    readBack N (.num n) = if N.isFinite n then .num (N.unsigned n) else .null := rfl

theorem readBack_arr (items : List (JsValue ν)) :
    readBack N (.arr items) = .arr (items.map (readBack N)) := by
  rw [readBack, sortValue, shown, shownItems_eq, sortItems_eq, List.map_map]
  rfl

theorem readBack_obj (properties : List (JsString × JsValue ν)) :
    readBack N (.obj properties) = .obj (copySorted (mapValues (readBack N) properties)) := by
  rw [readBack, sortValue, shown, shownProperties_eq, sortProperties_eq, copySorted_mapValues,
    mapValues_map]
  rfl

/-- A finite number without its sign at zero stays as it is. -/
theorem unsigned_unsigned {n : ν} (h : N.isFinite n = true) :
    N.unsigned (N.unsigned n) = N.unsigned n := by
  have hread := N.read_text (N.unsigned n) (by rw [N.isFinite_unsigned, h])
  rw [N.text_unsigned, N.read_text n h] at hread
  exact (Option.some.inj hread).symm

/-- What is read back has the contents of the value, `__proto__` members and
infinite numbers apart. -/
theorem normal_readBack {v : JsValue ν} (hv : v.Distinct) :
    normal N (readBack N v) = normal N (strip N v) := by
  induction v using JsValue.induction with
  | null => rfl
  | bool b => rfl
  | num n =>
      rw [readBack_num, strip]
      split_ifs with h
      · rw [normal, normal, unsigned_unsigned h]
      · rfl
  | str s => rfl
  | arr items ih =>
      rw [readBack_arr, strip, normal, normal, normalItems_eq, normalItems_eq, stripItems_eq,
        List.map_map, List.map_map]
      exact congrArg _ (List.map_congr_left fun v hmem => ih v hmem (distinct_item hv hmem))
  | obj properties ih =>
      have hvalues : mapValues (fun v => normal N (readBack N v)) properties =
          mapValues (fun v => normal N (strip N v)) properties :=
        mapValues_congr fun property hp => ih property hp (distinct_property hv hp)
      rw [readBack_obj, strip, normal, normal, normalProperties_eq, normalProperties_eq,
        stripProperties_eq, copySorted_mapValues, mapValues_map, ← filter_mapValues, mapValues_map,
        hvalues]
      refine congrArg _ (sortedKeys_congr copySorted_nodup (copySorted_perm ?_))
      rw [keys_mapValues]
      exact hv.1

/-- What is read back depends on the contents of the value alone. -/
theorem readBack_normal {v : JsValue ν} (hv : v.Distinct) :
    readBack N (normal N v) = readBack N v := by
  induction v using JsValue.induction with
  | null => rfl
  | bool b => rfl
  | num n =>
      rw [normal, readBack_num, readBack_num, N.isFinite_unsigned]
      split_ifs with h
      · rw [unsigned_unsigned h]
      · rfl
  | str s => rfl
  | arr items ih =>
      rw [normal, normalItems_eq, readBack_arr, readBack_arr, List.map_map]
      exact congrArg _ (List.map_congr_left fun v hmem => ih v hmem (distinct_item hv hmem))
  | obj properties ih =>
      have hvalues : mapValues (fun v => readBack N (normal N v)) properties =
          mapValues (readBack N) properties :=
        mapValues_congr fun property hp => ih property hp (distinct_property hv hp)
      rw [normal, normalProperties_eq, readBack_obj, readBack_obj, sortedKeys_mapValues,
        mapValues_map, hvalues]
      refine congrArg _ (copySorted_congr (sortedKeys_nodup ?_) ((sortedKeys_perm _).filter _))
      rw [keys_mapValues]
      exact hv.1

/-- What is read back does not depend on `__proto__` members, and has `null` for
an infinite number. -/
theorem readBack_strip {v : JsValue ν} (hv : v.Distinct) :
    readBack N (strip N v) = readBack N v := by
  induction v using JsValue.induction with
  | null => rfl
  | bool b => rfl
  | num n =>
      rw [readBack_num, strip]
      split_ifs with h
      · rw [readBack_num, if_pos h]
      · rfl
  | str s => rfl
  | arr items ih =>
      rw [strip, stripItems_eq, readBack_arr, readBack_arr, List.map_map]
      exact congrArg _ (List.map_congr_left fun v hmem => ih v hmem (distinct_item hv hmem))
  | obj properties ih =>
      have hvalues : mapValues (fun v => readBack N (strip N v)) properties =
          mapValues (readBack N) properties :=
        mapValues_congr fun property hp => ih property hp (distinct_property hv hp)
      rw [strip, stripProperties_eq, readBack_obj, readBack_obj, ← filter_mapValues, mapValues_map,
        hvalues]
      refine congrArg _ (copySorted_congr ?_ ?_)
      · refine (List.filter_sublist.map Prod.fst).nodup ?_
        rw [← keys, keys_mapValues]
        exact hv.1
      · simp only [List.filter_filter, Bool.and_self, List.Perm.refl]

/-- What is read back is read back from its own text. -/
theorem readBack_readBack {v : JsValue ν} (hv : v.Distinct) :
    readBack N (readBack N v) = readBack N v := by
  induction v using JsValue.induction with
  | null => rfl
  | bool b => rfl
  | num n =>
      rw [readBack_num]
      split_ifs with h
      · rw [readBack_num, N.isFinite_unsigned, if_pos h, unsigned_unsigned h]
      · rfl
  | str s => rfl
  | arr items ih =>
      rw [readBack_arr, readBack_arr, List.map_map]
      exact congrArg _ (List.map_congr_left fun v hmem => ih v hmem (distinct_item hv hmem))
  | obj properties ih =>
      have hvalues : mapValues (fun v => readBack N (readBack N v)) properties =
          mapValues (readBack N) properties :=
        mapValues_congr fun property hp => ih property hp (distinct_property hv hp)
      rw [readBack_obj, readBack_obj, copySorted_mapValues, mapValues_map, hvalues]
      refine congrArg _ (copySorted_copySorted ?_)
      rw [keys_mapValues]
      exact hv.1

theorem strip_distinct {v : JsValue ν} (hv : v.Distinct) : (strip N v).Distinct := by
  induction v using JsValue.induction with
  | null => trivial
  | bool b => trivial
  | num n =>
      rw [strip]
      split_ifs <;> trivial
  | str s => trivial
  | arr items ih =>
      rw [strip, stripItems_eq]
      refine itemsObjects_iff.mpr fun v hmem => ?_
      obtain ⟨w, hw, rfl⟩ := List.mem_map.mp hmem
      exact ih w hw (distinct_item hv hw)
  | obj properties ih =>
      rw [strip, stripProperties_eq, filter_mapValues]
      refine ⟨?_, propertiesObjects_iff.mpr fun property hproperty => ?_⟩
      · rw [keys_mapValues]
        exact (List.filter_sublist.map Prod.fst).nodup hv.1
      · obtain ⟨other, hother, rfl⟩ := List.mem_map.mp hproperty
        have hmem := (List.mem_filter.mp hother).1
        exact ih other hmem (distinct_property hv hmem)

/-- The texts are equal if and only if the values are, `__proto__` members and
infinite numbers apart. -/
theorem canonicalJson_eq_iff {v w : JsValue ν} (hv : v.Distinct) (hw : w.Distinct) :
    canonicalJson N v = canonicalJson N w ↔ Same N (strip N v) (strip N w) := by
  rw [canonicalJson_inj, same_iff_normal (strip_distinct hv) (strip_distinct hw)]
  constructor
  · intro h
    rw [← normal_readBack hv, ← normal_readBack hw, h]
  · intro h
    rw [← readBack_strip hv, ← readBack_normal (strip_distinct hv), h,
      readBack_normal (strip_distinct hw), readBack_strip hw]

/-- Equal values have one text. -/
theorem canonicalJson_of_same {v w : JsValue ν} (hv : v.Distinct) (hw : w.Distinct)
    (h : Same N v w) : canonicalJson N v = canonicalJson N w := by
  rw [canonicalJson_inj, ← readBack_normal hv, (same_iff_normal hv hw).mp h, readBack_normal hw]

/-- The canonical texts of two values, and their digests where the hash tells the
texts apart, agree exactly when the values do, provided that the values are equal
whenever they are equal after `__proto__` members are dropped and infinite
numbers read as `null`. The text of a value is read as a value with that text.
No object has two members of one name, as in all that `JSON.parse` produces
(`parse_ordered`). -/
theorem canonicalJson_faithful {a b : JsValue ν} (ha : a.Distinct) (hb : b.Distinct) :
    ((canonicalJson N a = canonicalJson N b ↔ Same N a b) ↔
        (Same N (strip N a) (strip N b) → Same N a b)) ∧
      (∃ v, parse N (canonicalJson N a) = some v ∧ canonicalJson N v = canonicalJson N a) ∧
      ∀ sha256Hex : JsString → JsString,
        (sha256Hex (canonicalJson N a) = sha256Hex (canonicalJson N b) →
          canonicalJson N a = canonicalJson N b) →
        ((digestOf N sha256Hex a = digestOf N sha256Hex b ↔ Same N a b) ↔
          (Same N (strip N a) (strip N b) → Same N a b)) := by
  have htexts : (canonicalJson N a = canonicalJson N b ↔ Same N a b) ↔
      (Same N (strip N a) (strip N b) → Same N a b) := by
    rw [← canonicalJson_eq_iff ha hb]
    exact ⟨fun h => h.mp, fun h => ⟨h, canonicalJson_of_same ha hb⟩⟩
  refine ⟨htexts, ⟨readBack N a, parse_canonicalJson a, ?_⟩, fun sha256Hex hinj => ?_⟩
  · rw [canonicalJson_inj, readBack_readBack ha]
  · have hdigests : digestOf N sha256Hex a = digestOf N sha256Hex b ↔
        canonicalJson N a = canonicalJson N b := by
      rw [digestOf, digestOf, List.append_right_inj]
      exact ⟨hinj, congrArg sha256Hex⟩
    rw [hdigests]
    exact htexts

/-! ### Numbers that are natural or infinite -/

def isDigit (unit : UInt16) : Bool := 0x30 ≤ unit && unit ≤ 0x39

theorem isDigit_decimal {n : Nat} {unit : UInt16} (h : unit ∈ decimal n) : isDigit unit = true := by
  obtain ⟨c, hc, rfl⟩ := List.mem_map.mp h
  obtain ⟨hlower, hupper, hunit⟩ := toNat_digit (Nat.isDigit_of_mem_toDigits (by decide) (by decide) hc)
  rw [isDigit, Bool.and_eq_true, decide_eq_true_eq, decide_eq_true_eq, UInt16.le_iff_toNat_le,
    UInt16.le_iff_toNat_le, hunit]
  exact ⟨hlower, hupper⟩

theorem startsNumber_of_isDigit {unit : UInt16} (h : isDigit unit = true) :
    startsNumber unit = true := by
  rw [startsNumber, ← isDigit, h, Bool.or_true]

theorem digitsValue_decimal (n : Nat) : digitsValue (decimal n) = n := by
  have hfold : ∀ (cs : List Char) (init : Nat), (∀ c ∈ cs, c.isDigit = true) →
      (cs.map fun c => UInt16.ofNat c.toNat).foldl (fun n unit => n * 10 + (unit.toNat - 48)) init =
        Nat.ofDigitChars 10 cs init := by
    intro cs
    induction cs with
    | nil => exact fun _ _ => Nat.ofDigitChars_nil.symm
    | cons c cs ih =>
        intro init hdigits
        obtain ⟨-, -, hunit⟩ := toNat_digit (hdigits c List.mem_cons_self)
        rw [List.map_cons, List.foldl_cons, hunit, Nat.ofDigitChars_cons,
          ih _ fun c hc => hdigits c (List.mem_cons_of_mem _ hc), Nat.mul_comm]
        rfl
  rw [digitsValue, decimal, hfold _ _ fun c hc =>
    Nat.isDigit_of_mem_toDigits (by decide) (by decide) hc]
  exact Nat.ofDigitChars_ten_toDigits

/-- The natural numbers, and `Infinity` for what is not one. -/
def naturals : JsNumbers (Option Nat) where
  isFinite := Option.isSome
  unsigned := id
  text
    | some n => decimal n
    | none => ascii "Infinity"
  read literal :=
    if literal.isEmpty then none
    else some (if literal.all isDigit then some (digitsValue literal) else none)
  isFinite_unsigned _ := rfl
  text_unsigned _ := rfl
  text_starts n h := by
    cases n with
    | none => cases h
    | some n =>
        have hne : decimal n ≠ [] := by
          rw [decimal, ne_eq, List.map_eq_nil_iff]
          exact Nat.toDigits_ne_nil
        obtain ⟨unit, units, hunits⟩ := List.exists_cons_of_ne_nil hne
        have hmem : unit ∈ decimal n := hunits ▸ List.mem_cons_self
        show ((decimal n).head?.any startsNumber) = true
        rw [hunits]
        exact startsNumber_of_isDigit (isDigit_decimal hmem)
  text_literal n h unit hunit := by
    cases n with
    | none => cases h
    | some n => rw [inNumber, startsNumber_of_isDigit (isDigit_decimal hunit)]; rfl
  read_text n h := by
    cases n with
    | none => cases h
    | some n =>
        have hdigits : (decimal n).all isDigit = true :=
          List.all_eq_true.mpr fun unit hunit => isDigit_decimal hunit
        have hsome : (decimal n).isEmpty = false := by
          rw [List.isEmpty_eq_false_iff, decimal, ne_eq, List.map_eq_nil_iff]
          exact Nat.toDigits_ne_nil
        simp only [hsome, hdigits, if_pos, digitsValue_decimal]
        rfl

/-- Two objects with the same members in another order. -/
theorem canonicalJson_faithful_reordered :
    canonicalJson naturals (.obj [(ascii "b", .num (some 1)), (ascii "a", .arr [.null])]) =
      canonicalJson naturals (.obj [(ascii "a", .arr [.null]), (ascii "b", .num (some 1))]) := by
  have hkeys : (ascii "b") ≠ ascii "a" := by decide +kernel
  have ha : Distinct (.obj [(ascii "b", .num (some 1)), (ascii "a", .arr [.null])] :
      JsValue (Option Nat)) :=
    ⟨by simp [keys, hkeys], trivial, ⟨trivial, trivial⟩, trivial⟩
  have hb : Distinct (.obj [(ascii "a", .arr [.null]), (ascii "b", .num (some 1))] :
      JsValue (Option Nat)) :=
    ⟨by simp [keys, hkeys.symm], ⟨trivial, trivial⟩, trivial, trivial⟩
  have hsame : Same naturals (.obj [(ascii "b", .num (some 1)), (ascii "a", .arr [.null])])
      (.obj [(ascii "a", .arr [.null]), (ascii "b", .num (some 1))]) := by
    refine ⟨fun key => (List.Perm.swap (ascii "a") (ascii "b") []).mem_iff,
      ⟨.num (some 1), ?_, rfl⟩, ⟨.arr [.null], ?_, trivial, trivial⟩, trivial⟩
    · exact List.mem_cons_of_mem _ List.mem_cons_self
    · exact List.mem_cons_self
  exact ((canonicalJson_faithful ha hb).1.mpr fun _ => hsame).mpr hsame

/-- Objects with and without a member `__proto__` have one text. -/
theorem canonicalJson_proto :
    parse naturals (ascii "\x7b\"__proto__\":null\x7d") = some (.obj [(protoKey, .null)]) ∧
      parse naturals (ascii "\x7b\x7d") = some (.obj []) ∧
      ¬(canonicalJson naturals (.obj [(protoKey, .null)]) = canonicalJson naturals (.obj []) ↔
        Same naturals (.obj [(protoKey, .null)]) (.obj [])) := by
  have htext : ascii "\x7b\"__proto__\":null\x7d" =
      text naturals (.obj [(protoKey, .null)]) := by decide +kernel
  have hempty : ascii "\x7b\x7d" = text naturals (.obj []) := by decide +kernel
  refine ⟨?_, ?_, fun h => ?_⟩
  · have hordered : Ordered (.obj [(protoKey, .null)] : JsValue (Option Nat)) :=
      ⟨List.pairwise_singleton _ _, trivial, trivial⟩
    rw [htext, parse_text hordered]
    rfl
  · have hordered : Ordered (.obj [] : JsValue (Option Nat)) := ⟨List.Pairwise.nil, trivial⟩
    rw [hempty, parse_text hordered]
    rfl
  · have hcopy : canonicalJson naturals (.obj [(protoKey, .null)]) =
        canonicalJson naturals (.obj []) := rfl
    have hkeys := (h.mp hcopy).1 protoKey
    exact absurd (hkeys.mp List.mem_cons_self) List.not_mem_nil

end PocketCoder.Contracts
