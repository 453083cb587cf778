import Mathlib.Data.List.Nodup

/-!
Tables: lists of rows of which no two have the same key.

A database table is one, with the primary key of its rows, and so is a
`Map` of JavaScript, with the pairs it iterates over in the order they were
inserted in. Every operation keeps the keys distinct by construction, and
the lemmas reduce a lookup after an operation to a lookup before it.
-/

namespace PocketCoder.Foundation

/-- Rows with distinct keys, in the order of their insertion. -/
structure Table {ρ κ : Type} (key : ρ → κ) where
  rows : List ρ
  /-- No two rows have the same key. -/
  nodup : (rows.map key).Nodup

namespace Table

variable {ρ κ : Type} [DecidableEq κ] {key : ρ → κ}

def empty : Table key := ⟨[], List.nodup_nil⟩

/-- The row with a key. -/
def get? (table : Table key) (k : κ) : Option ρ :=
  table.rows.find? fun row => key row = k

/-- Every row replaced by its image, which has the same key. -/
def update (table : Table key) (f : ρ → ρ) (hf : ∀ row, key (f row) = key row) : Table key where
  rows := table.rows.map f
  nodup := by
    have hkeys : key ∘ f = key := funext hf
    rw [List.map_map, hkeys]
    exact table.nodup

/-- The row with a key replaced, when there is one. -/
def updateAt (table : Table key) (k : κ) (f : ρ → ρ) (hf : ∀ row, key (f row) = key row) :
    Table key :=
  table.update (fun row => if key row = k then f row else row) fun row => by
    by_cases hk : key row = k
    · rw [if_pos hk, hf]
    · rw [if_neg hk]

/-- A new row at the end, unless its key is taken. -/
def insert (table : Table key) (row : ρ) : Table key :=
  if h : key row ∈ table.rows.map key then table
  else
    { rows := table.rows ++ [row]
      nodup := by
        rw [List.map_append, List.map_singleton, List.nodup_append]
        refine ⟨table.nodup, List.nodup_singleton _, fun a ha b hb => ?_⟩
        rw [List.mem_singleton] at hb
        exact fun heq => h (hb ▸ heq ▸ ha) }

/-- The table without the row of a key. -/
def delete (table : Table key) (k : κ) : Table key where
  rows := table.rows.filter fun row => key row ≠ k
  nodup := (List.filter_sublist.map key).nodup table.nodup

theorem get?_eq_some {table : Table key} {k : κ} {row : ρ} :
    table.get? k = some row ↔ row ∈ table.rows ∧ key row = k := by
  constructor
  · intro h
    exact ⟨List.mem_of_find?_eq_some h, by simpa using List.find?_some h⟩
  · rintro ⟨hmem, hk⟩
    obtain ⟨other, hother⟩ : ∃ other, table.get? k = some other := by
      rw [← Option.isSome_iff_exists, get?, List.find?_isSome]
      exact ⟨row, hmem, by simpa using hk⟩
    have hmem' := List.mem_of_find?_eq_some hother
    have hk' : key other = k := by simpa using List.find?_some hother
    rw [hother, List.inj_on_of_nodup_map table.nodup hmem' hmem (hk'.trans hk.symm)]

theorem key_of_get? {table : Table key} {k : κ} {row : ρ} (h : table.get? k = some row) :
    key row = k :=
  (get?_eq_some.mp h).2

theorem get?_of_mem {table : Table key} {row : ρ} (h : row ∈ table.rows) :
    table.get? (key row) = some row :=
  get?_eq_some.mpr ⟨h, rfl⟩

theorem get?_eq_none {table : Table key} {k : κ} :
    table.get? k = none ↔ ∀ row ∈ table.rows, key row ≠ k := by
  simp [get?, List.find?_eq_none]

@[simp] theorem get?_empty (k : κ) : (empty : Table key).get? k = none := rfl

theorem get?_update (table : Table key) (f : ρ → ρ) (hf : ∀ row, key (f row) = key row) (k : κ) :
    (table.update f hf).get? k = (table.get? k).map f := by
  have hkeys : ((fun row => decide (key row = k)) ∘ f) = fun row => decide (key row = k) := by
    funext row
    simp [hf row]
  rw [get?, update, List.find?_map, hkeys]
  rfl

theorem get?_updateAt (table : Table key) (k : κ) (f : ρ → ρ)
    (hf : ∀ row, key (f row) = key row) (k' : κ) :
    (table.updateAt k f hf).get? k' =
      if k' = k then (table.get? k).map f else table.get? k' := by
  rw [updateAt, get?_update]
  cases hrow : table.get? k' with
  | none =>
      by_cases hk : k' = k
      · rw [if_pos hk, ← hk, hrow]
        rfl
      · rw [if_neg hk]
        rfl
  | some row =>
      have hkey := key_of_get? hrow
      by_cases hk : k' = k
      · rw [if_pos hk, ← hk, hrow, Option.map_some, if_pos hkey]
        rfl
      · rw [if_neg hk, Option.map_some, if_neg (hkey ▸ hk)]

theorem updateAt_of_none {table : Table key} {k : κ} (h : table.get? k = none) (f : ρ → ρ)
    (hf : ∀ row, key (f row) = key row) : table.updateAt k f hf = table := by
  obtain ⟨rows, nodup⟩ := table
  have hrows : rows.map (fun row => if key row = k then f row else row) = rows := by
    conv_rhs => rw [← List.map_id rows]
    refine List.map_congr_left fun row hrow => ?_
    exact if_neg (get?_eq_none.mp h row hrow)
  simp only [updateAt, update, hrows]

theorem get?_insert (table : Table key) (row : ρ) (k : κ) :
    (table.insert row).get? k = (table.get? k).or (if key row = k then some row else none) := by
  unfold insert
  split
  · rename_i hmem
    obtain ⟨other, hother, hkey⟩ := List.mem_map.mp hmem
    by_cases hk : key row = k
    · rw [← hk, ← hkey, get?_of_mem hother, Option.some_or]
    · rw [if_neg hk, Option.or_none]
  · rw [get?, List.find?_append, List.find?_singleton]
    simp only [decide_eq_true_eq]
    rfl

theorem rows_insert (table : Table key) (row : ρ) :
    (table.insert row).rows = table.rows ∨
      key row ∉ table.rows.map key ∧ (table.insert row).rows = table.rows ++ [row] := by
  by_cases h : key row ∈ table.rows.map key
  · rw [insert, dif_pos h]
    exact .inl rfl
  · rw [insert, dif_neg h]
    exact .inr ⟨h, rfl⟩

theorem get?_delete (table : Table key) (k k' : κ) :
    (table.delete k).get? k' = if k' = k then none else table.get? k' := by
  rw [get?, delete, List.find?_filter]
  by_cases hk : k' = k
  · rw [if_pos hk, List.find?_eq_none]
    intro row _
    simp [hk]
  · rw [if_neg hk, get?]
    congr 1
    funext row
    by_cases hkey : key row = k'
    · simp [hkey, hk]
    · simp [hkey]

end Table

/-- A `Map` of JavaScript: its pairs, in the order of their insertion. -/
structure JsMap (κ α : Type) where
  entries : Table (Prod.fst : κ × α → κ)

namespace JsMap

variable {κ α : Type} [DecidableEq κ]

def empty : JsMap κ α := ⟨Table.empty⟩

/-- `map.get(k)`. -/
def get (map : JsMap κ α) (k : κ) : Option α := (map.entries.get? k).map Prod.snd

/-- `map.has(k)`. -/
def has (map : JsMap κ α) (k : κ) : Bool := (map.get k).isSome

/-- `map.set(k, a)`: an existing entry keeps its place. -/
def set (map : JsMap κ α) (k : κ) (a : α) : JsMap κ α :=
  ⟨(map.entries.updateAt k (fun entry => (entry.1, a)) fun _ => rfl).insert (k, a)⟩

/-- `map.delete(k)`. -/
def delete (map : JsMap κ α) (k : κ) : JsMap κ α := ⟨map.entries.delete k⟩

def size (map : JsMap κ α) : Nat := map.entries.rows.length

@[simp] theorem get_empty (k : κ) : (empty : JsMap κ α).get k = none := rfl

theorem get_set (map : JsMap κ α) (k : κ) (a : α) (k' : κ) :
    (map.set k a).get k' = if k' = k then some a else map.get k' := by
  rw [get, set, Table.get?_insert, Table.get?_updateAt]
  by_cases hk : k' = k
  · subst hk
    cases hrow : map.entries.get? k' <;> simp
  · simp [hk, Ne.symm hk, get]

theorem get_delete (map : JsMap κ α) (k k' : κ) :
    (map.delete k).get k' = if k' = k then none else map.get k' := by
  rw [get, delete, Table.get?_delete]
  split <;> rfl

theorem get_of_mem {map : JsMap κ α} {entry : κ × α} (h : entry ∈ map.entries.rows) :
    map.get entry.1 = some entry.2 := by
  rw [get, Table.get?_of_mem h]
  rfl

/-- A new key is the last one. -/
theorem rows_set_of_none {map : JsMap κ α} {k : κ} (h : map.get k = none) (a : α) :
    (map.set k a).entries.rows = map.entries.rows ++ [(k, a)] := by
  have hnone : map.entries.get? k = none := Option.map_eq_none_iff.mp h
  rw [set, Table.updateAt_of_none hnone]
  refine (map.entries.rows_insert (k, a)).elim (fun hsame => ?_) And.right
  have hfound := Table.get?_insert map.entries (k, a) k
  rw [Table.get?, hsame, ← Table.get?, hnone, if_pos rfl, Option.none_or] at hfound
  cases hfound

/-- A key that is there keeps its place. -/
theorem rows_set_of_some {map : JsMap κ α} {k : κ} {b : α} (h : map.get k = some b) (a : α) :
    (map.set k a).entries.rows =
      map.entries.rows.map fun entry => if entry.1 = k then (entry.1, a) else entry := by
  obtain ⟨entry, hentry, -⟩ := Option.map_eq_some_iff.mp h
  obtain ⟨hmem, hkey⟩ := Table.get?_eq_some.mp hentry
  have hrows : (map.entries.updateAt k (fun entry => (entry.1, a)) fun _ => rfl).rows =
      map.entries.rows.map fun entry => if entry.1 = k then (entry.1, a) else entry := rfl
  rw [set]
  refine (Table.rows_insert _ (k, a)).elim (fun hsame => hsame.trans hrows) fun hnew => ?_
  refine absurd ?_ hnew.1
  rw [hrows]
  exact List.mem_map.mpr ⟨(entry.1, a), List.mem_map.mpr ⟨entry, hmem, if_pos hkey⟩, hkey⟩

theorem mem_of_get {map : JsMap κ α} {k : κ} {a : α} (h : map.get k = some a) :
    (k, a) ∈ map.entries.rows := by
  obtain ⟨entry, hentry, rfl⟩ := Option.map_eq_some_iff.mp h
  obtain ⟨hmem, rfl⟩ := Table.get?_eq_some.mp hentry
  exact hmem

theorem has_eq_true {map : JsMap κ α} {k : κ} : map.has k = true ↔ ∃ a, map.get k = some a := by
  rw [has, Option.isSome_iff_exists]

theorem has_set (map : JsMap κ α) (k : κ) (a : α) (k' : κ) :
    (map.set k a).has k' = (decide (k' = k) || map.has k') := by
  rw [has, get_set]
  by_cases hk : k' = k
  · simp [hk]
  · simp [hk, has]

theorem has_delete (map : JsMap κ α) (k k' : κ) :
    (map.delete k).has k' = (!decide (k' = k) && map.has k') := by
  rw [has, get_delete]
  by_cases hk : k' = k
  · simp [hk]
  · simp [hk, has]

/-- A loop that only deletes. -/
theorem get_of_foldl {β : Type} {f : JsMap κ α → β → JsMap κ α} {k : κ}
    (hf : ∀ {map b a}, (f map b).get k = some a → map.get k = some a) {items : List β}
    {map : JsMap κ α} {a : α} (h : (items.foldl f map).get k = some a) : map.get k = some a := by
  induction items generalizing map with
  | nil => exact h
  | cons b items ih => exact hf (ih h)

/-! ### Loops -/

section

variable {β : Type} {key : β → κ} {value : β → α}

theorem get_foldl_delete (items : List β) (map : JsMap κ α) (k : κ) :
    (items.foldl (fun map b => map.delete (key b)) map).get k =
      if k ∈ items.map key then none else map.get k := by
  induction items generalizing map with
  | nil => rfl
  | cons b items ih =>
      rw [List.foldl_cons, ih, get_delete, List.map_cons]
      by_cases hk : k = key b
      · simp [hk]
      · simp [hk]

theorem get_foldl_set_of_notMem {items : List β} {k : κ} (h : k ∉ items.map key)
    (map : JsMap κ α) :
    (items.foldl (fun map b => map.set (key b) (value b)) map).get k = map.get k := by
  induction items generalizing map with
  | nil => rfl
  | cons b items ih =>
      rw [List.map_cons, List.mem_cons, not_or] at h
      rw [List.foldl_cons, ih h.2, get_set, if_neg h.1]

theorem get_foldl_set_of_mem {items : List β} (hnodup : (items.map key).Nodup) {b : β}
    (h : b ∈ items) (map : JsMap κ α) :
    (items.foldl (fun map b => map.set (key b) (value b)) map).get (key b) = some (value b) := by
  induction items generalizing map with
  | nil => exact absurd h List.not_mem_nil
  | cons first items ih =>
      rw [List.map_cons, List.nodup_cons] at hnodup
      rw [List.foldl_cons]
      rcases List.mem_cons.mp h with rfl | h
      · rw [get_foldl_set_of_notMem hnodup.1, get_set, if_pos rfl]
      · exact ih hnodup.2 h _

/-- New keys are added in their order. -/
theorem rows_foldl_set {items : List β} (hnodup : (items.map key).Nodup) {map : JsMap κ α}
    (hnew : ∀ b ∈ items, map.get (key b) = none) :
    (items.foldl (fun map b => map.set (key b) (value b)) map).entries.rows =
      map.entries.rows ++ items.map fun b => (key b, value b) := by
  induction items generalizing map with
  | nil => exact (List.append_nil _).symm
  | cons b items ih =>
      rw [List.map_cons, List.nodup_cons] at hnodup
      rw [List.foldl_cons, ih hnodup.2, rows_set_of_none (hnew b List.mem_cons_self),
        List.append_assoc, List.map_cons]
      · rfl
      · intro other hother
        rw [get_set, if_neg, hnew other (List.mem_cons_of_mem _ hother)]
        exact fun heq => hnodup.1 (heq ▸ List.mem_map_of_mem hother)

end

end JsMap

end PocketCoder.Foundation
