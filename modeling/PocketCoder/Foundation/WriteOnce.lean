import PocketCoder.Foundation.Table

/-!
Stores whose keys are written once: a value is put under a key that has none,
and stays there. A request that its sender has given up may still be served
later; `abandoned` holds such requests.
-/

namespace PocketCoder.Foundation

structure WriteOnce (κ V : Type) where
  objects : JsMap κ V
  abandoned : List (κ × V)

namespace WriteOnce

variable {κ V : Type} [DecidableEq κ] {store store' store'' : WriteOnce κ V} {k k' : κ} {v v' : V}

def empty : WriteOnce κ V := ⟨.empty, []⟩

def get (store : WriteOnce κ V) (k : κ) : Option V := store.objects.get k

/-- The keys that are in use, in the order they were written in. -/
def keys (store : WriteOnce κ V) : List κ := store.objects.entries.rows.map Prod.fst

def putIfAbsent (store : WriteOnce κ V) (k : κ) (v : V) : WriteOnce κ V :=
  { store with objects := store.objects.set k ((store.get k).getD v) }

def abandon (store : WriteOnce κ V) (k : κ) (v : V) : WriteOnce κ V :=
  { store with abandoned := (k, v) :: store.abandoned }

@[simp] theorem get_empty (k : κ) : (empty : WriteOnce κ V).get k = none := rfl

theorem mem_keys : k ∈ store.keys ↔ ∃ v, store.get k = some v := by
  constructor
  · intro h
    obtain ⟨entry, hmem, rfl⟩ := List.mem_map.mp h
    exact ⟨entry.2, JsMap.get_of_mem hmem⟩
  · rintro ⟨v, hget⟩
    exact List.mem_map.mpr ⟨_, JsMap.mem_of_get hget, rfl⟩

theorem get_putIfAbsent (store : WriteOnce κ V) (k : κ) (v : V) (k' : κ) :
    (store.putIfAbsent k v).get k' =
      if k' = k then some ((store.get k).getD v) else store.get k' :=
  JsMap.get_set _ _ _ _

/-- Whatever is in the store after a request was there, or is what was sent. -/
theorem of_putIfAbsent (h : (store.putIfAbsent k v).get k' = some v') :
    store.get k' = some v' ∨ k' = k ∧ v' = v ∧ store.get k' = none := by
  rw [get_putIfAbsent] at h
  by_cases hk : k' = k
  · subst hk
    rw [if_pos rfl] at h
    cases hget : store.get k' with
    | none =>
        rw [hget] at h
        exact .inr ⟨rfl, (Option.some.inj h).symm, rfl⟩
    | some old =>
        rw [hget] at h
        exact .inl h
  · rw [if_neg hk] at h
    exact .inl h

/-- Everything that is in the first store is in the second. -/
def Extends (store store' : WriteOnce κ V) : Prop :=
  ∀ k v, store.get k = some v → store'.get k = some v

theorem Extends.refl (store : WriteOnce κ V) : Extends store store := fun _ _ hget => hget

theorem Extends.trans (h : Extends store store') (h' : Extends store' store'') :
    Extends store store'' :=
  fun k v hget => h' k v (h k v hget)

theorem extends_abandon (store : WriteOnce κ V) (k : κ) (v : V) :
    Extends store (store.abandon k v) :=
  fun _ _ hget => hget

theorem extends_putIfAbsent (store : WriteOnce κ V) (k : κ) (v : V) :
    Extends store (store.putIfAbsent k v) := by
  intro k' v' hget
  rw [get_putIfAbsent]
  by_cases hk : k' = k
  · subst hk
    rw [if_pos rfl, hget, Option.getD_some]
  · rw [if_neg hk]
    exact hget

end WriteOnce

end PocketCoder.Foundation
