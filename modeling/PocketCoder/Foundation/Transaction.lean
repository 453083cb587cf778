import PocketCoder.Foundation.Generator

/-!
Transactions: computations on a state that may throw, after which the state
is the one before (`committed`).

Each combinator has one lemma that says when it succeeds and with what; a
transaction is taken apart with them from its first step to its last.
-/

namespace PocketCoder.Foundation

/-- A computation on tables `σ` that may throw `ε`. -/
abbrev Transaction (σ ε α : Type) := StateT σ (Except ε) α

namespace Transaction

variable {σ ε α β : Type} {s s' : σ}

/-- The state after a transaction: an exception rolls it back. -/
def committed (task : Transaction σ ε α) (s : σ) : σ :=
  match task s with
  | .ok (_, s') => s'
  | .error _ => s

/-- A check that throws. -/
def require (condition : Bool) (failure : ε) : Except ε Unit :=
  if condition then .ok () else .error failure

/-- A check inside a transaction. -/
def check (result : Except ε α) : Transaction σ ε α := liftM result

/-- The rule of invariants for one transaction. -/
theorem committed_of {P : σ → Prop} {task : Transaction σ ε α} (hs : P s)
    (htask : ∀ {a s'}, task s = .ok (a, s') → P s') : P (committed task s) := by
  unfold committed
  cases h : task s with
  | error e => exact hs
  | ok result => exact htask h

theorem bind_eq_ok {x : Transaction σ ε α} {f : α → Transaction σ ε β} {b : β} :
    (x >>= f) s = .ok (b, s') ↔ ∃ a s₁, x s = .ok (a, s₁) ∧ f a s₁ = .ok (b, s') := by
  have hbind : (x >>= f) s = (x s >>= fun result => f result.1 result.2) := rfl
  rw [hbind, Except.bind_eq_ok, Prod.exists]

theorem bind_of_ok {x : Transaction σ ε α} {f : α → Transaction σ ε β} {a : α} {s₁ : σ}
    (h : x s = .ok (a, s₁)) : (x >>= f) s = f a s₁ := by
  have hbind : (x >>= f) s = (x s >>= fun result => f result.1 result.2) := rfl
  rw [hbind, h]
  rfl

theorem pure_eq_ok {a b : α} :
    (pure a : Transaction σ ε α) s = .ok (b, s') ↔ b = a ∧ s' = s := by
  have hpure : (pure a : Transaction σ ε α) s = .ok (a, s) := rfl
  rw [hpure, Except.ok.injEq, Prod.mk.injEq, eq_comm, @eq_comm _ s]

theorem throw_eq_ok {failure : ε} {a : α} :
    (throw failure : Transaction σ ε α) s = .ok (a, s') ↔ False :=
  ⟨fun h => (nomatch h), False.elim⟩

theorem get_bind {f : σ → Transaction σ ε β} : ((get : Transaction σ ε σ) >>= f) s = f s s := rfl

theorem set_bind {s₁ : σ} {f : PUnit → Transaction σ ε β} :
    ((set s₁ : Transaction σ ε PUnit) >>= f) s = f ⟨⟩ s₁ := rfl

theorem modify_bind {g : σ → σ} {f : PUnit → Transaction σ ε β} :
    ((modify g : Transaction σ ε PUnit) >>= f) s = f ⟨⟩ (g s) := rfl

theorem set_eq_ok {s₁ : σ} {u : PUnit} :
    (set s₁ : Transaction σ ε PUnit) s = .ok (u, s') ↔ s' = s₁ := by
  have hset : (set s₁ : Transaction σ ε PUnit) s = .ok (⟨⟩, s₁) := rfl
  rw [hset, Except.ok.injEq, Prod.mk.injEq, eq_comm]
  simp [eq_comm]

theorem modify_eq_ok {f : σ → σ} {u : PUnit} :
    (modify f : Transaction σ ε PUnit) s = .ok (u, s') ↔ s' = f s :=
  set_eq_ok (s := s)

theorem check_eq_ok {result : Except ε α} {a : α} :
    check result s = .ok (a, s') ↔ result = .ok a ∧ s' = s := by
  cases result with
  | error e => exact ⟨fun h => (nomatch h), fun h => (nomatch h.1)⟩
  | ok b =>
      have hcheck : check (.ok b : Except ε α) s = .ok (b, s) := rfl
      rw [hcheck, Except.ok.injEq, Except.ok.injEq, Prod.mk.injEq, @eq_comm _ s]

theorem require_eq_ok {condition : Bool} {failure : ε} {u : Unit} :
    require condition failure = .ok u ↔ condition = true := by
  cases condition <;> simp [require]

/-- A loop of checks that all pass. -/
theorem forM_eq_ok {check : α → Except ε Unit} {items : List α}
    (h : ∀ item ∈ items, check item = .ok ()) : items.forM check = .ok () := by
  induction items with
  | nil => rfl
  | cons item items ih =>
      rw [List.forM_eq_forM, List.forM_cons, h item List.mem_cons_self]
      exact ih fun other hother => h other (List.mem_cons_of_mem _ hother)

theorem check_bind_of_ok {result : Except ε α} {f : α → Transaction σ ε β} {a : α}
    (h : result = .ok a) : (check result >>= f) s = f a s := by
  rw [h]
  rfl

theorem check_bind_of_error {result : Except ε α} {f : α → Transaction σ ε β} {failure : ε}
    (h : result = .error failure) : (check result >>= f) s = .error failure := by
  rw [h]
  rfl

theorem require_bind_of_true {condition : Bool} {failure : ε} {f : Unit → Transaction σ ε β}
    (h : condition = true) : (check (require condition failure) >>= f) s = f () s :=
  check_bind_of_ok (require_eq_ok.mpr h)

theorem check_bind_eq_ok {result : Except ε α} {f : α → Transaction σ ε β} {b : β} :
    (check result >>= f) s = .ok (b, s') ↔ ∃ a, result = .ok a ∧ f a s = .ok (b, s') := by
  simp only [bind_eq_ok, check_eq_ok]
  constructor
  · rintro ⟨a, _, ⟨hresult, rfl⟩, h⟩
    exact ⟨a, hresult, h⟩
  · rintro ⟨a, hresult, h⟩
    exact ⟨a, s, ⟨hresult, rfl⟩, h⟩

theorem require_bind_eq_ok {condition : Bool} {failure : ε} {f : Unit → Transaction σ ε β} {b : β} :
    (check (require condition failure) >>= f) s = .ok (b, s') ↔
      condition = true ∧ f () s = .ok (b, s') := by
  rw [check_bind_eq_ok]
  constructor
  · rintro ⟨u, hrequire, h⟩
    exact ⟨require_eq_ok.mp hrequire, h⟩
  · rintro ⟨hcondition, h⟩
    exact ⟨(), require_eq_ok.mpr hcondition, h⟩

/-! ### Invariants of the parts of a transaction -/

/-- Where the task succeeds, it keeps `I`. -/
def Maintains (I : σ → Prop) (task : Transaction σ ε α) : Prop :=
  ∀ s a s', I s → task s = .ok (a, s') → I s'

variable {I : σ → Prop} {task : Transaction σ ε α}

theorem maintains_pure (a : α) : Maintains I (pure a : Transaction σ ε α) := by
  intro s b s' hs h
  exact (pure_eq_ok.mp h).2 ▸ hs

theorem maintains_throw (failure : ε) : Maintains I (throw failure : Transaction σ ε α) :=
  fun _ _ _ _ h => (nomatch h)

theorem maintains_check (result : Except ε α) : Maintains I (check result : Transaction σ ε α) := by
  intro s a s' hs h
  exact (check_eq_ok.mp h).2 ▸ hs

theorem maintains_bind {f : α → Transaction σ ε β} (h : Maintains I task)
    (hf : ∀ a, Maintains I (f a)) : Maintains I (task >>= f) := by
  intro s b s' hs hrun
  obtain ⟨a, s₁, htask, hrest⟩ := bind_eq_ok.mp hrun
  exact hf a _ _ _ (h _ _ _ hs htask) hrest

/-- What is read satisfies the invariant. -/
theorem maintains_get_bind {f : σ → Transaction σ ε β} (h : ∀ s, I s → Maintains I (f s)) :
    Maintains I ((get : Transaction σ ε σ) >>= f) :=
  fun s a s' hs hrun => h s hs s a s' hs hrun

theorem maintains_set {s₁ : σ} (h : I s₁) : Maintains I (set s₁ : Transaction σ ε PUnit) := by
  intro s a s' _ hrun
  exact (set_eq_ok.mp hrun) ▸ h

theorem maintains_modify {g : σ → σ} (h : ∀ s, I s → I (g s)) :
    Maintains I (modify g : Transaction σ ε PUnit) := by
  intro s a s' hs hrun
  exact (modify_eq_ok.mp hrun) ▸ h s hs

theorem maintains_map {f : α → β} (h : Maintains I task) : Maintains I (f <$> task) :=
  maintains_bind h fun a => maintains_pure (f a)

theorem Maintains.committed (h : Maintains I task) (hs : I s) : I (committed task s) :=
  committed_of hs fun hrun => h _ _ _ hs hrun

end Transaction

end PocketCoder.Foundation
