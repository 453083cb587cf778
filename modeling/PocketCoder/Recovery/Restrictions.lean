import PocketCoder.Recovery.PrincipalUpdates

/-!
A restored principal has no more than the lost one. Restrictions are in the
journal before they are in the tables, and grants after, so the last record
of a column is never above the column itself. This needs that every change
of the lists is one or the other, and that no record of a grant is still to
come when the grant is taken back.
-/

namespace PocketCoder.Recovery

open PocketCoder.Foundation PocketCoder.Journal PocketCoder.Auth

/-! ### Changes -/

/-- A change whose records are right for a column: they set the value that
the change writes, those before the commit restrict, and without one of
those the value does not go down. -/
structure Column.Conforms {V : Type} (column : Column V) (change : PrincipalChange) : Prop where
  names : ∀ event ∈ (principalEvents change).1 ++ (principalEvents change).2, ∀ id v,
    column.register.sets event id = some v → id = change.target.id
  values : ∀ event ∈ (principalEvents change).1 ++ (principalEvents change).2, ∀ v,
    column.register.sets event change.target.id = some v →
    v = column.value (change.row change.target)
  restricts : ∀ event ∈ (principalEvents change).1, ∀ v,
    column.register.sets event change.target.id = some v →
    column.register.le v (column.value change.target)
  settled : (∃ event ∈ (principalEvents change).1,
      column.register.sets event change.target.id ≠ none) ∨
    column.register.le (column.value change.target) (column.value (change.row change.target))

/-- The lists of a change are a restriction by its own test, or what the
principal had is within them. -/
def OneWay (change : PrincipalChange) : Prop :=
  change.narrows = true ∨ change.target.grants.Within ⟨change.scopes, change.templateNames⟩

theorem narrows_within {change : PrincipalChange} (h : change.narrows = true) :
    Grants.Within ⟨change.scopes, change.templateNames⟩ change.target.grants := by
  rw [PrincipalChange.narrows, Bool.and_eq_true, List.all_eq_true, List.all_eq_true] at h
  refine ⟨.of_subset fun scope hscope => ?_, .of_subset fun name hname => ?_⟩
  · exact List.contains_iff_mem.mp (h.1 scope hscope)
  · exact List.contains_iff_mem.mp (h.2 name hname)

theorem accessColumn_conforms {change : PrincipalChange} (hconsistent : Consistent change)
    (honeWay : OneWay change) : accessColumn.Conforms change := by
  have hrow : accessColumn.value (change.row change.target) =
      ⟨change.scopes, change.templateNames⟩ := rfl
  refine ⟨?_, ?_, ?_, ?_⟩
  · intro event hevent id v hsets
    rcases mem_principalEvents hevent with rfl | ⟨rfl, -⟩ | ⟨rfl, -⟩
    · simp only [accessColumn] at hsets
      split_ifs at hsets with hid
      exact hid
    · exact (nomatch hsets)
    · exact (nomatch hsets)
  · intro event hevent v hsets
    rcases mem_principalEvents hevent with rfl | ⟨rfl, -⟩ | ⟨rfl, -⟩
    · simp only [accessColumn, if_pos] at hsets
      rw [hrow, ← Option.some.inj hsets]
    · exact (nomatch hsets)
    · exact (nomatch hsets)
  · intro event hevent v hsets
    rcases mem_principalEvents (List.mem_append_left _ hevent) with rfl | ⟨rfl, -⟩ | ⟨rfl, -⟩
    · simp only [accessColumn, if_pos] at hsets
      rw [← Option.some.inj hsets]
      by_cases hnarrows : change.narrows = true
      · exact narrows_within hnarrows
      · simp [principalEvents, hnarrows] at hevent
    · exact (nomatch hsets)
    · exact (nomatch hsets)
  · rw [hrow]
    -- a change that narrows is journaled unless it leaves the lists alone
    rcases honeWay with hnarrows | hwidens
    · by_cases hpatch : change.patch.scopes.isSome || change.patch.templateNames.isSome
      · refine .inl ⟨.principalAccess change.target.id change.scopes change.templateNames
          change.time, ?_, ?_⟩
        · simp [principalEvents, hnarrows, PrincipalChange.accessEvents, hpatch]
        · simp [accessColumn]
      · simp only [Bool.or_eq_true, not_or, Bool.not_eq_true, Option.isSome_eq_false_iff,
          Option.isNone_iff_eq_none] at hpatch
        obtain ⟨hscopes, htemplateNames⟩ := hconsistent hpatch.1 hpatch.2
        rw [hscopes, htemplateNames]
        exact .inr (Grants.Within.refl _)
    · exact .inr hwidens

theorem disabledColumn_conforms (change : PrincipalChange) : disabledColumn.Conforms change := by
  refine ⟨?_, ?_, ?_, ?_⟩
  · intro event hevent id v hsets
    rcases mem_principalEvents hevent with rfl | ⟨rfl, -⟩ | ⟨rfl, -⟩
    · exact (nomatch hsets)
    · simp only [disabledColumn] at hsets
      split_ifs at hsets with hid
      exact hid
    · simp only [disabledColumn] at hsets
      split_ifs at hsets with hid
      exact hid
  · intro event hevent v hsets
    rcases mem_principalEvents hevent with rfl | ⟨rfl, hdisabled⟩ | ⟨rfl, henabled⟩
    · exact (nomatch hsets)
    · simp only [disabledColumn, if_pos] at hsets
      simp [disabledColumn, PrincipalChange.row, hdisabled, ← Option.some.inj hsets]
    · simp only [disabledColumn, if_pos] at hsets
      simp [disabledColumn, PrincipalChange.row, henabled, ← Option.some.inj hsets]
  · intro event hevent v hsets
    rcases mem_principalEvents (List.mem_append_left _ hevent) with
      rfl | ⟨rfl, -⟩ | ⟨rfl, henabled⟩
    · exact (nomatch hsets)
    · simp only [disabledColumn, if_pos] at hsets
      exact fun _ => (Option.some.inj hsets).symm
    · -- an enabling record comes after the commit
      exfalso
      unfold principalEvents PrincipalChange.accessEvents at hevent
      dsimp only at hevent
      split_ifs at hevent <;> simp_all
  -- only a disabling change has to be in the journal before its commit
  · cases hpatch : change.patch.disabled with
    | none =>
        refine .inr ?_
        simp only [PrincipalChange.row, hpatch]
        exact disabledColumn.register.refl _
    | some disabled =>
        cases disabled with
        | true =>
            refine .inl ⟨.principalDisabled change.target.id change.keyIds change.time, ?_, ?_⟩
            · simp [principalEvents, hpatch]
            · simp [disabledColumn]
        | false =>
            refine .inr fun hdisabled => ?_
            simp [disabledColumn, PrincipalChange.row, hpatch] at hdisabled

/-! ### Invariant -/

/-- The events grant no more than a change leaves to its principal. -/
def Column.Allows {V : Type} (column : Column V) (change : PrincipalChange)
    (events : List JournalEvent) : Prop :=
  ∀ event ∈ events, ∀ v, column.register.sets event change.target.id = some v →
    column.register.le v (column.value (change.row change.target))

/-- An open transaction that has appended its records of the column. -/
structure Column.Prepared {V : Type} (column : Column V) (journal : List JournalEvent)
    (change : PrincipalChange) : Prop where
  last : ∀ v, column.register.last journal change.target.id = some v →
    column.register.le v (column.value (change.row change.target))
  settled : (column.register.last journal change.target.id).isSome = true ∨
    column.register.le (column.value change.target) (column.value (change.row change.target))

/-- A value is not above the column of a principal, nor above anything that
the column of a principal without row may become. -/
def Column.Below {V : Type} (column : Column V) (tables : AuthTables) (id : String) (v : V) :
    Prop :=
  ∀ w, (∀ row, tables.principals.get? id = some row → w = column.value row) →
    column.register.le v w

/-- The update with a number is open and has yet to append these events. -/
abbrev Controller.Locked (controller : Controller) (i : Nat) (change : PrincipalChange)
    (early : List JournalEvent) : Prop :=
  controller.updates[i]? = some ⟨change, .locked early⟩

/-- The update with a number has ended and has yet to append these events. -/
abbrev Controller.Written (controller : Controller) (i : Nat) (change : PrincipalChange)
    (late : List JournalEvent) : Prop :=
  controller.updates[i]? = some ⟨change, .written late⟩

structure Column.Sound {V : Type} (column : Column V) (controller : Controller) : Prop where
  conforms : ∀ {i : Nat} {update : Update}, controller.updates[i]? = some update →
    column.Conforms update.change
  target : ∀ {i change early}, controller.Locked i change early →
    controller.tables.principals.get? change.target.id = some change.target
  early : ∀ {i change early}, controller.Locked i change early →
    ∀ event ∈ early, event ∈ (principalEvents change).1
  locks : ∀ {i j change change' early early'}, controller.Locked i change early →
    controller.Locked j change' early' → change.target.id = change'.target.id → i = j
  /-- A record that has still to come grants no more than the row has. -/
  late : ∀ {i change late}, controller.Written i change late → ∀ event ∈ late,
    ∀ {id v}, column.register.sets event id = some v → column.Below controller.tables id v
  /-- Nor than the row will have. -/
  behind : ∀ {i j change change' early late}, controller.Locked i change early →
    controller.Written j change' late → column.Allows change late
  prepared : ∀ {i change early}, controller.Locked i change early →
    (∀ event ∈ early, column.register.sets event change.target.id = none) →
    column.Prepared controller.journal change
  journal : ∀ {id v}, column.register.last controller.journal id = some v →
    column.Below controller.tables id v

variable {V : Type} {column : Column V} {controller : Controller}

theorem Column.initial_sound (column : Column V) (tables : AuthTables) :
    column.Sound (Controller.initial tables) where
  conforms h := (nomatch h)
  target h := (nomatch h)
  early h := (nomatch h)
  locks h := (nomatch h)
  late h := (nomatch h)
  behind h := (nomatch h)
  prepared h := (nomatch h)
  journal h := (nomatch h)

theorem Column.Below.le {tables : AuthTables} {id : String} {v : V} {row : PrincipalRow}
    (h : column.Below tables id v) (hrow : tables.principals.get? id = some row) :
    column.register.le v (column.value row) := by
  refine h _ fun other hother => ?_
  rw [Option.some.inj (hrow.symm.trans hother)]

theorem Column.below_of_le {tables : AuthTables} {id : String} {v : V} {row : PrincipalRow}
    (hrow : tables.principals.get? id = some row) (hle : column.register.le v (column.value row)) :
    column.Below tables id v := by
  intro w hw
  rw [hw row hrow]
  exact hle

/-- Rows may be added. -/
theorem Column.Below.mono {tables tables' : AuthTables} {id : String} {v : V}
    (h : column.Below tables id v)
    (hkept : ∀ row, tables.principals.get? id = some row →
      tables'.principals.get? id = some row) : column.Below tables' id v :=
  fun w hw => h w fun row hrow => hw row (hkept row hrow)

/-- An event appended to the journal that is not above any row, nor above
what an open transaction of its principal will leave. -/
theorem Column.Prepared.concat {journal : List JournalEvent} {change : PrincipalChange}
    (h : column.Prepared journal change) {event : JournalEvent}
    (hevent : ∀ v, column.register.sets event change.target.id = some v →
      column.register.le v (column.value (change.row change.target))) :
    column.Prepared (journal ++ [event]) change := by
  cases hsets : column.register.sets event change.target.id with
  | none =>
      constructor
      · rw [column.register.last_concat_of_none hsets]
        exact h.last
      · rw [column.register.last_concat_of_none hsets]
        exact h.settled
  | some v =>
      constructor
      · rw [column.register.last_concat_of_some hsets]
        intro v' hv'
        obtain rfl := Option.some.inj hv'
        exact hevent v hsets
      · rw [column.register.last_concat_of_some hsets]
        exact .inl rfl

theorem journal_concat {journal : List JournalEvent} {event : JournalEvent} {id : String} {v : V}
    (h : column.register.last (journal ++ [event]) id = some v) :
    column.register.sets event id = some v ∨ column.register.last journal id = some v := by
  rw [column.register.last_concat] at h
  rcases Option.or_eq_some_iff.mp h with hnew | ⟨-, hold⟩
  · exact .inl hnew
  · exact .inr hold

/-- A transaction that begins. -/
theorem Column.Sound.start (h : column.Sound controller) {change : PrincipalChange}
    (htarget : controller.tables.principals.get? change.target.id = some change.target)
    (hunlocked : controller.Unlocked change.target.id) (hconforms : column.Conforms change)
    (hallows : ∀ update ∈ controller.updates, ∀ late, update.phase = .written late →
      column.Allows change late) :
    column.Sound { controller with
      updates := controller.updates ++ [⟨change, .locked (principalEvents change).1⟩] } := by
  -- the updates are those there were and the new one, at the end
  have hcases : ∀ {j : Nat} {update : Update}, (controller.updates ++
      [⟨change, .locked (principalEvents change).1⟩])[j]? = some update →
      controller.updates[j]? = some update ∨
        (j = controller.updates.length ∧ update = ⟨change, .locked (principalEvents change).1⟩) := by
    intro j update hj
    rw [List.getElem?_append] at hj
    split_ifs at hj with hlt
    · exact .inl hj
    · obtain ⟨hzero, hupdate⟩ := List.getElem?_eq_some_iff.mp hj
      have hj' : j = controller.updates.length := by
        simp only [List.length_singleton] at hzero
        omega
      subst hj'
      exact .inr ⟨rfl, by simpa using hupdate.symm⟩
  -- a change without an early record of the column leaves it no narrower than it was
  have hprepared : (∀ event ∈ (principalEvents change).1,
      column.register.sets event change.target.id = none) →
      column.Prepared controller.journal change := by
    intro hnone
    have hle : column.register.le (column.value change.target)
        (column.value (change.row change.target)) :=
      hconforms.settled.resolve_left fun ⟨event, hevent, hsets⟩ => hsets (hnone event hevent)
    exact ⟨fun v hv => column.register.trans ((h.journal hv).le htarget) hle, .inr hle⟩
  refine ⟨?_, ?_, ?_, ?_, ?_, ?_, ?_, h.journal⟩
  · intro i update hi
    rcases hcases hi with hold | ⟨-, rfl⟩
    · exact h.conforms hold
    · exact hconforms
  · intro i change' early hi
    rcases hcases hi with hold | ⟨-, hnew⟩
    · exact h.target hold
    · obtain ⟨rfl, -⟩ := Update.mk.inj hnew
      exact htarget
  · intro i change' early hi
    rcases hcases hi with hold | ⟨-, hnew⟩
    · exact h.early hold
    · obtain ⟨rfl, hphase⟩ := Update.mk.inj hnew
      obtain rfl := Phase.locked.inj hphase
      exact fun event hevent => hevent
  · intro i j change₁ change₂ early₁ early₂ hi hj hid
    rcases hcases hi with hold | ⟨rfl, hnew⟩
    · rcases hcases hj with hold' | ⟨rfl, hnew'⟩
      · exact h.locks hold hold' hid
      · obtain ⟨rfl, -⟩ := Update.mk.inj hnew'
        exact absurd hid
          (hunlocked ⟨change₁, .locked early₁⟩ (List.mem_of_getElem? hold) early₁ rfl)
    · obtain ⟨rfl, -⟩ := Update.mk.inj hnew
      rcases hcases hj with hold' | ⟨rfl, -⟩
      · exact absurd hid.symm
          (hunlocked ⟨change₂, .locked early₂⟩ (List.mem_of_getElem? hold') early₂ rfl)
      · rfl
  · intro i change' late hi
    rcases hcases hi with hold | ⟨-, hnew⟩
    · exact h.late hold
    · exact (nomatch (Update.mk.inj hnew).2)
  · intro i j change₁ change₂ early late hi hj
    rcases hcases hj with hold' | ⟨-, hnew⟩
    · rcases hcases hi with hold | ⟨-, hnew⟩
      · exact h.behind hold hold'
      · obtain ⟨rfl, -⟩ := Update.mk.inj hnew
        -- a record still to be appended grants no more than the new change leaves
        exact hallows ⟨change₂, .written late⟩ (List.mem_of_getElem? hold') late rfl
    · exact (nomatch (Update.mk.inj hnew).2)
  · intro i change' early hi hnone
    rcases hcases hi with hold | ⟨-, hnew⟩
    · exact h.prepared hold hnone
    · obtain ⟨rfl, hphase⟩ := Update.mk.inj hnew
      obtain rfl := Phase.locked.inj hphase
      exact hprepared hnone

/-- A restriction is appended before its commit. -/
theorem Column.Sound.appendEarly (h : column.Sound controller) {i : Nat} {change : PrincipalChange}
    {event : JournalEvent} {early : List JournalEvent}
    (hi : controller.Locked i change (event :: early)) :
    column.Sound { controller with
      journal := controller.journal ++ [event]
      updates := controller.updates.set i ⟨change, .locked early⟩ } := by
  have hconforms := h.conforms hi
  have hevent : event ∈ (principalEvents change).1 := h.early hi event List.mem_cons_self
  -- the record is about the target of the change and holds the value of the change
  have hname : ∀ {id v}, column.register.sets event id = some v → id = change.target.id :=
    fun hsets => hconforms.names event (List.mem_append_left _ hevent) _ _ hsets
  have hvalue : ∀ {v}, column.register.sets event change.target.id = some v →
      v = column.value (change.row change.target) :=
    fun hsets => hconforms.values event (List.mem_append_left _ hevent) _ hsets
  refine ⟨?_, ?_, ?_, ?_, ?_, ?_, ?_, ?_⟩
  · intro j update hj
    rcases getElem?_set_cases hj with ⟨-, rfl⟩ | ⟨-, hold⟩
    · exact hconforms
    · exact h.conforms hold
  · intro j change' early' hj
    rcases getElem?_set_cases hj with ⟨-, hnew⟩ | ⟨-, hold⟩
    · obtain ⟨rfl, -⟩ := Update.mk.inj hnew
      exact h.target hi
    · exact h.target hold
  · intro j change' early' hj
    rcases getElem?_set_cases hj with ⟨-, hnew⟩ | ⟨-, hold⟩
    · obtain ⟨rfl, hphase⟩ := Update.mk.inj hnew
      obtain rfl := Phase.locked.inj hphase
      exact fun other hother => h.early hi other (List.mem_cons_of_mem _ hother)
    · exact h.early hold
  · intro j k change₁ change₂ early₁ early₂ hj hk hid
    rcases getElem?_set_cases hj with ⟨rfl, hnew⟩ | ⟨hj', hold⟩
    · obtain ⟨rfl, -⟩ := Update.mk.inj hnew
      rcases getElem?_set_cases hk with ⟨rfl, -⟩ | ⟨-, hold'⟩
      · rfl
      · exact h.locks hi hold' hid
    · rcases getElem?_set_cases hk with ⟨rfl, hnew⟩ | ⟨-, hold'⟩
      · obtain ⟨rfl, -⟩ := Update.mk.inj hnew
        exact h.locks hold hi hid
      · exact h.locks hold hold' hid
  · intro j change' late hj
    rcases getElem?_set_cases hj with ⟨-, hnew⟩ | ⟨-, hold⟩
    · exact (nomatch (Update.mk.inj hnew).2)
    · exact h.late hold
  · intro j k change₁ change₂ early' late hj hk
    rcases getElem?_set_cases hk with ⟨-, hnew⟩ | ⟨-, hold'⟩
    · exact (nomatch (Update.mk.inj hnew).2)
    · rcases getElem?_set_cases hj with ⟨-, hnew⟩ | ⟨-, hold⟩
      · obtain ⟨rfl, -⟩ := Update.mk.inj hnew
        exact h.behind hi hold'
      · exact h.behind hold hold'
  · intro j change' early' hj hnone
    rcases getElem?_set_cases hj with ⟨-, hnew⟩ | ⟨hne, hold⟩
    · obtain ⟨rfl, hphase⟩ := Update.mk.inj hnew
      obtain rfl := Phase.locked.inj hphase
      -- either the record sets the column, and is the last to do so, or it changes nothing for it
      cases hsets : column.register.sets event change'.target.id with
      | none =>
          have hall : ∀ other ∈ event :: early',
              column.register.sets other change'.target.id = none := by
            intro other hother
            rcases List.mem_cons.mp hother with rfl | hrest
            · exact hsets
            · exact hnone other hrest
          refine (h.prepared hi hall).concat fun v hv => ?_
          rw [hsets] at hv
          exact (nomatch hv)
      | some v =>
          constructor
          · intro v' hv'
            rw [column.register.last_concat_of_some hsets] at hv'
            obtain rfl := Option.some.inj hv'
            rw [hvalue hsets]
            exact column.register.refl _
          · rw [column.register.last_concat_of_some hsets]
            exact .inl rfl
    · refine (h.prepared hold hnone).concat fun v hv => ?_
      -- another principal's record: the target is locked by this update alone
      exact absurd (h.locks hold hi (hname hv)) hne
  · intro id v hlast
    rcases journal_concat hlast with hsets | hold
    · obtain rfl := hname hsets
      exact column.below_of_le (h.target hi) (hconforms.restricts event hevent v hsets)
    · exact h.journal hold

/-- A grant is appended after its commit. -/
theorem Column.Sound.appendLate (h : column.Sound controller) {i : Nat} {change : PrincipalChange}
    {event : JournalEvent} {late : List JournalEvent}
    (hi : controller.Written i change (event :: late)) :
    column.Sound { controller with
      journal := controller.journal ++ [event]
      updates := controller.updates.set i ⟨change, .written late⟩ } := by
  -- the update that appends holds no lock any more
  have hlocked : ∀ {j change' early}, (controller.updates.set i ⟨change, .written late⟩)[j]? =
      some ⟨change', .locked early⟩ → controller.Locked j change' early := by
    intro j change' early hj
    rcases getElem?_set_cases hj with ⟨-, hnew⟩ | ⟨-, hold⟩
    · exact (nomatch (Update.mk.inj hnew).2)
    · exact hold
  refine ⟨?_, fun hj => h.target (hlocked hj), fun hj => h.early (hlocked hj),
    fun hj hk => h.locks (hlocked hj) (hlocked hk), ?_, ?_, ?_, ?_⟩
  · intro j update hj
    rcases getElem?_set_cases hj with ⟨-, rfl⟩ | ⟨-, hold⟩
    · have hconforms := h.conforms hi
      exact hconforms
    · exact h.conforms hold
  · intro j change' late' hj other hother
    rcases getElem?_set_cases hj with ⟨-, hnew⟩ | ⟨-, hold⟩
    · obtain ⟨rfl, hphase⟩ := Update.mk.inj hnew
      obtain rfl := Phase.written.inj hphase
      exact h.late hi other (List.mem_cons_of_mem _ hother)
    · exact h.late hold other hother
  · intro j k change₁ change₂ early late' hj hk
    rcases getElem?_set_cases hk with ⟨-, hnew⟩ | ⟨-, hold⟩
    · obtain ⟨rfl, hphase⟩ := Update.mk.inj hnew
      obtain rfl := Phase.written.inj hphase
      exact fun other hother => h.behind (hlocked hj) hi other (List.mem_cons_of_mem _ hother)
    · exact h.behind (hlocked hj) hold
  · intro j change' early hj hnone
    refine (h.prepared (hlocked hj) hnone).concat fun v hv => ?_
    exact h.behind (hlocked hj) hi event List.mem_cons_self v hv
  · intro id v hlast
    rcases journal_concat hlast with hsets | hold
    · exact h.late hi event List.mem_cons_self hsets
    · exact h.journal hold

/-- An update that ends without its records. -/
theorem Column.Sound.abandon (h : column.Sound controller) {i : Nat} {update : Update}
    (hi : controller.updates[i]? = some update) :
    column.Sound { controller with
      updates := controller.updates.set i { update with phase := .written [] } } := by
  have hlocked : ∀ {j change' early},
      (controller.updates.set i { update with phase := .written [] })[j]? =
        some ⟨change', .locked early⟩ → controller.Locked j change' early := by
    intro j change' early hj
    rcases getElem?_set_cases hj with ⟨-, hnew⟩ | ⟨-, hold⟩
    · exact (nomatch (Update.mk.inj hnew).2)
    · exact hold
  have hwritten : ∀ {j change' late event},
      (controller.updates.set i { update with phase := .written [] })[j]? =
        some ⟨change', .written late⟩ → event ∈ late → controller.Written j change' late := by
    intro j change' late event hj hevent
    rcases getElem?_set_cases hj with ⟨-, hnew⟩ | ⟨-, hold⟩
    · obtain rfl := Phase.written.inj (Update.mk.inj hnew).2
      exact absurd hevent List.not_mem_nil
    · exact hold
  refine ⟨?_, fun hj => h.target (hlocked hj), fun hj => h.early (hlocked hj),
    fun hj hk => h.locks (hlocked hj) (hlocked hk),
    fun hj event hevent => h.late (hwritten hj hevent) event hevent,
    fun hj hk event hevent => h.behind (hlocked hj) (hwritten hk hevent) event hevent,
    fun hj => h.prepared (hlocked hj), h.journal⟩
  have hconforms := h.conforms hi
  intro j other hj
  rcases getElem?_set_cases hj with ⟨-, rfl⟩ | ⟨-, hold⟩
  · exact hconforms
  · exact h.conforms hold

/-- Rows are added, and those that are there stay. -/
theorem Column.Sound.withTables (h : column.Sound controller) {tables : AuthTables}
    (hkept : ∀ id row, controller.tables.principals.get? id = some row →
      tables.principals.get? id = some row) :
    column.Sound { controller with tables } where
  conforms := h.conforms
  target hi := hkept _ _ (h.target hi)
  early := h.early
  locks := h.locks
  late hi event hevent _ _ hsets := (h.late hi event hevent hsets).mono (hkept _)
  behind := h.behind
  prepared := h.prepared
  journal hlast := (h.journal hlast).mono (hkept _)

/-- A record that sets the least value. -/
theorem Column.Sound.record (h : column.Sound controller) {event : JournalEvent}
    (hleast : ∀ {id v}, column.register.sets event id = some v → ∀ w, column.register.le v w) :
    column.Sound { controller with journal := controller.journal ++ [event] } where
  conforms := h.conforms
  target := h.target
  early := h.early
  locks := h.locks
  late := h.late
  behind := h.behind
  prepared hi hnone := (h.prepared hi hnone).concat fun _ hsets => hleast hsets _
  journal hlast := by
    rcases journal_concat hlast with hsets | hold
    · exact fun w _ => hleast hsets w
    · exact h.journal hold

theorem Column.Sound.crash (h : column.Sound controller) :
    column.Sound { controller with updates := [] } where
  conforms hi := (nomatch hi)
  target hi := (nomatch hi)
  early hi := (nomatch hi)
  locks hi := (nomatch hi)
  late hi := (nomatch hi)
  behind hi := (nomatch hi)
  prepared hi := (nomatch hi)
  journal := h.journal

theorem get?_write (change : PrincipalChange) (tables : AuthTables) (id : String) :
    (change.write tables).principals.get? id =
      if id = change.target.id then (tables.principals.get? change.target.id).map change.row
      else tables.principals.get? id :=
  Table.get?_updateAt tables.principals change.target.id change.row change.row_id id

/-- A transaction commits. -/
theorem Column.Sound.commit (h : column.Sound controller) {i : Nat} {change : PrincipalChange}
    (hi : controller.Locked i change []) :
    column.Sound { controller with
      tables := change.write controller.tables
      updates := controller.updates.set i ⟨change, .written (principalEvents change).2⟩ } := by
  have hconforms := h.conforms hi
  have hprepared := h.prepared hi fun event hevent => absurd hevent List.not_mem_nil
  have htarget : (change.write controller.tables).principals.get? change.target.id =
      some (change.row change.target) := by
    rw [get?_write, if_pos rfl, h.target hi, Option.map_some]
  have hother : ∀ {id}, id ≠ change.target.id →
      (change.write controller.tables).principals.get? id =
        controller.tables.principals.get? id := by
    intro id hid
    rw [get?_write, if_neg hid]
  -- what was below the row of another principal is below it still
  have hbelow : ∀ {id v}, column.Below controller.tables id v →
      (id = change.target.id →
        column.register.le v (column.value (change.row change.target))) →
      column.Below (change.write controller.tables) id v := by
    intro id v hbefore hle
    by_cases hid : id = change.target.id
    · subst hid
      exact column.below_of_le htarget (hle rfl)
    · refine hbefore.mono fun row hrow => ?_
      rw [hother hid]
      exact hrow
  have hlocked : ∀ {j change' early},
      (controller.updates.set i ⟨change, .written (principalEvents change).2⟩)[j]? =
        some ⟨change', .locked early⟩ →
      j ≠ i ∧ controller.Locked j change' early := by
    intro j change' early hj
    rcases getElem?_set_cases hj with ⟨-, hnew⟩ | hold
    · exact (nomatch (Update.mk.inj hnew).2)
    · exact hold
  -- the lock makes every other open change one of another principal
  have hdistinct : ∀ {j change' early}, j ≠ i → controller.Locked j change' early →
      change'.target.id ≠ change.target.id := by
    intro j change' early hj hlock hid
    exact hj (h.locks hlock hi hid)
  refine ⟨?_, ?_, fun hj => h.early (hlocked hj).2,
    fun hj hk => h.locks (hlocked hj).2 (hlocked hk).2, ?_, ?_,
    fun hj => h.prepared (hlocked hj).2, ?_⟩
  · intro j update hj
    rcases getElem?_set_cases hj with ⟨-, rfl⟩ | ⟨-, hold⟩
    · exact hconforms
    · exact h.conforms hold
  · intro j change' early hj
    obtain ⟨hne, hlock⟩ := hlocked hj
    exact (hother (hdistinct hne hlock)).trans (h.target hlock)
  · intro j change' late hj event hevent id v hsets
    rcases getElem?_set_cases hj with ⟨-, hnew⟩ | ⟨-, hold⟩
    · obtain ⟨rfl, hphase⟩ := Update.mk.inj hnew
      obtain rfl := Phase.written.inj hphase
      have hmem := List.mem_append_right (principalEvents change').1 hevent
      obtain rfl := hconforms.names event hmem id v hsets
      refine column.below_of_le htarget ?_
      rw [hconforms.values event hmem v hsets]
      exact column.register.refl _
    · refine hbelow (h.late hold event hevent hsets) fun hid => ?_
      subst hid
      exact h.behind hi hold event hevent v hsets
  · intro j k change₁ change₂ early late hj hk
    obtain ⟨hne, hlock⟩ := hlocked hj
    rcases getElem?_set_cases hk with ⟨-, hnew⟩ | ⟨-, hold⟩
    · obtain ⟨rfl, hphase⟩ := Update.mk.inj hnew
      obtain rfl := Phase.written.inj hphase
      intro event hevent v hsets
      have hmem := List.mem_append_right (principalEvents change₂).1 hevent
      exact absurd (hconforms.names event hmem _ v hsets) (hdistinct hne hlock)
    · exact h.behind hlock hold
  · intro id v hlast
    refine hbelow (h.journal hlast) fun hid => ?_
    subst hid
    exact hprepared.last v hlast

/-! ### Runs -/

/-- A change of the lists goes one way, and no record that is still to be
appended grants more than the change leaves. -/
def Careful (controller : Controller) : Action → Prop
  | .start request now => ∀ change, plan controller.tables now request = .ok (.change change) →
      OneWay change ∧ ∀ update ∈ controller.updates, ∀ late, update.phase = .written late →
        accessColumn.Allows change late ∧ disabledColumn.Allows change late
  | _ => True

def CarefulStep (controller : Controller) (action : Action) (controller' : Controller) : Prop :=
  Step controller action controller' ∧ Careful controller action

/-- What a careful step does to a column. -/
theorem Column.Sound.step {controller' : Controller} {action : Action} (h : column.Sound controller)
    (hstep : Step controller action controller')
    (hstart : ∀ {request now change}, action = .start request now →
      plan controller.tables now request = .ok (.change change) → column.Conforms change ∧
        ∀ update ∈ controller.updates, ∀ late, update.phase = .written late →
          column.Allows change late)
    (hrecord : ∀ {principalId keyIds time id v},
      column.register.sets (.principalDisabled principalId keyIds time) id = some v →
      ∀ w, column.register.le v w) :
    column.Sound controller' := by
  cases hstep with
  | change hplan hunlocked =>
      obtain ⟨hconforms, hallows⟩ := hstart rfl hplan
      exact h.start (plan_change hplan).target hunlocked hconforms hallows
  | create hplan =>
      refine h.withTables fun id row hrow => ?_
      show (controller.tables.principals.insert _).get? id = some row
      rw [Table.get?_insert, hrow, Option.some_or]
  | record hplan =>
      obtain ⟨principalId, keyIds, rfl⟩ := plan_record hplan
      exact h.record hrecord
  | early hi => exact h.appendEarly hi
  | commit hi => exact h.commit hi
  | late hi => exact h.appendLate hi
  | abandon hi => exact h.abandon hi
  | other hkept => exact h.withTables hkept
  | crash => exact h.crash

/-- The rows of a backup are kept, and go down only with a record. -/
structure Column.Kept (column : Column V) (backup controller : Controller) : Prop where
  journal : backup.journal <+: controller.journal
  rows : ∀ id row, backup.tables.principals.get? id = some row →
    ∃ row', controller.tables.principals.get? id = some row' ∧
      (column.register.last controller.journal id = none →
        column.register.le (column.value row) (column.value row'))

theorem Column.Kept.refl (column : Column V) (controller : Controller) :
    column.Kept controller controller :=
  ⟨List.prefix_rfl, fun _ row hrow => ⟨row, hrow, fun _ => column.register.refl _⟩⟩

theorem Column.Kept.trans {first second third : Controller} (h : column.Kept first second)
    (h' : column.Kept second third) : column.Kept first third := by
  refine ⟨h.journal.trans h'.journal, fun id row hrow => ?_⟩
  obtain ⟨row', hrow', hle⟩ := h.rows id row hrow
  obtain ⟨row'', hrow'', hle'⟩ := h'.rows id row' hrow'
  refine ⟨row'', hrow'', fun hnone => column.register.trans (hle ?_) (hle' hnone)⟩
  obtain ⟨tail, htail⟩ := h'.journal
  cases hlast : column.register.last second.journal id with
  | none => rfl
  | some v =>
      have hsome := column.register.last_isSome_append (by rw [hlast]; rfl) tail
      rw [htail, hnone] at hsome
      exact (nomatch hsome)

theorem Column.Sound.kept {controller' : Controller} {action : Action}
    (h : column.Sound controller) (hstep : Step controller action controller') :
    column.Kept controller controller' := by
  have hsame : ∀ {tables : AuthTables}, (∀ id row,
      controller.tables.principals.get? id = some row → tables.principals.get? id = some row) →
      ∀ {journal : List JournalEvent}, controller.journal <+: journal →
      ∀ {updates : List Update}, column.Kept controller ⟨tables, journal, updates⟩ :=
    fun hkept _ hjournal _ =>
      ⟨hjournal, fun id row hrow => ⟨row, hkept id row hrow, fun _ => column.register.refl _⟩⟩
  cases hstep with
  | change => exact hsame (fun _ _ hrow => hrow) List.prefix_rfl
  | create =>
      refine hsame (fun id row hrow => ?_) List.prefix_rfl
      show (controller.tables.principals.insert _).get? id = some row
      rw [Table.get?_insert, hrow, Option.some_or]
  | record => exact hsame (fun _ _ hrow => hrow) (List.prefix_append _ _)
  | early => exact hsame (fun _ _ hrow => hrow) (List.prefix_append _ _)
  | late => exact hsame (fun _ _ hrow => hrow) (List.prefix_append _ _)
  | abandon => exact hsame (fun _ _ hrow => hrow) List.prefix_rfl
  | other hkept => exact hsame hkept List.prefix_rfl
  | crash => exact hsame (fun _ _ hrow => hrow) List.prefix_rfl
  | @commit i change hi =>
      refine ⟨List.prefix_rfl, fun id row hrow => ?_⟩
      by_cases hid : id = change.target.id
      · subst hid
        obtain rfl := Option.some.inj (hrow.symm.trans (h.target hi))
        refine ⟨change.row change.target, ?_, fun hnone => ?_⟩
        · rw [get?_write, if_pos rfl, h.target hi, Option.map_some]
        · have hprepared := h.prepared hi fun event hevent => absurd hevent List.not_mem_nil
          -- no record about the principal yet, so the commit leaves the column no narrower
          rcases hprepared.settled with hsome | hle
          · rw [hnone] at hsome
            exact (nomatch hsome)
          · exact hle
      · refine ⟨row, ?_, fun _ => column.register.refl _⟩
        rw [get?_write, if_neg hid]
        exact hrow

/-- A restored column is not above the lost one. -/
theorem Column.Kept.restored_le {backup : Controller} (h : column.Kept backup controller)
    (hsound : column.Sound controller) {id : String} {row : PrincipalRow}
    (hrow : (restored backup.tables controller.journal).principals.get? id = some row) :
    ∃ live, controller.tables.principals.get? id = some live ∧
      column.register.le (column.value row) (column.value live) := by
  have hvalue := column.value_restored backup.tables controller.journal id
  rw [hrow, Option.map_some, Option.map_map] at hvalue
  obtain ⟨old, hold, hvalue⟩ := Option.map_eq_some_iff.mp hvalue.symm
  obtain ⟨live, hlive, hle⟩ := h.rows id old hold
  refine ⟨live, hlive, ?_⟩
  rw [← hvalue, Function.comp]
  cases hlast : column.register.last controller.journal id with
  | none => exact hle hlast
  | some v => exact (hsound.journal hlast).le hlive

theorem sound_step {controller controller' : Controller} {action : Action}
    (hstep : CarefulStep controller action controller')
    (h : accessColumn.Sound controller ∧ disabledColumn.Sound controller) :
    accessColumn.Sound controller' ∧ disabledColumn.Sound controller' := by
  obtain ⟨hstep, hcareful⟩ := hstep
  refine ⟨h.1.step hstep ?_ ?_, h.2.step hstep ?_ ?_⟩
  · rintro request now change rfl hplan
    obtain ⟨honeWay, hallows⟩ := hcareful change hplan
    exact ⟨accessColumn_conforms (plan_change hplan).consistent honeWay,
      fun update hupdate late hlate => (hallows update hupdate late hlate).1⟩
  · intro principalId keyIds time id v hsets
    exact (nomatch hsets)
  · rintro request now change rfl hplan
    obtain ⟨-, hallows⟩ := hcareful change hplan
    exact ⟨disabledColumn_conforms change,
      fun update hupdate late hlate => (hallows update hupdate late hlate).2⟩
  · intro principalId keyIds time id v hsets w _
    simp only [disabledColumn] at hsets
    split_ifs at hsets
    exact (Option.some.inj hsets).symm

/-- Replaying the journal on a backup gives no principal more than it had
when the controller stopped. -/
theorem restore_never_widens {tables : AuthTables} {actions actions' : List Action}
    {backup crashed : Controller}
    (hbefore : Run CarefulStep (Controller.initial tables) actions backup)
    (hafter : Run CarefulStep backup actions' crashed) {id : String} {principal : PrincipalRow}
    (hrestored : (restored backup.tables crashed.journal).principals.get? id = some principal) :
    ∃ live, crashed.tables.principals.get? id = some live ∧
      (live.disabledAt.isSome = true → principal.disabledAt.isSome = true) ∧
      principal.grants.Within live.grants := by
  have hbackup : accessColumn.Sound backup ∧ disabledColumn.Sound backup :=
    hbefore.invariant sound_step
      ⟨accessColumn.initial_sound tables, disabledColumn.initial_sound tables⟩
  have hcrashed := hafter.invariant sound_step hbackup
  have haccess : accessColumn.Kept backup crashed :=
    hafter.relates (Column.Kept.refl accessColumn) (fun h h' => h.trans h') sound_step
      (fun hstep h => h.1.kept hstep.1) hbackup
  have hdisabled : disabledColumn.Kept backup crashed :=
    hafter.relates (Column.Kept.refl disabledColumn) (fun h h' => h.trans h') sound_step
      (fun hstep h => h.2.kept hstep.1) hbackup
  obtain ⟨live, hlive, hgrants⟩ := haccess.restored_le hcrashed.1 hrestored
  obtain ⟨live', hlive', hstate⟩ := hdisabled.restored_le hcrashed.2 hrestored
  obtain rfl := Option.some.inj (hlive.symm.trans hlive')
  exact ⟨live, hlive, hstate, hgrants⟩

/-! ### A principal of the principal file -/

def sampleFile (scopes templateNames : List String) : ConfiguredPrincipal :=
  ⟨"service", "service", scopes, templateNames, false⟩

def sampleStore : AuthTables where
  principals := ⟨[configuredRow (sampleFile ["logs:read", "outputs:read"] ["web"]) 0], by simp⟩
  machineKeys := .empty

/-- A principal loses a scope, and the controller stops before the commit or
after it: the restored principal has lost it too. -/
theorem restore_never_widens_sample :
    ∃ crashed, Run CarefulStep (Controller.initial sampleStore)
        [.start (.applyConfiguredPrincipal (sampleFile ["logs:read"] ["web"])) 1, .append 0,
          .commit 0, .crash] crashed ∧
      ∃ principal, (restored sampleStore crashed.journal).principals.get? "service" =
          some principal ∧
        ∃ live, crashed.tables.principals.get? "service" = some live ∧
          (live.disabledAt.isSome = true → principal.disabledAt.isSome = true) ∧
          principal.grants.Within live.grants := by
  have hcareful : Careful (Controller.initial sampleStore)
      (.start (.applyConfiguredPrincipal (sampleFile ["logs:read"] ["web"])) 1) := by
    intro change hplan
    obtain rfl := Plan.change.inj (Except.ok.inj hplan)
    exact ⟨.inl (by decide), fun update hupdate => absurd hupdate List.not_mem_nil⟩
  have hrun : ∃ crashed, Run CarefulStep (Controller.initial sampleStore)
        [.start (.applyConfiguredPrincipal (sampleFile ["logs:read"] ["web"])) 1, .append 0,
          .commit 0, .crash] crashed ∧
      crashed.journal = [.principalAccess "service" ["logs:read"] ["web"] 1] :=
    ⟨_, .cons ⟨.change rfl (fun update hupdate => absurd hupdate List.not_mem_nil), hcareful⟩
      (.cons ⟨.early rfl, trivial⟩ (.cons ⟨.commit rfl, trivial⟩
        (.cons ⟨.crash, trivial⟩ (.nil _)))), rfl⟩
  obtain ⟨crashed, hrun, hjournal⟩ := hrun
  have hprincipal : (restored sampleStore crashed.journal).principals.get? "service" =
      some ⟨"service", "service", ["logs:read"], ["web"], none⟩ := by
    rw [hjournal]
    rfl
  exact ⟨crashed, hrun, _, hprincipal, restore_never_widens (.nil _) hrun hprincipal⟩

/-- One change takes a scope and gives a template, so its record follows the
commit. The controller stops in between, and the scope comes back. -/
theorem restore_widens :
    ∃ crashed, Run Step (Controller.initial sampleStore)
        [.start (.applyConfiguredPrincipal (sampleFile ["logs:read"] ["web", "api"])) 1, .commit 0,
          .crash] crashed ∧
      ∃ principal live,
        (restored sampleStore crashed.journal).principals.get? "service" = some principal ∧
        crashed.tables.principals.get? "service" = some live ∧
        ¬ principal.grants.Within live.grants := by
  refine ⟨_, .cons (.change rfl fun update hupdate => absurd hupdate List.not_mem_nil)
    (.cons (.commit rfl) (.cons .crash (.nil _))), _, _, rfl, rfl, fun h => ?_⟩
  have hcovers := h.scopes "outputs:read" (by decide)
  rcases hcovers with hcovers | hcovers
  · revert hcovers
    decide
  · revert hcovers
    decide

end PocketCoder.Recovery
