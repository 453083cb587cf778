import PocketCoder.Auth.Administration
import PocketCoder.Foundation.Registers
import PocketCoder.Foundation.Transitions

/-!
Updates of principals and the journal as one transition system, and the
replay of the journal on an older copy of the tables
(`db/src/recovery/replay-records.ts`).

An update is cut where a crash can fall: under the lock of its principal it
appends its restrictions, then it commits, and after the commit it appends
what it granted. A crash forgets the open transactions and the records that
were not appended.
-/

namespace PocketCoder.Recovery

open PocketCoder.Foundation PocketCoder.Journal PocketCoder.Auth

/-! ### Replay -/

/-- `createRecordReplay` for the row of a principal. -/
def replayPrincipal (event : JournalEvent) (row : PrincipalRow) : PrincipalRow :=
  match event with
  | .principalDisabled principalId _ time =>
      if row.id = principalId then { row with disabledAt := row.disabledAt.or (some time) } else row
  | .principalEnabled principalId _ =>
      if row.id = principalId then { row with disabledAt := none } else row
  | .principalAccess principalId scopes templateNames _ =>
      if row.id = principalId then { row with scopes, templateNames } else row
  | _ => row

theorem replayPrincipal_id (event : JournalEvent) (row : PrincipalRow) :
    (replayPrincipal event row).id = row.id := by
  unfold replayPrincipal
  split <;> first | rfl | (split_ifs <;> rfl)

/-- `createRecordReplay` for the row of a key. -/
def replayKey (event : JournalEvent) (key : MachineKeyRow) : MachineKeyRow :=
  match event with
  | .keyRevoked keyId time => revokedKey [keyId] time key
  | .keysRevoked _ keyIds time | .principalDisabled _ keyIds time => revokedKey keyIds time key
  | _ => key

theorem replayKey_id (event : JournalEvent) (key : MachineKeyRow) :
    (replayKey event key).id = key.id := by
  unfold replayKey
  split <;> first | rfl | exact revokedKey_id _ _ _

/-- `createRecordReplay` for the tables of principals and keys. -/
def replayAuth (tables : AuthTables) (event : JournalEvent) : AuthTables where
  principals := tables.principals.update (replayPrincipal event) (replayPrincipal_id event)
  machineKeys := tables.machineKeys.update (replayKey event) (replayKey_id event)

/-- The tables after the journal was replayed on a backup. -/
def restored (backup : AuthTables) (journal : List JournalEvent) : AuthTables :=
  journal.foldl replayAuth backup

/-! ### Columns that the journal rebuilds -/

/-- A column of the principals as a register of the journal. -/
structure Column (V : Type) where
  register : Register JournalEvent String V
  value : PrincipalRow → V
  replay : ∀ event row, value (replayPrincipal event row) =
    (register.sets event row.id).getD (value row)

/-- The lists of a principal. -/
def accessColumn : Column Grants where
  register :=
    { sets := fun event id =>
        match event with
        | .principalAccess principalId scopes templateNames _ =>
            if id = principalId then some ⟨scopes, templateNames⟩ else none
        | _ => none
      le := Grants.Within
      refl := Grants.Within.refl
      trans := Grants.Within.trans }
  value := PrincipalRow.grants
  replay event row := by
    cases event <;> simp only [replayPrincipal] <;> first | rfl | (split_ifs <;> rfl)

/-- Whether a principal is disabled; a disabled one has less. -/
def disabledColumn : Column Bool where
  register :=
    { sets := fun event id =>
        match event with
        | .principalDisabled principalId _ _ => if id = principalId then some true else none
        | .principalEnabled principalId _ => if id = principalId then some false else none
        | _ => none
      le := fun disabled disabled' => disabled' = true → disabled = true
      refl := fun _ h => h
      trans := fun h h' hdisabled => h (h' hdisabled) }
  value row := row.disabledAt.isSome
  replay event row := by
    cases event <;> simp only [replayPrincipal] <;> first | rfl | skip
    all_goals split_ifs
    all_goals simp

/-- The value of a column after a replay: the last one of the journal, or
the one of the backup. -/
theorem Column.value_restored {V : Type} (column : Column V) (backup : AuthTables)
    (journal : List JournalEvent) (id : String) :
    ((restored backup journal).principals.get? id).map column.value =
      ((backup.principals.get? id).map column.value).map fun v =>
        (column.register.last journal id).getD v := by
  refine column.register.foldl_replay
    (fun tables : AuthTables => (tables.principals.get? id).map column.value) ?_ journal backup
  intro tables event
  rw [replayAuth, Table.get?_update, Option.map_map, Option.map_map]
  cases hrow : tables.principals.get? id with
  | none => rfl
  | some row =>
      rw [Option.map_some, Option.map_some, Function.comp, column.replay, Table.key_of_get? hrow]
      rfl

/-! ### Updates in flight -/

inductive Phase where
  /-- The transaction holds the lock of its principal and has yet to append
  these events. -/
  | locked (early : List JournalEvent)
  /-- The transaction has ended, and these events follow it. -/
  | written (late : List JournalEvent)

structure Update where
  change : PrincipalChange
  phase : Phase

structure Controller where
  tables : AuthTables
  journal : List JournalEvent
  updates : List Update

def Controller.initial (tables : AuthTables) : Controller := ⟨tables, [], []⟩

inductive Request where
  | updateManagedPrincipal (actorKeyId id : String) (patch : PrincipalPatch)
  | applyConfiguredPrincipal (input : ConfiguredPrincipal)
  | revokePrincipalKeys (principalId : String) (actorKeyId : Option String)

/-- What a request does once it holds its locks. -/
inductive Plan where
  | change (change : PrincipalChange)
  | create (row : PrincipalRow)
  /-- A revocation for a principal without row only writes its record. -/
  | record (event : JournalEvent)

def plan (tables : AuthTables) (now : Nat) : Request → Except Failure Plan
  | .updateManagedPrincipal actorKeyId id patch =>
      .change <$> managedChange tables actorKeyId id patch now
  | .applyConfiguredPrincipal input =>
      match tables.principals.get? input.id with
      | some target => .ok (.change (configuredChange tables target input now))
      | none =>
          if tables.principals.rows.all fun row => row.name ≠ input.name then
            .ok (.create (configuredRow input now))
          else .error (.api "principal.name_conflict" "A principal with this name already exists.")
  | .revokePrincipalKeys principalId actorKeyId => do
      lockTarget tables principalId actorKeyId now
      match tables.principals.get? principalId with
      | some target => return .change (revocationChange tables target now)
      | none =>
          return .record (.principalDisabled principalId (unrevokedKeyIds tables principalId) now)

/-! ### Planned changes -/

/-- Without new lists in its patch, a change keeps the lists. -/
def Consistent (change : PrincipalChange) : Prop :=
  change.patch.scopes = none → change.patch.templateNames = none →
    change.scopes = change.target.scopes ∧ change.templateNames = change.target.templateNames

/-- A planned change: it is for a row as it is, and revokes keys only when it
disables the principal. -/
structure Planned (tables : AuthTables) (change : PrincipalChange) : Prop where
  target : tables.principals.get? change.target.id = some change.target
  consistent : Consistent change
  keyIds : change.patch.disabled ≠ some true → change.keyIds = []

theorem patchedKeyIds_eq_nil {tables : AuthTables} {id : String} {patch : PrincipalPatch}
    (h : patch.disabled ≠ some true) : patchedKeyIds tables id patch = [] := if_neg h

theorem mem_principalEvents {change : PrincipalChange} {event : JournalEvent}
    (h : event ∈ (principalEvents change).1 ++ (principalEvents change).2) :
    event = .principalAccess change.target.id change.scopes change.templateNames change.time ∨
      (event = .principalDisabled change.target.id change.keyIds change.time ∧
        change.patch.disabled = some true) ∨
      (event = .principalEnabled change.target.id change.time ∧
        change.patch.disabled = some false) := by
  have haccess : event ∈ change.accessEvents →
      event = .principalAccess change.target.id change.scopes change.templateNames change.time := by
    unfold PrincipalChange.accessEvents
    split_ifs
    · exact List.mem_singleton.mp
    · exact fun hnil => absurd hnil List.not_mem_nil
  unfold principalEvents at h
  simp only [List.mem_append] at h
  rcases h with (h | h) | (h | h)
  · split_ifs at h
    · exact .inl (haccess h)
    · exact absurd h List.not_mem_nil
  · split_ifs at h with hdisabled
    · exact .inr (.inl ⟨List.mem_singleton.mp h, hdisabled⟩)
    · exact absurd h List.not_mem_nil
  · split_ifs at h
    · exact absurd h List.not_mem_nil
    · exact .inl (haccess h)
  · split_ifs at h with henabled
    · exact .inr (.inr ⟨List.mem_singleton.mp h, henabled⟩)
    · exact absurd h List.not_mem_nil

theorem managedChange_planned {tables : AuthTables} {actorKeyId id : String}
    {patch : PrincipalPatch} {now : Nat} {change : PrincipalChange}
    (h : managedChange tables actorKeyId id patch now = .ok change) : Planned tables change := by
  unfold managedChange at h
  obtain ⟨⟨authority, caller⟩, -, h⟩ := Except.bind_eq_ok.mp h
  obtain ⟨_, -, h⟩ := Except.bind_eq_ok.mp h
  cases htarget : tables.principals.get? id with
  | none =>
      rw [htarget] at h
      exact (nomatch h)
  | some target =>
      rw [htarget] at h
      obtain ⟨_, -, h⟩ := Except.bind_eq_ok.mp h
      obtain ⟨_, -, h⟩ := Except.bind_eq_ok.mp h
      obtain ⟨_, -, h⟩ := Except.bind_eq_ok.mp h
      obtain rfl := Except.ok.inj h
      refine ⟨?_, fun hscopes htemplateNames => ?_, patchedKeyIds_eq_nil⟩
      · rw [Table.key_of_get? htarget]
        exact htarget
      · dsimp only at hscopes htemplateNames ⊢
        rw [hscopes, htemplateNames]
        exact ⟨rfl, rfl⟩

theorem configuredChange_consistent (tables : AuthTables) (target : PrincipalRow)
    (input : ConfiguredPrincipal) (now : Nat) :
    Consistent (configuredChange tables target input now) := by
  intro hscopes htemplateNames
  simp only [configuredChange, principalPatch] at hscopes htemplateNames ⊢
  split_ifs at hscopes htemplateNames with hsame hsame'
  exact ⟨hsame.symm, hsame'.symm⟩

/-- A planned change is for a row as it is. -/
theorem plan_change {tables : AuthTables} {now : Nat} {request : Request}
    {change : PrincipalChange} (h : plan tables now request = .ok (.change change)) :
    Planned tables change := by
  cases request with
  | updateManagedPrincipal actorKeyId id patch =>
      rw [plan] at h
      cases hchange : managedChange tables actorKeyId id patch now with
      | error failure =>
          rw [hchange] at h
          exact (nomatch h)
      | ok planned =>
          rw [hchange] at h
          obtain rfl := Plan.change.inj (Except.ok.inj h)
          exact managedChange_planned hchange
  | applyConfiguredPrincipal input =>
      rw [plan] at h
      split at h
      · rename_i target htarget
        obtain rfl := Plan.change.inj (Except.ok.inj h)
        refine ⟨?_, configuredChange_consistent tables target input now, patchedKeyIds_eq_nil⟩
        exact (Table.key_of_get? htarget).symm ▸ htarget
      · split_ifs at h
        exact (nomatch Except.ok.inj h)
  | revokePrincipalKeys principalId actorKeyId =>
      rw [plan] at h
      obtain ⟨_, -, h⟩ := Except.bind_eq_ok.mp h
      cases htarget : tables.principals.get? principalId with
      | none =>
          rw [htarget] at h
          exact (nomatch Except.ok.inj h)
      | some target =>
          rw [htarget] at h
          obtain rfl := Plan.change.inj (Except.ok.inj h)
          refine ⟨?_, fun _ _ => ⟨rfl, rfl⟩, fun h => absurd rfl h⟩
          exact (Table.key_of_get? htarget).symm ▸ htarget

theorem plan_record {tables : AuthTables} {now : Nat} {request : Request} {event : JournalEvent}
    (h : plan tables now request = .ok (.record event)) :
    ∃ principalId keyIds, event = .principalDisabled principalId keyIds now := by
  cases request with
  | updateManagedPrincipal actorKeyId id patch =>
      rw [plan] at h
      cases hchange : managedChange tables actorKeyId id patch now with
      | error failure =>
          rw [hchange] at h
          exact (nomatch h)
      | ok planned =>
          rw [hchange] at h
          exact (nomatch Except.ok.inj h)
  | applyConfiguredPrincipal input =>
      rw [plan] at h
      split at h
      · exact (nomatch Except.ok.inj h)
      · split_ifs at h
        exact (nomatch Except.ok.inj h)
  | revokePrincipalKeys principalId actorKeyId =>
      rw [plan] at h
      obtain ⟨_, -, h⟩ := Except.bind_eq_ok.mp h
      cases htarget : tables.principals.get? principalId with
      | none =>
          rw [htarget] at h
          obtain rfl := Plan.record.inj (Except.ok.inj h)
          exact ⟨_, _, rfl⟩
      | some target =>
          rw [htarget] at h
          exact (nomatch Except.ok.inj h)

/-! ### Steps -/

theorem getElem?_set_cases {α : Type} {items : List α} {i j : Nat} {item other : α}
    (h : (items.set i item)[j]? = some other) :
    (j = i ∧ other = item) ∨ (j ≠ i ∧ items[j]? = some other) := by
  rw [List.getElem?_set] at h
  split_ifs at h with hij hlength
  · exact .inl ⟨hij.symm, (Option.some.inj h).symm⟩
  · exact .inr ⟨Ne.symm hij, h⟩

theorem getElem?_concat_cases {α : Type} {items : List α} {j : Nat} {item other : α}
    (h : (items ++ [item])[j]? = some other) :
    (j = items.length ∧ other = item) ∨ items[j]? = some other := by
  by_cases hj : j < items.length
  · exact .inr ((List.getElem?_append_left hj).symm.trans h)
  · rw [List.getElem?_append_right (Nat.le_of_not_lt hj), List.getElem?_singleton] at h
    split_ifs at h with hzero
    exact .inl ⟨by omega, (Option.some.inj h).symm⟩

inductive Action where
  | start (request : Request) (now : Nat)
  | append (i : Nat)
  | commit (i : Nat)
  /-- A transaction fails, or an append after its commit does. -/
  | abandon (i : Nat)
  | other
  | crash

/-- No open transaction holds the lock of the principal. -/
def Controller.Unlocked (controller : Controller) (id : String) : Prop :=
  ∀ update ∈ controller.updates, ∀ early, update.phase = .locked early →
    update.change.target.id ≠ id

inductive Step : Controller → Action → Controller → Prop
  | change {controller : Controller} {request : Request} {now : Nat} {change : PrincipalChange} :
      plan controller.tables now request = .ok (.change change) →
      controller.Unlocked change.target.id →
      Step controller (.start request now)
        { controller with
          updates := controller.updates ++ [⟨change, .locked (principalEvents change).1⟩] }
  | create {controller : Controller} {request : Request} {now : Nat} {row : PrincipalRow} :
      plan controller.tables now request = .ok (.create row) →
      Step controller (.start request now)
        { controller with
          tables := { controller.tables with
            principals := controller.tables.principals.insert row } }
  | record {controller : Controller} {request : Request} {now : Nat} {event : JournalEvent} :
      plan controller.tables now request = .ok (.record event) →
      Step controller (.start request now)
        { controller with journal := controller.journal ++ [event] }
  | early {controller : Controller} {i : Nat} {change : PrincipalChange} {event : JournalEvent}
      {early : List JournalEvent} :
      controller.updates[i]? = some ⟨change, .locked (event :: early)⟩ →
      Step controller (.append i)
        { controller with
          journal := controller.journal ++ [event]
          updates := controller.updates.set i ⟨change, .locked early⟩ }
  | commit {controller : Controller} {i : Nat} {change : PrincipalChange} :
      controller.updates[i]? = some ⟨change, .locked []⟩ →
      Step controller (.commit i)
        { controller with
          tables := change.write controller.tables
          updates := controller.updates.set i ⟨change, .written (principalEvents change).2⟩ }
  | late {controller : Controller} {i : Nat} {change : PrincipalChange} {event : JournalEvent}
      {late : List JournalEvent} :
      controller.updates[i]? = some ⟨change, .written (event :: late)⟩ →
      Step controller (.append i)
        { controller with
          journal := controller.journal ++ [event]
          updates := controller.updates.set i ⟨change, .written late⟩ }
  | abandon {controller : Controller} {i : Nat} {update : Update} :
      controller.updates[i]? = some update →
      Step controller (.abandon i)
        { controller with updates := controller.updates.set i { update with phase := .written [] } }
  /-- Other writers add principals and change keys. -/
  | other {controller : Controller} {tables : AuthTables} :
      (∀ id row, controller.tables.principals.get? id = some row →
        tables.principals.get? id = some row) →
      Step controller .other { controller with tables }
  | crash {controller : Controller} : Step controller .crash { controller with updates := [] }

end PocketCoder.Recovery
