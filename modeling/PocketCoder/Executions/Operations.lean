import PocketCoder.Executions.Lifecycle
import PocketCoder.Foundation.Transitions

/-!
The store as one transition system: every transaction on executions and on
the runtime of a workspace, interleaved in any order with the writers of the
other columns and tables.

The records are addressed by slots. `Refines` connects an operation with the
life of a record: every record is left alone or makes one move, and a new
record is a freshly accepted one in an empty slot.
-/

namespace PocketCoder.Executions

open PocketCoder.Foundation PocketCoder.Workspaces
open PocketCoder.Foundation.Transaction (committed)

/-! ### Operations -/

/-- The columns of a workspace that other writers change: transitions,
patches, connections. None of them is a record, a fact or the runtime. -/
structure WorkspaceColumns where
  state : WorkspaceState
  providerRef : Option JsonValue
  connectionEpoch : Nat
  deadlineAt : Nat
  purgeRequestedAt : Option Nat

def WorkspaceColumns.write (columns : WorkspaceColumns) (row : WorkspaceRow) : WorkspaceRow :=
  { row with
    state := columns.state
    providerRef := columns.providerRef
    connectionEpoch := columns.connectionEpoch
    deadlineAt := columns.deadlineAt
    purgeRequestedAt := columns.purgeRequestedAt }

theorem WorkspaceColumns.write_id (columns : WorkspaceColumns) (row : WorkspaceRow) :
    (columns.write row).id = row.id := rfl

/-- The transactions of the store, with their arguments. -/
inductive Operation where
  | accept (input : WorkloadAcceptance) (now : Nat)
      (identity : Option ConversationRequestIdentity)
  | claim (execution : WorkloadExecutionReference) (now : Nat)
  | reconcile (execution : WorkloadExecutionReference)
  | cancel (input : WorkloadCancel) (now : Nat)
  | observe (execution : WorkloadExecutionReference) (fingerprint : String)
      (phase : ExecutionPhase) (epoch now : Nat) (outcome : JsonValue)
  | acknowledge (execution : WorkloadExecutionReference) (fingerprint : String) (now : Nat)
  | finalize (execution : WorkloadExecutionReference) (now : Nat)
  | bindWorkspaceRuntime (id : String) (runtime : WorkspaceRuntimeRegistration)
      (providerRef : JsonValue)
  | markWorkspaceRuntimeReady (id incarnationId : String) (connectionEpoch now : Nat)
  | recordFiniteProcess (id : String) (connectionEpoch : Nat) (fact : FiniteProcessFact)
  | endWorkspaceRuntime (id incarnationId : String) (now : Nat)
  /-- Another writer changes the other columns of a workspace. -/
  | updateWorkspace (id : String) (columns : WorkspaceColumns)
  /-- A workspace is created, without runtime, record or fact. -/
  | insertWorkspace (row : WorkspaceRow)
  /-- A conversation request without execution. -/
  | insertRequest (row : ConversationRequestRow)
  /-- Principals and inputs change. -/
  | replaceInputs (principals : Table Principal.id) (inputManifests : Table InputManifestRow.id)
      (inputObjects : Table InputObjectRow.key)

/-- The tables after an operation, committed or rolled back. -/
def transact (db : Database) : Operation → Database
  | .accept input now identity => committed (accept input now identity) db
  | .claim execution now => committed (claim execution now) db
  | .reconcile execution => committed (reconcile execution) db
  | .cancel input now => committed (cancel input now) db
  | .observe execution fingerprint phase epoch now outcome =>
      committed (observe execution fingerprint phase epoch now outcome) db
  | .acknowledge execution fingerprint now => committed (acknowledge execution fingerprint now) db
  | .finalize execution now => committed (finalize execution now) db
  | .bindWorkspaceRuntime id runtime providerRef =>
      committed (bindWorkspaceRuntime id runtime providerRef) db
  | .markWorkspaceRuntimeReady id incarnationId connectionEpoch now =>
      committed (markWorkspaceRuntimeReady id incarnationId connectionEpoch now) db
  | .recordFiniteProcess id connectionEpoch fact =>
      committed (recordFiniteProcess id connectionEpoch fact) db
  | .endWorkspaceRuntime id incarnationId now =>
      committed (endWorkspaceRuntime id incarnationId now) db
  | .updateWorkspace id columns =>
      { db with workspaces := db.workspaces.updateAt id columns.write columns.write_id }
  | .insertWorkspace row =>
      { db with
        workspaces := db.workspaces.insert { row with
          runtimeRegistration := none, processExecution := none, finiteProcess := none } }
  | .insertRequest row =>
      { db with
        conversationRequests := db.conversationRequests.insert { row with execution := none } }
  | .replaceInputs principals inputManifests inputObjects =>
      { db with principals, inputManifests, inputObjects }

/-- One step of the store. -/
def Transacts (db : Database) (operation : Operation) (db' : Database) : Prop :=
  db' = transact db operation

/-! ### Slots -/

/-- Where a record may be kept. -/
inductive Slot where
  | process (workspaceId : String)
  | request (key : String × String × String)
  deriving DecidableEq

/-- The record in a slot. -/
def Database.record (db : Database) : Slot → Option ExecutionRecord
  | .process workspaceId => (db.workspaces.get? workspaceId).bind WorkspaceRow.processExecution
  | .request key => (db.conversationRequests.get? key).bind ConversationRequestRow.execution

/-- The rows of the workspaces, without their records. -/
def Database.others (db : Database) (id : String) : Option WorkspaceRow :=
  (db.workspaces.get? id).map fun row => { row with processExecution := none }

/-- The slot belongs to the execution and the caller of the acceptance. -/
def Owns : Slot → WorkloadAcceptance → Prop
  | .process workspaceId, acceptance =>
      acceptance.execution.owner = .process ∧ acceptance.execution.workspaceId = workspaceId
  | .request key, acceptance =>
      acceptance.execution.owner = .conversationRequest ∧ acceptance.callerPrincipalId = key.1 ∧
        acceptance.execution.requestId = key.2.2

/-- What an operation may do to the row of a workspace. -/
inductive RowMoves : WorkspaceRow → WorkspaceRow → Prop
  /-- Only the process record may change. -/
  | record {row : WorkspaceRow} (later : Option ExecutionRecord) :
      RowMoves row { row with processExecution := later }
  | bound {row : WorkspaceRow} (runtime : WorkspaceRuntimeRegistration) :
      row.runtimeRegistration = none → RowMoves row (boundRow runtime row)
  | ready {row : WorkspaceRow} (now : Nat) : RowMoves row (readyRow now row)
  | fact {row : WorkspaceRow} {connectionEpoch : Nat} (fact : FiniteProcessFact) :
      fact.conforms = true → recordsFact row row.id connectionEpoch fact = true →
      RowMoves row (factRow fact row)
  | ended {row : WorkspaceRow} (now : Nat) : RowMoves row (endRow now row)
  | columns {row : WorkspaceRow} (columns : WorkspaceColumns) : RowMoves row (columns.write row)

theorem RowMoves.refl (row : WorkspaceRow) : RowMoves row row := .record row.processExecution

/-- The evidence a runtime keeps: its incarnation, template and producer. -/
structure RuntimeKept (runtime later : WorkspaceRuntimeRegistration) : Prop where
  incarnationId : later.incarnationId = runtime.incarnationId
  template : later.template = runtime.template
  producer : later.producer = runtime.producer

theorem RowMoves.principalId {row later : WorkspaceRow} (h : RowMoves row later) :
    later.principalId = row.principalId := by
  cases h <;> rfl

/-- A runtime stays bound, with the evidence it was bound with. -/
theorem RowMoves.runtime {row later : WorkspaceRow} (h : RowMoves row later)
    {runtime : WorkspaceRuntimeRegistration} (hruntime : row.runtimeRegistration = some runtime) :
    ∃ runtime', later.runtimeRegistration = some runtime' ∧ RuntimeKept runtime runtime' := by
  cases h with
  | bound _ hnone => rw [hnone] at hruntime; exact absurd hruntime (by simp)
  | ready now =>
      refine ⟨{ runtime with readyAt := runtime.readyAt.or (some (toISOString now)) }, ?_,
        rfl, rfl, rfl⟩
      rw [readyRow, hruntime]
      rfl
  | ended now =>
      refine ⟨{ runtime with endedAt := some (toISOString now) }, ?_, rfl, rfl, rfl⟩
      rw [endRow, hruntime]
      rfl
  | record _ => exact ⟨runtime, hruntime, rfl, rfl, rfl⟩
  | fact _ _ _ => exact ⟨runtime, hruntime, rfl, rfl, rfl⟩
  | columns _ => exact ⟨runtime, hruntime, rfl, rfl, rfl⟩

/-- The caller of an acceptance owns its workspace, which has a runtime. -/
def Hosted (db : Database) (acceptance : WorkloadAcceptance) : Prop :=
  ∃ row, db.workspaces.get? acceptance.execution.workspaceId = some row ∧
    row.principalId = acceptance.callerPrincipalId ∧ row.runtimeRegistration.isSome = true

/-- Every record is in a slot of its own, the only one for its execution. -/
structure Database.Owned (db : Database) : Prop where
  owns : ∀ {slot record}, db.record slot = some record → Owns slot record.acceptance
  hosted : ∀ {slot record}, db.record slot = some record → Hosted db record.acceptance
  unique : ∀ {slot slot' record record'}, db.record slot = some record →
    db.record slot' = some record' →
    record.acceptance.execution = record'.acceptance.execution → slot = slot'

/-- A record that may be put in an empty slot. -/
def Admits (db : Database) (slot : Slot) (record : ExecutionRecord) : Prop :=
  ∃ input identity now, record = acceptedRecord input identity now ∧ Owns slot input ∧
    Hosted db input ∧
    ∀ slot' record', db.record slot' = some record' →
      record'.acceptance.execution ≠ input.execution

/-- What an operation may do: each record stays or makes a move, at most one
is new, and so for the rows. -/
structure Refines (db db' : Database) : Prop where
  kept : ∀ {slot record}, db.record slot = some record →
    ∃ next, db'.record slot = some next ∧ (next = record ∨ Moves record next)
  added : ∀ {slot next}, db.record slot = none → db'.record slot = some next →
    Admits db slot next
  single : ∀ {slot slot' next next'}, db.record slot = none → db'.record slot = some next →
    db.record slot' = none → db'.record slot' = some next' → slot = slot'
  rows : ∀ {id row}, db.workspaces.get? id = some row →
    ∃ row', db'.workspaces.get? id = some row' ∧ RowMoves row row'
  /-- A new workspace has no runtime and no fact. -/
  fresh : ∀ {id row}, db.workspaces.get? id = none → db'.workspaces.get? id = some row →
    row.runtimeRegistration = none ∧ row.finiteProcess = none

/-- What an operation other than an acceptance may do: no record is new. -/
structure Rewrites (db db' : Database) : Prop where
  kept : ∀ {slot record}, db.record slot = some record →
    ∃ next, db'.record slot = some next ∧ (next = record ∨ Moves record next)
  old : ∀ {slot}, db.record slot = none → db'.record slot = none
  rows : ∀ {id row}, db.workspaces.get? id = some row →
    ∃ row', db'.workspaces.get? id = some row' ∧ RowMoves row row'
  fresh : ∀ {id row}, db.workspaces.get? id = none → db'.workspaces.get? id = some row →
    row.runtimeRegistration = none ∧ row.finiteProcess = none

theorem Rewrites.refines {db db' : Database} (h : Rewrites db db') : Refines db db' where
  kept := h.kept
  added {slot next} hnone hnext := by
    rw [h.old hnone] at hnext
    contradiction
  single {slot slot' next next'} hnone hnext := by
    rw [h.old hnone] at hnext
    contradiction
  rows := h.rows
  fresh := h.fresh

/-- One slot gets a record, and nothing else changes in slots and rows. -/
structure Puts (db : Database) (slot : Slot) (record : ExecutionRecord) (db' : Database) :
    Prop where
  record : db'.record = Function.update db.record slot (some record)
  others : db'.others = db.others

/-- The slots and rows are the same. -/
structure SameSlots (db db' : Database) : Prop where
  workspaces : db'.workspaces = db.workspaces
  conversationRequests : db'.conversationRequests = db.conversationRequests

theorem SameSlots.refl (db : Database) : SameSlots db db := ⟨rfl, rfl⟩

theorem SameSlots.trans {db db' db'' : Database} (h : SameSlots db db') (h' : SameSlots db' db'') :
    SameSlots db db'' :=
  ⟨h'.workspaces.trans h.workspaces, h'.conversationRequests.trans h.conversationRequests⟩

theorem SameSlots.record {db db' : Database} (h : SameSlots db db') : db'.record = db.record := by
  funext slot
  cases slot with
  | process workspaceId => rw [Database.record, Database.record, h.workspaces]
  | request key => rw [Database.record, Database.record, h.conversationRequests]

theorem SameSlots.others {db db' : Database} (h : SameSlots db db') : db'.others = db.others := by
  funext id
  rw [Database.others, Database.others, h.workspaces]

/-- A record that moves or stays keeps its acceptance. -/
theorem acceptance_of_moves {record next : ExecutionRecord} (h : next = record ∨ Moves record next) :
    next.acceptance = record.acceptance := by
  rcases h with rfl | h
  · rfl
  · cases h <;> rfl

theorem Hosted.kept {db db' : Database} (h : Refines db db') {acceptance : WorkloadAcceptance}
    (hosted : Hosted db acceptance) : Hosted db' acceptance := by
  obtain ⟨row, hrow, hprincipal, hruntime⟩ := hosted
  obtain ⟨row', hrow', hmoves⟩ := h.rows hrow
  obtain ⟨runtime, hruntime⟩ := Option.isSome_iff_exists.mp hruntime
  obtain ⟨runtime', hruntime', -⟩ := hmoves.runtime hruntime
  exact ⟨row', hrow', hmoves.principalId.trans hprincipal, by rw [hruntime']; rfl⟩

/-- A record after an operation was there before, or is the new one. -/
theorem Refines.origin {db db' : Database} (h : Refines db db') {slot : Slot}
    {next : ExecutionRecord} (hnext : db'.record slot = some next) :
    (∃ record, db.record slot = some record ∧ (next = record ∨ Moves record next)) ∨
      (db.record slot = none ∧ Admits db slot next) := by
  cases hrecord : db.record slot with
  | none => exact .inr ⟨rfl, h.added hrecord hnext⟩
  | some record =>
      obtain ⟨next', hnext', hmoves⟩ := h.kept hrecord
      obtain rfl : next = next' := Option.some.inj (hnext.symm.trans hnext')
      exact .inl ⟨record, rfl, hmoves⟩

theorem Refines.owned {db db' : Database} (h : Refines db db') (howned : db.Owned) :
    db'.Owned where
  owns {slot next} hnext := by
    rcases h.origin hnext with ⟨record, hrecord, hmoves⟩ | ⟨-, input, _, _, rfl, howns, -, -⟩
    · rw [acceptance_of_moves hmoves]
      exact howned.owns hrecord
    · exact howns
  hosted {slot next} hnext := by
    rcases h.origin hnext with ⟨record, hrecord, hmoves⟩ | ⟨-, input, _, _, rfl, -, hosted, -⟩
    · rw [acceptance_of_moves hmoves]
      exact (howned.hosted hrecord).kept h
    · exact hosted.kept h
  unique {slot slot' next next'} hnext hnext' heq := by
    rcases h.origin hnext with ⟨record, hrecord, hmoves⟩ | ⟨hnone, input, _, _, rfl, -, -, hnew⟩
    · rw [acceptance_of_moves hmoves] at heq
      rcases h.origin hnext' with ⟨record', hrecord', hmoves'⟩ | ⟨-, input, _, _, rfl, -, -, hnew⟩
      · rw [acceptance_of_moves hmoves'] at heq
        exact howned.unique hrecord hrecord' heq
      · exact absurd heq (hnew slot record hrecord)
    · rcases h.origin hnext' with ⟨record', hrecord', hmoves'⟩ | ⟨hnone', -⟩
      · rw [acceptance_of_moves hmoves'] at heq
        exact absurd heq.symm (hnew slot' record' hrecord')
      · exact h.single hnone hnext hnone' hnext'

/-- A record written to a row. -/
theorem puts_process {db : Database} {id : String} {row : WorkspaceRow}
    (hrow : db.workspaces.get? id = some row) (record : ExecutionRecord) :
    Puts db (.process id) record { db with
      workspaces := db.workspaces.updateAt id
        (fun row => { row with processExecution := some record }) fun _ => rfl } := by
  constructor
  · funext slot
    cases slot with
    | process id' =>
        rw [Database.record, Table.get?_updateAt, Function.update_apply]
        by_cases hid : id' = id
        · rw [if_pos hid, if_pos (by rw [hid]), hrow]
          rfl
        · rw [if_neg hid, if_neg fun heq => hid (Slot.process.inj heq)]
          rfl
    | request key => rfl
  · funext id'
    rw [Database.others, Table.get?_updateAt]
    by_cases hid : id' = id
    · rw [if_pos hid, Database.others, hid, hrow]
      rfl
    · rw [if_neg hid]
      rfl

theorem puts_request {db : Database} {key : String × String × String} {row : ConversationRequestRow}
    (hrow : db.conversationRequests.get? key = some row) (record : ExecutionRecord) :
    Puts db (.request key) record { db with
      conversationRequests := db.conversationRequests.updateAt key
        (fun row => { row with execution := some record }) fun _ => rfl } := by
  refine ⟨?_, rfl⟩
  funext slot
  cases slot with
  | process id => rfl
  | request key' =>
      rw [Database.record, Table.get?_updateAt, Function.update_apply]
      by_cases hkey : key' = key
      · rw [if_pos hkey, if_pos (by rw [hkey]), hrow]
        rfl
      · rw [if_neg hkey, if_neg fun heq => hkey (Slot.request.inj heq)]
        rfl

/-! ### Shapes of operations -/

/-- Where only the records of processes may differ, every row is still there. -/
theorem rows_of_others {db db' : Database} (h : db'.others = db.others) {id : String}
    {row : WorkspaceRow} (hrow : db.workspaces.get? id = some row) :
    ∃ row', db'.workspaces.get? id = some row' ∧ RowMoves row row' := by
  have hid := congrFun h id
  rw [Database.others, Database.others, hrow, Option.map_some, Option.map_eq_some_iff] at hid
  obtain ⟨row', hrow', heq⟩ := hid
  refine ⟨row', hrow', ?_⟩
  have hlater : row' = { row with processExecution := row'.processExecution } :=
    congrArg (fun other => { other with processExecution := row'.processExecution }) heq
  rw [hlater]
  exact .record _

theorem fresh_of_others {db db' : Database} (h : db'.others = db.others) {id : String}
    {row : WorkspaceRow} (hnone : db.workspaces.get? id = none)
    (hrow : db'.workspaces.get? id = some row) :
    row.runtimeRegistration = none ∧ row.finiteProcess = none := by
  have hid := congrFun h id
  rw [Database.others, Database.others, hnone, hrow] at hid
  exact absurd hid (by simp)

theorem rewrites_same {db db' : Database} (hrecord : db'.record = db.record)
    (hothers : db'.others = db.others) : Rewrites db db' where
  kept {slot record} h := ⟨record, by rw [hrecord, h], .inl rfl⟩
  old {slot} h := by rw [hrecord, h]
  rows := rows_of_others hothers
  fresh := fresh_of_others hothers

theorem SameSlots.rewrites {db db' : Database} (h : SameSlots db db') : Rewrites db db' :=
  rewrites_same h.record h.others

theorem SameSlots.refines {db db' : Database} (h : SameSlots db db') : Refines db db' :=
  h.rewrites.refines

theorem rewrites_move {db db' : Database} {slot : Slot} {record next : ExecutionRecord}
    (hrecord : db.record slot = some record) (hmove : Moves record next)
    (hputs : Puts db slot next db') : Rewrites db db' where
  kept {slot' record'} h := by
    rw [hputs.record, Function.update_apply]
    by_cases hslot : slot' = slot
    · obtain rfl : record' = record := Option.some.inj (h.symm.trans (hslot ▸ hrecord))
      exact ⟨next, if_pos hslot, .inr hmove⟩
    · exact ⟨record', by rw [if_neg hslot, h], .inl rfl⟩
  old {slot'} hnone := by
    rw [hputs.record, Function.update_apply]
    by_cases hslot : slot' = slot
    · rw [hslot, hrecord] at hnone
      contradiction
    · rw [if_neg hslot, hnone]
  rows := rows_of_others hputs.others
  fresh := fresh_of_others hputs.others

theorem refines_new {db db' : Database} {slot : Slot} {record : ExecutionRecord}
    (hnone : db.record slot = none) (hadmits : Admits db slot record)
    (hputs : Puts db slot record db') : Refines db db' where
  kept {slot' record'} h := by
    rw [hputs.record, Function.update_apply]
    by_cases hslot : slot' = slot
    · rw [hslot, hnone] at h
      exact absurd h (by simp)
    · exact ⟨record', by rw [if_neg hslot, h], .inl rfl⟩
  added {slot' next'} hnone' h := by
    rw [hputs.record, Function.update_apply] at h
    split_ifs at h with hslot
    · obtain rfl := Option.some.inj h
      exact hslot ▸ hadmits
    · rw [hnone'] at h
      exact absurd h (by simp)
  single {slot₁ slot₂ next₁ next₂} hnone₁ h₁ hnone₂ h₂ := by
    rw [hputs.record, Function.update_apply] at h₁ h₂
    split_ifs at h₁ with hslot₁
    · split_ifs at h₂ with hslot₂
      · rw [hslot₁, hslot₂]
      · rw [hnone₂] at h₂
        exact absurd h₂ (by simp)
    · rw [hnone₁] at h₁
      exact absurd h₁ (by simp)
  rows := rows_of_others hputs.others
  fresh := fresh_of_others hputs.others

end PocketCoder.Executions
