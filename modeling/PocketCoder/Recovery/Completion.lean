import PocketCoder.Recovery.Replay
import PocketCoder.Foundation.Transitions

/-!
Completion of a recovery (`server/src/recovery/complete-recovery.ts`,
`server/src/persistence/persistence-maintenance.ts`, `purge-storage.ts`,
`persistence-transfer-recovery.ts`,
`runtime-core/src/reconciliation/persistence-reconcile.ts`).

An attempt is a list of instructions: the records are applied to the
database, the unfinished operations of the backup are settled, and the
journaled deletions are carried out once more. An instruction may put others
in front of the rest. An attempt may stop anywhere, also in the middle of an
instruction, and the next one starts from the first record. Driver calls
succeed; what else makes an operation fail is left open.
-/

namespace PocketCoder.Recovery.Completion

open PocketCoder.Foundation PocketCoder.Journal

/-! ### Rows -/

structure Workspace where
  id : String
  principalId : String
  /-- Its allocations are all disposable (`tmpfs` or `empty-dir`). -/
  disposable : Bool

structure Checkpoint where
  id : String
  principalId : String
  workspaceId : String
  state : CheckpointState
  hasRef : Bool
  /-- `providerKind` is `controller-archive`; otherwise it is a snapshot of
  the storage driver. -/
  archive : Bool

inductive OperationKind where
  | preserve
  | restore
  | verify
  | delete
  | purge
  deriving DecidableEq

inductive OperationState where
  | pending
  | running
  | succeeded
  | failed
  deriving DecidableEq

/-- The keys of a recovery and of its attempts are random, so none is a key
of the restored database. -/
inductive IdempotencyKey where
  | caller (key : String)
  | recovery (workspaceId : String)
  | attempt (attempt : Nat) (checkpointId : String)
  deriving DecidableEq

structure Operation where
  principalId : String
  kind : OperationKind
  idempotencyKey : IdempotencyKey
  workspaceId : Option String
  checkpointId : Option String
  state : OperationState

abbrev Operation.key (operation : Operation) : String × OperationKind × IdempotencyKey :=
  (operation.principalId, operation.kind, operation.idempotencyKey)

def Operation.incomplete (operation : Operation) : Bool :=
  operation.state = .pending || operation.state = .running

structure Deployment where
  checkpointTransfers : Bool
  storageDriver : Bool

structure Database where
  principals : List String
  workspaces : Table Workspace.id
  checkpoints : Table Checkpoint.id
  operations : Table Operation.key
  /-- The checkpoints with an upload reservation that is not released. -/
  reservations : List String
  journal : List JournalEvent
  removed : List String
  succeeded : List (String × OperationKind × IdempotencyKey)

/-! ### Writes -/

inductive Write where
  | updateCheckpoint (checkpointId : String) (state : CheckpointState)
  /-- `checkpointTransfers.delete`, which also releases the reservation. -/
  | deleteArchive (checkpointId : String)
  | deleteSnapshot (checkpointId : String)

def Write.apply (database : Database) : Write → Database
  | .updateCheckpoint checkpointId state =>
      { database with
        checkpoints := database.checkpoints.updateAt checkpointId (fun row => { row with state })
          fun _ => rfl }
  | .deleteArchive checkpointId =>
      { database with
        removed := checkpointId :: database.removed
        reservations := database.reservations.filter fun id => id ≠ checkpointId }
  | .deleteSnapshot checkpointId =>
      { database with removed := checkpointId :: database.removed }

def writeAll (database : Database) (writes : List Write) : Database :=
  writes.foldl Write.apply database

def Database.settle (database : Database) (key : String × OperationKind × IdempotencyKey)
    (state : OperationState) : Database :=
  { database with
    operations := database.operations.updateAt key (fun operation => { operation with state })
      fun _ => rfl
    succeeded := if state = .succeeded then key :: database.succeeded else database.succeeded }

/-! ### The parts of an attempt -/

/-- `applyRecord`, as far as it concerns checkpoints. -/
def applyRecord (database : Database) : JournalEvent → Database
  | .checkpointDeleted _ checkpointId _ =>
      { database with
        checkpoints := database.checkpoints.updateAt checkpointId
          (fun row => { row with state := .deleted }) fun _ => rfl }
  | _ => database

/-- The writes of `reconcileOperation` for a deletion that the backup left
unfinished; `none` when it throws. An archive is removed only in the state
`deleting`. -/
def reconcileDeletion (deployment : Deployment) (database : Database) (operation : Operation) :
    Option (List Write × Option OperationState) :=
  match operation.checkpointId.bind database.checkpoints.get? with
  | none => some ([], some .failed)
  | some checkpoint =>
      if deployment.checkpointTransfers && checkpoint.archive then
        if checkpoint.state = .deleting && checkpoint.hasRef then
          some ([.deleteArchive checkpoint.id, .updateCheckpoint checkpoint.id .deleted],
            some .succeeded)
        else none
      else if deployment.storageDriver && checkpoint.hasRef then
        some ([.deleteSnapshot checkpoint.id, .updateCheckpoint checkpoint.id .deleted],
          some .succeeded)
      else some ([], none)

def ownedCheckpoints (database : Database) (workspace : Workspace) : List Checkpoint :=
  database.checkpoints.rows.filter fun row =>
    row.principalId = workspace.principalId && row.workspaceId = workspace.id

def purgeStorage (deployment : Deployment) (database : Database) (workspace : Workspace) :
    Option (List Write) :=
  let checkpoints := ownedCheckpoints database workspace
  if deployment.checkpointTransfers && workspace.disposable then
    -- `purgeTransferredStorage`
    if checkpoints.all Checkpoint.archive then
      some (checkpoints.flatMap fun row =>
        (if row.hasRef && row.state ≠ .deleted then
          [.updateCheckpoint row.id .deleting, .deleteArchive row.id]
        else []) ++ [.updateCheckpoint row.id .deleted])
    else none
  else if !deployment.storageDriver then
    if checkpoints.isEmpty then some [] else none
  else if checkpoints.any fun row => row.hasRef && row.archive then
    -- the reference of an archive does not have the identifier of its checkpoint
    none
  else
    some (checkpoints.flatMap fun row =>
      (if row.hasRef then [.deleteSnapshot row.id] else []) ++ [.updateCheckpoint row.id .deleted])

/-- `insertOperation`, with the intent and the journal record of a purge or a
deletion. -/
def insertOperation (database : Database) (operation : Operation) (time : Nat) : Database :=
  if (database.operations.get? operation.key).isSome then database
  else
    { database with
      operations := database.operations.insert operation
      checkpoints :=
        match operation.kind, operation.checkpointId with
        | .delete, some checkpointId => database.checkpoints.updateAt checkpointId
            (fun row => if row.principalId = operation.principalId then
              { row with state := .deleting } else row) fun row => by split_ifs <;> rfl
        | _, _ => database.checkpoints
      journal := database.journal ++
        match operation.kind, operation.workspaceId, operation.checkpointId with
        | .purge, some workspaceId, _ =>
            [.workspacePurged operation.principalId workspaceId time]
        | .delete, _, some checkpointId =>
            [.checkpointDeleted operation.principalId checkpointId time]
        | _, _, _ => [] }

inductive Instruction where
  | applyRecord (event : JournalEvent)
  /-- `fenceRuntimes` and `reconcileCheckpointPreserves`. -/
  | housekeeping
  | reconcilePersistence
  | reconcileOperation (operation : Operation)
  | retryPurges
  | runPurge (operation : Operation)
  | replayDeletion (event : JournalEvent)
  /-- The deletion itself, for an operation that was just inserted. -/
  | runDelete (operation : Operation)
  | settled (key : String × OperationKind × IdempotencyKey)
  | finishRecovery

def completeRecovery (events : List JournalEvent) : List Instruction :=
  events.map .applyRecord ++ [.housekeeping, .reconcilePersistence, .retryPurges] ++
    events.map .replayDeletion ++ [.finishRecovery]

/-- What the settling of workspaces, uploads and other operations keeps. -/
structure Keeps (database database' : Database) : Prop where
  principals : database'.principals = database.principals
  workspaces : database'.workspaces = database.workspaces
  journal : database'.journal = database.journal
  removed : ∀ id ∈ database.removed, id ∈ database'.removed
  succeeded : database'.succeeded = database.succeeded
  reservations : ∀ id ∈ database'.reservations, id ∈ database.reservations
  checkpoints : ∀ id row, database.checkpoints.get? id = some row → row.hasRef = true →
    ∃ state, database'.checkpoints.get? id = some { row with state }
  operations : ∀ key operation, database.operations.get? key = some operation →
    operation.kind = .delete ∨ operation.kind = .purge →
      database'.operations.get? key = some operation
  fresh : ∀ key operation, database'.operations.get? key = some operation →
    operation.kind = .delete ∨ operation.kind = .purge →
      database.operations.get? key = some operation

def purgeOperation (principalId workspaceId : String) : Operation :=
  ⟨principalId, .purge, .recovery workspaceId, some workspaceId, none, .pending⟩

def deleteOperation (attempt : Nat) (principalId : String) (checkpoint : Checkpoint) : Operation :=
  ⟨principalId, .delete, .attempt attempt checkpoint.id, some checkpoint.workspaceId,
    some checkpoint.id, .pending⟩

/-- The writes of `delete` after its operation was inserted. -/
def deletionWrites (deployment : Deployment) (checkpoint : Checkpoint) : List Write :=
  [.updateCheckpoint checkpoint.id .deleting] ++
    (if checkpoint.hasRef then
      [if checkpoint.archive && deployment.checkpointTransfers then .deleteArchive checkpoint.id
        else .deleteSnapshot checkpoint.id]
    else []) ++ [.updateCheckpoint checkpoint.id .deleted]

def PurgeWrites (deployment : Deployment) (database : Database) (operation : Operation)
    (writes : List Write) : Prop :=
  ∃ workspaceId workspace, operation.workspaceId = some workspaceId ∧
    database.workspaces.get? workspaceId = some workspace ∧
      purgeStorage deployment database workspace = some writes

/-- One instruction: the database after it and the instructions it adds. -/
inductive Exec (deployment : Deployment) (attempt : Nat) :
    Database → Instruction → Database → List Instruction → Prop
  | applyRecord {database : Database} {event : JournalEvent} :
      Exec deployment attempt database (.applyRecord event)
        (Completion.applyRecord database event) []
  | housekeeping {database database' : Database} : Keeps database database' →
      Exec deployment attempt database .housekeeping database' []
  | reconcilePersistence {database : Database} :
      Exec deployment attempt database .reconcilePersistence database
        ((database.operations.rows.filter Operation.incomplete).map .reconcileOperation)
  | reconcileDeletion {database : Database} {operation : Operation} {writes : List Write}
      {state : Option OperationState} :
      operation.kind = .delete →
      Completion.reconcileDeletion deployment database operation = some (writes, state) →
      Exec deployment attempt database (.reconcileOperation operation)
        ((writeAll database writes).settle operation.key (state.getD operation.state)) []
  | reconcileOther {database database' : Database} {operation : Operation} :
      operation.kind ≠ .delete → Keeps database database' →
      Exec deployment attempt database (.reconcileOperation operation) database' []
  | retryPurges {database : Database} :
      Exec deployment attempt database .retryPurges database
        ((database.operations.rows.filter fun operation =>
          operation.incomplete && operation.kind = .purge).map .runPurge)
  | purged {database : Database} {operation : Operation} {writes : List Write} :
      PurgeWrites deployment database operation writes →
      Exec deployment attempt database (.runPurge operation)
        ((writeAll database writes).settle operation.key .succeeded) []
  | purgePending {database : Database} {operation : Operation} {writes : List Write} (n : Nat) :
      PurgeWrites deployment database operation writes ∨ writes = [] →
      Exec deployment attempt database (.runPurge operation)
        ((writeAll database (writes.take n)).settle operation.key .pending) []
  /-- Without the principal or the workspace, only the runtime is removed. -/
  | replayUnknownPurge {database : Database} {principalId workspaceId : String} {time : Nat} :
      database.principals.contains principalId = false ∨
        database.workspaces.get? workspaceId = none →
      Exec deployment attempt database (.replayDeletion (.workspacePurged principalId workspaceId time))
        database []
  | replayPurge {database : Database} {principalId workspaceId : String} {time now : Nat}
      {workspace : Workspace} {operation : Operation} :
      database.principals.contains principalId = true →
      database.workspaces.get? workspaceId = some workspace →
      workspace.principalId = principalId →
      (insertOperation database (purgeOperation principalId workspaceId) now).operations.get?
        (purgeOperation principalId workspaceId).key = some operation →
      Exec deployment attempt database (.replayDeletion (.workspacePurged principalId workspaceId time))
        (insertOperation database (purgeOperation principalId workspaceId) now)
        ((if operation.state = .succeeded then [] else [.runPurge operation]) ++
          [.settled operation.key])
  | replayDeleted {database : Database} {principalId checkpointId : String} {time : Nat} :
      database.principals.contains principalId = false ∨
        (∀ row, database.checkpoints.get? checkpointId = some row → row.state = .deleted) →
      Exec deployment attempt database
        (.replayDeletion (.checkpointDeleted principalId checkpointId time)) database []
  | replayDelete {database : Database} {principalId checkpointId : String} {time now : Nat}
      {row : Checkpoint} :
      database.principals.contains principalId = true →
      database.checkpoints.get? checkpointId = some row → row.state ≠ .deleted →
      row.principalId = principalId →
      Exec deployment attempt database
        (.replayDeletion (.checkpointDeleted principalId checkpointId time))
        (insertOperation database (deleteOperation attempt principalId row) now)
        ((if (database.operations.get? (deleteOperation attempt principalId row).key).isSome then []
          else [.runDelete (deleteOperation attempt principalId row)]) ++
          [.settled (deleteOperation attempt principalId row).key])
  | replayOther {database : Database} {event : JournalEvent} :
      (∀ principalId workspaceId time, event ≠ .workspacePurged principalId workspaceId time) →
      (∀ principalId checkpointId time, event ≠ .checkpointDeleted principalId checkpointId time) →
      Exec deployment attempt database (.replayDeletion event) database []
  | runDelete {database : Database} {operation : Operation} {row : Checkpoint} :
      operation.checkpointId.bind database.checkpoints.get? = some row →
      (row.hasRef && !(row.archive && deployment.checkpointTransfers) →
        deployment.storageDriver = true) →
      Exec deployment attempt database (.runDelete operation)
        ((writeAll database (deletionWrites deployment row)).settle operation.key .succeeded) []
  | deleteFailed {database : Database} {operation : Operation} {row : Checkpoint} (n : Nat) :
      operation.checkpointId.bind database.checkpoints.get? = some row →
      Exec deployment attempt database (.runDelete operation)
        ((writeAll database ((deletionWrites deployment row).take n)).settle operation.key .failed)
        []
  | settled {database : Database} {key : String × OperationKind × IdempotencyKey}
      {operation : Operation} :
      database.operations.get? key = some operation → operation.state = .succeeded →
      Exec deployment attempt database (.settled key) database []

structure Attempts where
  database : Database
  attempt : Nat
  todo : List Instruction
  returned : Bool

def Attempts.initial (database : Database) : Attempts := ⟨database, 0, [], false⟩

inductive Action where
  | start
  | advance
  | stop

inductive Step (deployment : Deployment) : Attempts → Action → Attempts → Prop
  | start {attempts : Attempts} : attempts.todo = [] → attempts.returned = false →
      Step deployment attempts .start
        { attempts with
          attempt := attempts.attempt + 1
          todo := completeRecovery attempts.database.journal }
  | advance {attempts : Attempts} {instruction : Instruction} {rest more : List Instruction}
      {database : Database} :
      attempts.todo = instruction :: rest →
      Exec deployment attempts.attempt attempts.database instruction database more →
      Step deployment attempts .advance { attempts with database, todo := more ++ rest }
  | finish {attempts : Attempts} : attempts.todo = [.finishRecovery] →
      Step deployment attempts .advance { attempts with todo := [], returned := true }
  /-- An attempt ends before an instruction, by an exception or a crash. -/
  | stop {attempts : Attempts} :
      Step deployment attempts .stop { attempts with todo := [] }
  | stopWithin {attempts : Attempts} {writes : List Write} (n : Nat) :
      (∃ operation rest state, attempts.todo = .reconcileOperation operation :: rest ∧
        reconcileDeletion deployment attempts.database operation = some (writes, state)) ∨
      (∃ operation rest, attempts.todo = .runPurge operation :: rest ∧
        PurgeWrites deployment attempts.database operation writes) ∨
      (∃ operation rest row, attempts.todo = .runDelete operation :: rest ∧
        writes = deletionWrites deployment row) →
      Step deployment attempts .stop
        { attempts with database := writeAll attempts.database (writes.take n), todo := [] }

end PocketCoder.Recovery.Completion
