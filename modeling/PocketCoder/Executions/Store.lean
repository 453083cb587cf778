import PocketCoder.Foundation.Transaction
import PocketCoder.Workspaces.Rows

/-!
The tables behind executions, and where a record is kept
(`db/src/modules/workspaces/execution-owners.ts`). The record of a process is
a column of its workspace; the record of a conversation request is a column
of the row of that request.

A transaction reads and writes the tables and may throw, after which the
tables are the old ones.
-/

namespace PocketCoder.Executions

open PocketCoder.Foundation PocketCoder.Workspaces
open PocketCoder.Foundation.Transaction (check require committed)

/-! ### Tables -/

structure ConversationRequestRow where
  principalId : String
  conversationId : String
  requestId : String
  identity : ConversationRequestIdentity
  execution : Option ExecutionRecord

/-- The primary key. -/
abbrev ConversationRequestRow.key (row : ConversationRequestRow) : String × String × String :=
  (row.principalId, row.conversationId, row.requestId)

theorem ConversationRequestRow.withExecution_key (record : ExecutionRecord)
    (row : ConversationRequestRow) :
    ConversationRequestRow.key { row with execution := some record } = row.key :=
  rfl

structure Principal where
  id : String
  disabledAt : Option Nat

structure InputManifestRow where
  id : InputManifestId
  manifest : AcceptedInputManifest
  finalizedAt : Option Nat

inductive InputState where
  | uploading
  | ready
  | unavailable
  | releasing
  | expired
  | deleted
  deriving DecidableEq

structure InputObjectRow where
  workspaceId : String
  fileId : String
  principalId : String
  reference : InputObjectReference
  state : InputState
  retainedUntil : Nat
  retentionMs : Nat

abbrev InputObjectRow.key (row : InputObjectRow) : String × String := (row.workspaceId, row.fileId)

structure Database where
  workspaces : WorkspaceTable
  conversationRequests : Table ConversationRequestRow.key
  principals : Table Principal.id
  inputManifests : Table InputManifestRow.id
  inputObjects : Table InputObjectRow.key

/-! ### Transactions -/

/-- What a transaction throws. -/
inductive Failure where
  /-- An `ApiError` with its code and message. -/
  | api (code message : String)
  | error (message : String)
  | zod
  deriving DecidableEq

/-- A transaction on the tables. -/
abbrev Transaction (α : Type) := Foundation.Transaction Database Failure α

def executionConflict (message : String) : Failure := .api "operation.conflict" message

/-! ### Where a record is kept -/

def sameExecution (record : Option ExecutionRecord) (execution : WorkloadExecutionReference) :
    Option ExecutionRecord :=
  record.filter fun record => record.acceptance.execution = execution

/-- `readExecution`. The rows of a query come in the order of the table. -/
def readExecution (db : Database) (workspace : WorkspaceRow)
    (execution : WorkloadExecutionReference) : Option ExecutionRecord :=
  match execution.owner with
  | .process => sameExecution workspace.processExecution execution
  | .conversationRequest =>
      (db.conversationRequests.rows.filter fun row =>
        row.principalId = workspace.principalId && row.requestId = execution.requestId).findSome?
        fun row => sameExecution row.execution execution

def writeExecution (record : ExecutionRecord) : Transaction Unit := fun db =>
  let execution := record.acceptance.execution
  match execution.owner with
  | .process =>
      .ok ((), { db with
        workspaces := db.workspaces.updateAt execution.workspaceId
          (fun row => { row with processExecution := some record }) fun _ => rfl })
  | .conversationRequest =>
      let rows := db.conversationRequests.rows.filter fun row =>
        row.principalId = record.acceptance.callerPrincipalId &&
          row.requestId = execution.requestId
      match rows.find? fun row => (sameExecution row.execution execution).isSome with
      | none => .error (.error "Execution owner missing")
      | some row =>
          .ok ((), { db with
            conversationRequests := db.conversationRequests.updateAt row.key
              (fun row => { row with execution := some record }) fun _ => rfl })

end PocketCoder.Executions
