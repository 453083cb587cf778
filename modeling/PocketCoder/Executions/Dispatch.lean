import PocketCoder.Executions.Validation

/-!
The transactions on execution records
(`db/src/modules/workspaces/execution-acceptance.ts`, `execution-dispatch.ts`):
acceptance with its replay, claim, reconcile, cancel, observe, acknowledge and
finalize. All but the acceptance run under `withOwner`, which locks the
workspace and reads the record.
-/

namespace PocketCoder.Executions

open PocketCoder.Foundation PocketCoder.Workspaces
open PocketCoder.Foundation.Transaction (check require)

/-! ### Inputs -/

/-- The retention of the objects of a manifest starts. -/
def retainInputs (now : Nat) : List InputObjectReference → Transaction Unit
  | [] => pure ()
  | object :: objects => do
      let db ← get
      match db.inputObjects.get? (object.workspaceId, object.fileId) with
      | none => throw (.error "database query returned no row")
      | some stored =>
          set { db with
            inputObjects := db.inputObjects.updateAt stored.key
              (fun row => { row with retainedUntil := now + stored.retentionMs }) fun _ => rfl }
          retainInputs now objects

def finalizeInputManifest (id : InputManifestId) (now : Nat) : Transaction Unit := do
  let db ← get
  match db.inputManifests.get? id with
  | none => pure ()
  | some row =>
      if row.finalizedAt.isSome then pure ()
      else
        retainInputs now row.manifest.objects
        modify fun db => { db with
          inputManifests := db.inputManifests.updateAt id
            (fun row => { row with finalizedAt := some now }) fun _ => rfl }

/-! ### Acceptance -/

inductive AcceptResult where
  | replayed (record : ExecutionRecord)
  | accepted (record : ExecutionRecord)

/-- The record of an execution that was just accepted. -/
def acceptedRecord (input : WorkloadAcceptance) (identity : Option ConversationRequestIdentity)
    (now : Nat) : ExecutionRecord where
  acceptance := input
  conversationIdentity := identity
  outcome := .null
  acceptedAt := toISOString now
  dispatchClaimedAt := none
  phase := .accepted
  cancel := none
  settledAt := none
  acknowledgedAt := none
  finalizedAt := none

def insertConversationExecution (record : ExecutionRecord)
    (identity : ConversationRequestIdentity) : Transaction Unit := do
  let db ← get
  let row : ConversationRequestRow :=
    { principalId := record.acceptance.callerPrincipalId
      conversationId := identity.conversation_id
      requestId := identity.request_id
      identity := identity
      execution := some record }
  match db.conversationRequests.get? row.key with
  | none => set { db with conversationRequests := db.conversationRequests.insert row }
  | some previous =>
      check (require (previous.identity = identity && previous.execution.isNone)
        (executionConflict "Conversation acceptance fingerprint conflict."))
      set { db with
        conversationRequests := db.conversationRequests.updateAt row.key
          (fun row => { row with execution := some record })
          (ConversationRequestRow.withExecution_key record) }

/-- The slot a new record is put in. -/
def insertExecution (workspace : WorkspaceRow) (input : WorkloadAcceptance) (now : Nat)
    (identity : Option ConversationRequestIdentity) : Transaction AcceptResult := do
  let db ← get
  match input.execution.owner with
  | .process =>
      check (require
        (workspace.processExecution.isNone && workspace.finiteProcess.isNone && identity.isNone)
        (executionConflict
          "Finite process already accepted or conversation identity supplied."))
      pinExecutionInputs input now
      let record := acceptedRecord input identity now
      modify fun db => { db with
        workspaces := db.workspaces.updateAt workspace.id
          (fun row => { row with processExecution := some record }) fun _ => rfl }
      return .accepted record
  | .conversationRequest =>
      let capabilities ← check (operationAdapterCapabilities workspace input)
      let parallel := PARALLEL_CONVERSATION_CAPABILITIES.all capabilities.contains
      let identity ← check (validateConversationExecution db input identity parallel)
      pinExecutionInputs input now
      let record := acceptedRecord input (some identity) now
      insertConversationExecution record identity
      return .accepted record

/-- `acceptExecution`. -/
def accept (input : WorkloadAcceptance) (now : Nat)
    (identity : Option ConversationRequestIdentity) : Transaction AcceptResult := do
  check (require input.conforms .zod)
  let db ← get
  match db.workspaces.get? input.execution.workspaceId with
  | none => throw (.error "database query returned no row")
  | some workspace =>
      match readExecution db workspace input.execution with
      | some previous =>
          -- a known execution is replayed in whatever state its workspace is by now
          check (validateExecutionReplay previous input identity)
          return .replayed previous
      | none =>
          check (requireExecutionPrincipal db input.callerPrincipalId)
          check (validateExecution workspace input now identity)
          insertExecution workspace input now identity

/-! ### Dispatch -/

def withOwner {α : Type} (execution : WorkloadExecutionReference)
    (task : WorkspaceRow → ExecutionRecord → Transaction α) : Transaction α := do
  let db ← get
  match db.workspaces.get? execution.workspaceId with
  | none => throw (executionConflict "Execution workspace missing.")
  | some workspace =>
      match readExecution db workspace execution with
      | none => throw (executionConflict "Execution was not accepted.")
      | some record => task workspace record

/-- A claim: whether it is the first one, and the record. -/
structure Claim where
  first : Bool
  record : ExecutionRecord

def reconcileExecution (workspace : WorkspaceRow) (record : ExecutionRecord) : Option Claim :=
  if record.dispatchClaimedAt.isSome ∧ executionSettled record = false ∧
      workspace.principalId = record.acceptance.callerPrincipalId ∧
      workspace.purgeRequestedAt = none ∧
      (workspace.runtimeRegistration.any fun runtime =>
        runtime.readyAt.isSome && runtime.endedAt.isNone &&
          runtime.incarnationId = record.acceptance.execution.incarnationId) = true then
    some { first := false, record }
  else none

def reconcile (execution : WorkloadExecutionReference) : Transaction (Option Claim) :=
  withOwner execution fun workspace record => return reconcileExecution workspace record

/-- The checks a claim repeats. -/
def revalidateExecution (db : Database) (workspace : WorkspaceRow) (record : ExecutionRecord)
    (now : Nat) : Except Failure Unit := do
  requireExecutionPrincipal db record.acceptance.callerPrincipalId
  validateExecution workspace record.acceptance now record.conversationIdentity
  requireExecutionInputs db record.acceptance

/-- The record of a claimed execution. -/
def claimedRecord (record : ExecutionRecord) (now : Nat) : ExecutionRecord :=
  { record with
    dispatchClaimedAt := record.dispatchClaimedAt.or (some (toISOString now))
    phase := if record.dispatchClaimedAt.isNone then .dispatching else record.phase }

/-- An admitted cancel controls an existing claim; it cannot launch work. An
execution that no longer passes its checks is lost. -/
def claim (execution : WorkloadExecutionReference) (now : Nat) : Transaction (Option Claim) :=
  withOwner execution fun workspace record => do
    if record.cancel.isSome then return reconcileExecution workspace record
    else if executionSettled record then return none
    else
      match revalidateExecution (← get) workspace record now with
      | .error (.api _ _) =>
          writeExecution { record with
            phase := .lost, settledAt := some (toISOString now), outcome := .null }
          return none
      | .error failure => throw failure
      | .ok () =>
          let next := claimedRecord record now
          writeExecution next
          return some { first := record.dispatchClaimedAt.isNone, record := next }

/-- The record of an execution that is cancelled before its first claim. -/
def canceledRecord (record : ExecutionRecord) (cancelId : String) (now : Nat) : ExecutionRecord :=
  { record with
    cancel := some { cancelId, requestedAt := toISOString now }
    phase := .canceled
    settledAt := some (toISOString now)
    finalizedAt := some (toISOString now) }

def cancel (input : WorkloadCancel) (now : Nat) : Transaction ExecutionRecord := do
  check (require input.conforms .zod)
  check (require (input.scope = .operation)
    (executionConflict "Use workspace release for workspace cancellation."))
  withOwner input.execution fun _ record => do
    match record.cancel with
    | some intent =>
        check (require (intent.cancelId = input.cancelId)
          (executionConflict "Cancel identity conflict."))
        return record
    | none =>
        if executionSettled record then return record
        else if record.dispatchClaimedAt.isSome then
          let next := { record with
            cancel := some { cancelId := input.cancelId, requestedAt := toISOString now } }
          writeExecution next
          return next
        else
          -- nothing was dispatched, so the execution ends here
          let next := canceledRecord record input.cancelId now
          writeExecution next
          finalizeInputManifest (executionInputManifestId record.acceptance) now
          return next

/-- The phases a report may give. -/
def ExecutionPhase.reported : ExecutionPhase → Bool
  | .running | .terminal | .unknown | .lost | .canceled => true
  | .accepted | .dispatching => false

/-- The record of a reported execution. -/
def observedRecord (record : ExecutionRecord) (phase : ExecutionPhase) (now : Nat)
    (outcome : JsonValue) : ExecutionRecord :=
  { record with
    phase, settledAt := if phase.settled then some (toISOString now) else none, outcome }

/-- `observe`: a report of the current connection about a claimed execution. -/
def observe (execution : WorkloadExecutionReference) (fingerprint : String)
    (phase : ExecutionPhase) (epoch : Nat) (now : Nat) (outcome : JsonValue) : Transaction Bool :=
  withOwner execution fun workspace record => do
    if record.dispatchClaimedAt.isNone || workspace.connectionEpoch ≠ epoch ||
        workspace.runtimeRegistration.any (fun runtime => runtime.endedAt.isSome) ||
        record.acceptance.fingerprint ≠ fingerprint then return false
    else if executionSettled record then
      return record.phase = phase && record.outcome = outcome
    else if phase.reported = false then return false
    else
      let next := observedRecord record phase now outcome
      check (require next.conforms .zod)
      writeExecution next
      return true

def acknowledge (execution : WorkloadExecutionReference) (fingerprint : String) (now : Nat) :
    Transaction Unit :=
  withOwner execution fun _ record => do
    check (require (record.acceptance.fingerprint = fingerprint && executionSettled record)
      (executionConflict "Terminal acknowledgment does not match the execution."))
    writeExecution { record with
      acknowledgedAt := record.acknowledgedAt.or (some (toISOString now)) }

def finalize (execution : WorkloadExecutionReference) (now : Nat) : Transaction Unit :=
  withOwner execution fun _ record => do
    check (require (executionSettled record && record.phase ≠ .unknown && record.phase ≠ .lost &&
        !needsAcknowledgment record)
      (executionConflict "Unsettled execution cannot pass finalization."))
    finalizeInputManifest (executionInputManifestId record.acceptance) now
    writeExecution { record with finalizedAt := record.finalizedAt.or (some (toISOString now)) }

end PocketCoder.Executions
