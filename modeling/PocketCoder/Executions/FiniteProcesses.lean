import PocketCoder.Executions.Dispatch

/-!
The transactions on the runtime of a workspace and on its finite process
(`db/src/modules/workspaces/finite-process.ts`, `process-execution-facts.ts`),
and the operations of the whole store as one type.

A finite process keeps two copies of its progress: the fact its supervisor
reported last, and the execution record derived from it.
-/

namespace PocketCoder.Executions

open PocketCoder.Foundation PocketCoder.Workspaces
open PocketCoder.Foundation.Transaction (check require)

/-! ### Facts and records -/

/-- `canRecord`: a report that does not contradict the stored fact. -/
def canRecord (previous : Option FiniteProcessFact) (next : FiniteProcessFact) : Bool :=
  match previous with
  | none => true
  | some previous =>
      if previous.execution ≠ next.execution || previous.fingerprint ≠ next.fingerprint ||
          previous.claimedAt ≠ next.claimedAt then false
      else if previous.ended then previous = next
      else if previous.phase = .running && next.phase = .claimed then false
      else if previous.processGroupId.isSome && (previous.processGroupId ≠ next.processGroupId ||
          previous.startedAt ≠ next.startedAt) then false
      else true

def acceptsProcessFact (record : Option ExecutionRecord) (fact : FiniteProcessFact) : Bool :=
  match record with
  | none => false
  | some record =>
      if record.dispatchClaimedAt.isNone || record.acceptance.fingerprint ≠ fact.fingerprint ||
          record.acceptance.execution ≠ fact.execution then false
      else if executionSettled record then
        ((record.phase = .terminal && fact.phase = .exited) ||
          (record.phase = .lost && fact.phase = .lost)) &&
          record.outcome = JsonValue.of fact.toJson
      else true

/-- The phase a fact puts its execution in. -/
def ProcessPhase.executionPhase : ProcessPhase → ExecutionPhase
  | .claimed => .dispatching
  | .running => .running
  | .exited => .terminal
  | .lost => .lost

/-- `observedProcessExecution`, for a record that is there. -/
def observedProcessExecution (record : ExecutionRecord) (fact : FiniteProcessFact) :
    ExecutionRecord :=
  { record with
    phase := fact.phase.executionPhase
    outcome := JsonValue.of fact.toJson
    settledAt := if fact.ended then record.settledAt.or fact.endedAt else none }

/-! ### Transactions -/

/-- The row with a runtime. -/
def boundRow (runtime : WorkspaceRuntimeRegistration) (row : WorkspaceRow) : WorkspaceRow :=
  { row with runtimeRegistration := some runtime }

theorem boundRow_id (runtime : WorkspaceRuntimeRegistration) (row : WorkspaceRow) :
    (boundRow runtime row).id = row.id := rfl

/-- `bindWorkspaceRuntime`: binding the same runtime again is accepted. -/
def bindWorkspaceRuntime (id : String) (runtime : WorkspaceRuntimeRegistration)
    (providerRef : JsonValue) : Transaction Bool := do
  let db ← get
  match db.workspaces.get? id with
  | none => return false
  | some row =>
      if row.purgeRequestedAt.isSome || row.state.isTerminal ||
          row.providerRef ≠ some providerRef then return false
      else if runtime.template.any (fun template => template.digest ≠ row.templateDigest) then
        return false
      else
        match row.runtimeRegistration with
        | some existing =>
            return existing.endedAt.isNone &&
              { existing with readyAt := none, endedAt := none } = runtime
        | none =>
            if row.state ≠ .provisioning then return false
            else
              set { db with
                workspaces := db.workspaces.updateAt id (boundRow runtime) (boundRow_id runtime) }
              return true

/-- The row of a runtime that reported ready. -/
def readyRow (now : Nat) (row : WorkspaceRow) : WorkspaceRow :=
  { row with
    runtimeRegistration := row.runtimeRegistration.map fun runtime =>
      { runtime with readyAt := runtime.readyAt.or (some (toISOString now)) } }

theorem readyRow_id (now : Nat) (row : WorkspaceRow) : (readyRow now row).id = row.id := rfl

def markWorkspaceRuntimeReady (id incarnationId : String) (connectionEpoch now : Nat) :
    Transaction Bool := do
  let db ← get
  match db.workspaces.get? id with
  | none => return false
  | some row =>
      if row.purgeRequestedAt.isNone && (row.runtimeRegistration.any fun runtime =>
            runtime.incarnationId = incarnationId && runtime.endedAt.isNone) &&
          row.connectionEpoch = connectionEpoch &&
          (row.state = .connected || row.state = .ready) then
        set { db with workspaces := db.workspaces.updateAt id (readyRow now) (readyRow_id now) }
        return true
      else return false

/-- What `recordFiniteProcess` checks on the row of the workspace. -/
def recordsFact (row : WorkspaceRow) (id : String) (connectionEpoch : Nat)
    (fact : FiniteProcessFact) : Bool :=
  row.purgeRequestedAt.isNone &&
    (row.state = .connected || row.state = .ready || row.state = .terminating) &&
    row.connectionEpoch = connectionEpoch &&
    (row.runtimeRegistration.any fun runtime =>
      runtime.endedAt.isNone && runtime.profile = .finiteProcess &&
        runtime.incarnationId = fact.execution.incarnationId) &&
    fact.execution.workspaceId = id && canRecord row.finiteProcess fact &&
    acceptsProcessFact row.processExecution fact

/-- The row with a recorded fact. -/
def factRow (fact : FiniteProcessFact) (row : WorkspaceRow) : WorkspaceRow :=
  { row with
    processExecution := row.processExecution.map fun record => observedProcessExecution record fact
    finiteProcess := some fact }

theorem factRow_id (fact : FiniteProcessFact) (row : WorkspaceRow) :
    (factRow fact row).id = row.id := rfl

def recordFiniteProcess (id : String) (connectionEpoch : Nat) (fact : FiniteProcessFact) :
    Transaction Bool := do
  check (require fact.conforms .zod)
  let db ← get
  match db.workspaces.get? id with
  | none => return false
  | some row =>
      if recordsFact row id connectionEpoch fact then
        set { db with workspaces := db.workspaces.updateAt id (factRow fact) (factRow_id fact) }
        return true
      else return false

/-- The record of an execution whose runtime is gone. -/
def lostRecord (record : ExecutionRecord) (now : Nat) : ExecutionRecord :=
  { record with phase := .lost, settledAt := some (toISOString now) }

/-- The request of an ended runtime, with its open execution lost. -/
def endRequest (principalId id incarnationId : String) (now : Nat)
    (request : ConversationRequestRow) : ConversationRequestRow :=
  match request.execution with
  | none => request
  | some record =>
      if request.principalId = principalId ∧ record.acceptance.execution.workspaceId = id ∧
          record.acceptance.execution.incarnationId = incarnationId ∧
          executionSettled record = false then
        { request with execution := some (lostRecord record now) }
      else request

theorem endRequest_key (principalId id incarnationId : String) (now : Nat)
    (request : ConversationRequestRow) :
    (endRequest principalId id incarnationId now request).key = request.key := by
  unfold endRequest
  cases request.execution with
  | none => rfl
  | some record =>
      dsimp only
      split_ifs <;> rfl

/-- The fact of an ended runtime: a process that was not seen to end is lost. -/
def endFact (now : Nat) (fact : FiniteProcessFact) : FiniteProcessFact :=
  if fact.ended then fact
  else { fact with
    phase := .lost, endedAt := some (toISOString now), exitCode := none, signal := none }

/-- The process record of an ended runtime. -/
def endProcess (now : Nat) (endedFact : Option FiniteProcessFact) (record : ExecutionRecord) :
    ExecutionRecord :=
  if executionSettled record then record
  else { lostRecord record now with
    outcome := (endedFact.map fun fact => JsonValue.of fact.toJson).getD .null }

/-- The row of an ended runtime. -/
def endRow (now : Nat) (row : WorkspaceRow) : WorkspaceRow :=
  let endedFact := row.finiteProcess.map (endFact now)
  { row with
    runtimeRegistration :=
      row.runtimeRegistration.map fun runtime => { runtime with endedAt := some (toISOString now) }
    processExecution := row.processExecution.map (endProcess now endedFact)
    finiteProcess := endedFact }

theorem endRow_id (now : Nat) (row : WorkspaceRow) : (endRow now row).id = row.id := rfl

def endWorkspaceRuntime (id incarnationId : String) (now : Nat) : Transaction Unit := do
  let db ← get
  match db.workspaces.get? id with
  | none => return ()
  | some row =>
      if row.runtimeRegistration.any fun runtime =>
          runtime.incarnationId = incarnationId && runtime.endedAt.isNone then
        set { db with
          conversationRequests := db.conversationRequests.update
            (endRequest row.principalId id incarnationId now) (endRequest_key _ _ _ _)
          workspaces := db.workspaces.updateAt id (endRow now) (endRow_id now) }
      else return ()

end PocketCoder.Executions
