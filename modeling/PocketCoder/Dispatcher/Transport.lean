import PocketCoder.Dispatcher.Tasks

/-!
One step of a task: from the point where it awaits to the next one.

The steps follow `dispatch`, `dispatchOrdinary` and `refused` of the
dispatcher, and the transports they call
(`server/src/conversations/execution-transport.ts`,
`execution-finalization.ts`, `control-channel/process-dispatch.ts`,
`execution-inputs.ts`). A store call is one step; what the relay, the driver
and the hub answer is an argument of the step.
-/

namespace PocketCoder.Dispatcher

open PocketCoder.Foundation PocketCoder.Workspaces PocketCoder.Executions

/-! ### Capabilities and routes -/

def capabilities (row : WorkspaceRow) (acceptance : WorkloadAcceptance) :
    List WorkloadCapability :=
  match row.runtimeRegistration with
  | none => []
  | some runtime =>
      match runtime.template, runtime.producer with
      | some template, some installed =>
          adapterCapabilities template.spec installed acceptance.operation
      | _, _ => []

/-- `canReconcile`: the producer can tell whether it has an execution, and
takes it only once. -/
def canReconcile (row : WorkspaceRow) (acceptance : WorkloadAcceptance) : Bool :=
  (capabilities row acceptance).contains .requestLookup &&
    (capabilities row acceptance).contains .deduplicatedAccept

/-- The operation of an execution, in the template of the runtime. -/
def operationOf (row : WorkspaceRow) (acceptance : WorkloadAcceptance) :
    Option (WorkloadSpec × WorkloadOperation) :=
  match row.runtimeRegistration.bind WorkspaceRuntimeRegistration.template with
  | none => none
  | some template =>
      (template.spec.operations.lookup acceptance.operation).map fun operation =>
        (template.spec, operation)

/-- The route of the execution protocol for an action. -/
def executionRoute (row : WorkspaceRow) (acceptance : WorkloadAcceptance) (action : String) :
    Option ServiceRoute :=
  match operationOf row acceptance with
  | none => none
  | some (spec, operation) =>
      match spec.adapters.lookup operation.adapter with
      | none => none
      | some adapter =>
          if adapter.protocol = "pocketcoder.execution/v1" ∧ adapter.service.getD "" ≠ "" then
            ((spec.services.lookup (adapter.service.getD "")).getD []).find? fun route =>
              route.method = .POST && route.path = "/executions/" ++ action &&
                route.responseMode = .buffered
          else none

/-- The checks of `call` before it gives an envelope to the relay. -/
def callable (row : WorkspaceRow) (acceptance : WorkloadAcceptance) (action : String)
    (body : Json) : Bool :=
  (executionRoute row acceptance action).any fun route =>
    (utf8 body.stringify).length ≤ route.maxRequestBytes

/-- The action of a call and its envelope. -/
def Purpose.envelope (purpose : Purpose) (record : ExecutionRecord) : String × Json :=
  match purpose with
  | .acknowledge => ("ack", executionAckEnvelope record.acceptance)
  | .accept => ("accept", executionAcceptEnvelope record.acceptance record.conversationIdentity)
  | .lookup | .refusal _ _ => ("lookup", executionLookupEnvelope record.acceptance.execution)
  | .cancel _ =>
      ("cancel", executionCancelEnvelope record.acceptance
        ((record.cancel.map CancelIntent.cancelId).getD ""))

/-! ### Steps -/

/-- What a producer answers. -/
inductive Reply where
  /-- A client error, as the answer to an accept. -/
  | refused (status : Nat) (message : String)
  | absent
  | accepted
  | observed (phase : ExecutionPhase) (outcome : JsonValue)

/-- What the awaited call answers. A reply that is lost, not successful, too
large or not about the execution is an exception. -/
inductive Answer where
  | throws
  /-- The publication of inputs waits for capacity. -/
  | capacity
  | yes
  | no
  | reply (reply : Reply)

/-- What a step does with the capacity waits. -/
inductive WaitChange where
  | keep
  | set (key : Key) (since : Nat)
  | delete (key : Key)

/-- The effect of one step of a task. -/
structure Progress where
  db : Database
  task : Task
  wait : WaitChange
  /-- The execution whose accept envelope the step gives to the relay. -/
  handed : Option WorkloadExecutionReference
  /-- The cancelled record the step starts the control lane with. -/
  canceled : Option ExecutionRecord

namespace Task

variable (db : Database) (task : Task)

def execution : WorkloadExecutionReference := task.record.acceptance.execution

/-- The task goes on to another point. -/
def goto (point : TaskPoint) : Progress :=
  { db, task := { task with point }, wait := .keep, handed := none, canceled := none }

/-- The task ends. -/
def finish (result : TaskResult) : Progress :=
  match result, task.nested with
  | .skipped, true => task.goto db (.finished .performed)
  | _, _ => task.goto db (.finished result)

def fail : Progress := task.finish db (.thrown false)

/-- A call to the producer. A process is called over its own connection. -/
def call (purpose : Purpose) (row : WorkspaceRow) (current : ExecutionRecord) : Progress :=
  let envelope := purpose.envelope current
  if current.acceptance.execution.owner = .conversationRequest ∧
      callable row current.acceptance envelope.1 envelope.2 = false then
    task.fail db
  else task.goto db (.relay purpose row current)

/-- A call returns. The accept that resolves ends the wait for capacity. -/
def returned (purpose : Purpose) (row : WorkspaceRow) (current : ExecutionRecord)
    (absent : Bool) : Progress :=
  let key := executionInputManifestId current.acceptance
  match purpose with
  | .accept =>
      if absent then task.fail db else { task.finish db .performed with wait := .delete key }
  | .cancel true => { task.finish db .performed with wait := .delete key }
  | .cancel false => task.finish db .performed
  | .acknowledge => task.finish db .performed
  | .lookup =>
      if absent then task.goto db (.replayWorkspace row current) else task.finish db .performed
  | .refusal status message =>
      if absent then task.goto db (.refused row current status message .observe)
      else task.finish db .performed

/-- `dispatch`, after `getWorkspace`. -/
def onWorkspace (connected : Bool) : Progress :=
  match db.workspaces.get? task.execution.workspaceId with
  | none => task.finish db .skipped
  | some row =>
      if row.purgeRequestedAt.isSome || !connected then task.finish db .skipped
      else if task.absentEpoch.any fun epoch => row.connectionEpoch ≠ epoch then
        task.finish db .skipped
      else task.goto db (.inspect row)

/-- `mustResend`: the producer reported the request absent, or it waited for
publication capacity. -/
def mustResend (control waiting : Bool) : Bool :=
  task.absentEpoch.isSome || (!control && waiting)

/-- `dispatch`, after `inspect`. -/
def onInspect (control waiting : Bool) (row : WorkspaceRow) (alive : Bool) : Progress :=
  if alive = false then task.goto db (.endRuntime row)
  else if executionSettled task.record then
    if control && task.record.cancel.isNone then task.finish db .skipped
    else task.goto db (.ack .acknowledge row task.record .relay)
  else
    let resend := task.mustResend control waiting
    if task.record.dispatchClaimedAt.isSome && !resend then task.goto db (.reconcile row)
    else task.goto db (.claim row resend)

/-- `dispatch` and `dispatchOrdinary`, after the claim. -/
def onClaimed (control allowed : Bool) (row : WorkspaceRow) (resend : Bool) (claim : Claim) :
    Progress :=
  let current := claim.record
  if current.cancel.isSome then
    if control = false then { task.finish db .skipped with canceled := some current }
    else if (capabilities row current.acceptance).contains .targetedCancel then
      task.call db (.cancel false) row current
    else task.goto db (.unknown row current)
  else if control || !allowed then task.finish db .skipped
  else if claim.first || resend then task.goto db (.prepare row current)
  else if canReconcile row current.acceptance then task.call db .lookup row current
  else task.goto db (.unknown row current)

/-- `prepareExecutionInputs`. -/
def onPrepare (row : WorkspaceRow) (current : ExecutionRecord) : Answer → Option Progress
  | .yes =>
      if current.acceptance.inputs.objects ≠ [] ∧ row.providerRef = none then none
      else some (task.goto db (.reclaim row current))
  | .capacity =>
      if current.acceptance.inputs.objects = [] ∨ row.providerRef = none then none
      else some { task.finish db (.thrown true) with
        wait := .set (executionInputManifestId current.acceptance) task.now }
  | _ => none

/-- `accept`, after its own claim. -/
def onReclaimed (row : WorkspaceRow) (current latest : ExecutionRecord) : Progress :=
  if latest.cancel.isSome then task.call db (.cancel true) row latest
  else
    match current.acceptance.execution.owner with
    | .process => task.goto db (.relay .accept row current)
    | .conversationRequest =>
        let envelope := Purpose.accept.envelope current
        if callable row current.acceptance envelope.1 envelope.2 then
          { task.goto db (.relay .accept row current) with
            handed := some current.acceptance.execution }
        else task.fail db

/-- A reply of the producer, and `refused` for the answer to an accept. -/
def onReply (purpose : Purpose) (row : WorkspaceRow) (current : ExecutionRecord) :
    Answer → Option Progress
  | .yes =>
      if current.acceptance.execution.owner = .process then
        some (task.returned db purpose row current false)
      else none
  | .reply reply =>
      if current.acceptance.execution.owner = .process then none
      else
        match reply with
        | .absent => some (task.returned db purpose row current true)
        | .accepted => some (task.returned db purpose row current false)
        | .observed phase outcome => some (task.goto db (.observe purpose row current phase outcome))
        | .refused status message =>
            match purpose with
            | .accept =>
                -- where the adapter can, a lookup says what became of the refused accept
                if canReconcile row current.acceptance then
                  some (task.call db (.refusal status message) row current)
                else some (task.goto db (.refused row current status message .observe))
            | _ => none
  | _ => none

/-- `finalizeServiceExecution`. -/
def finalizeService (row : WorkspaceRow) (current : ExecutionRecord) (now : Nat) :
    Option Database :=
  if (operationOf row current.acceptance).all (fun operation => operation.2.outputRoots ≠ []) ∨
      (current.acceptance.inputs.objects ≠ [] ∧ row.providerRef = none) then none
  else
    match finalize current.acceptance.execution now db with
    | .error _ => none
    | .ok (_, db') => some db'

/-- The acknowledgment of a settled execution. -/
def onAck (purpose : Purpose) (row : WorkspaceRow) (current : ExecutionRecord) (now : Nat) :
    AckStage → Progress
  | .relay =>
      let envelope := Purpose.acknowledge.envelope current
      if current.acceptance.execution.owner = .conversationRequest ∧
          callable row current.acceptance envelope.1 envelope.2 = false then task.fail db
      else task.goto db (.ack purpose row current .store)
  | .store =>
      match acknowledge current.acceptance.execution current.acceptance.fingerprint now db with
      | .error _ => task.fail db
      | .ok (_, db') =>
          match current.acceptance.execution.owner with
          | .process => task.returned db' purpose row current false
          | .conversationRequest => task.goto db' (.ack purpose row current .finalize)
  | .finalize =>
      match finalizeService db row current now with
      | none => task.fail db
      | some db' => task.returned db' purpose row current false

/-- The outcome a refusal is recorded with. -/
def refusalOutcome (status : Nat) (message : String) : JsonValue :=
  JsonValue.of (.obj [("refused", .obj [("status", .num status), ("message", .str message)])])

/-- `refused`: the refusal is stored as the outcome. -/
def onRefused (row : WorkspaceRow) (current : ExecutionRecord) (status : Nat) (message : String)
    (now : Nat) : RefusalStage → Progress
  | .observe =>
      match observe current.acceptance.execution current.acceptance.fingerprint .terminal
          row.connectionEpoch task.now (refusalOutcome status message) db with
      | .error _ => task.fail db
      | .ok (_, db') => task.goto db' (.refused row current status message .acknowledge)
  | .acknowledge =>
      match acknowledge current.acceptance.execution current.acceptance.fingerprint task.now db with
      | .error _ => task.fail db
      | .ok (_, db') => task.goto db' (.refused row current status message .release)
  | .release =>
      match finalizeService db row current now with
      | none => task.fail db
      | some db' => task.finish db' .performed

/-- `executions.get`. -/
def getExecution (execution : WorkloadExecutionReference) : Option ExecutionRecord :=
  (db.workspaces.get? execution.workspaceId).bind fun row => readExecution db row execution

/-- `replayable`, on the rows it has read. -/
def replayable (workspace : Option WorkspaceRow) (record : Option ExecutionRecord)
    (epoch : Nat) : Option ExecutionRecord :=
  record.filter fun record =>
    (workspace.any fun row =>
      row.connectionEpoch = epoch && canReconcile row record.acceptance) &&
      record.dispatchClaimedAt.isSome && !executionSettled record

/-- One step of a task. -/
def advance (control waiting allowed : Bool) (answer : Answer) (now : Nat) : Option Progress :=
  match answer, task.point with
  | _, .finished _ => none
  -- every awaited call may throw
  | .throws, _ => some (task.fail db)
  | .yes, .workspace => some (task.onWorkspace db true)
  | .no, .workspace => some (task.onWorkspace db false)
  | .yes, .inspect row => some (task.onInspect db control waiting row true)
  | .no, .inspect row => some (task.onInspect db control waiting row false)
  | .yes, .endRuntime row =>
      match endWorkspaceRuntime row.id task.execution.incarnationId task.now db with
      | .error _ => some (task.fail db)
      | .ok (_, db') => some (task.finish db' .performed)
  | .yes, .claim row resend =>
      match claim task.execution task.now db with
      | .error _ => some (task.fail db)
      | .ok (none, db') => some (task.finish db' .skipped)
      | .ok (some claim, db') => some (task.goto db' (.claimed row resend claim))
  | .yes, .reconcile row =>
      match reconcile task.execution db with
      | .error _ => some (task.fail db)
      | .ok (none, db') => some (task.finish db' .skipped)
      | .ok (some claim, db') => some (task.goto db' (.claimed row false claim))
  | .yes, .claimed row resend claim => some (task.onClaimed db control allowed row resend claim)
  | answer, .prepare row current => task.onPrepare db row current answer
  | .yes, .reclaim row current =>
      match claim current.acceptance.execution now db with
      | .error _ => some (task.fail db)
      | .ok (none, db') => some (task.returned db' .accept row current false)
      | .ok (some latest, db') =>
          if executionSettled latest.record then
            some (task.returned db' .accept row current false)
          else some (task.goto db' (.reclaimed row current latest.record))
  | .yes, .reclaimed row current latest => some (task.onReclaimed db row current latest)
  | answer, .relay purpose row current => task.onReply db purpose row current answer
  | .yes, .observe purpose row current phase outcome =>
      match observe current.acceptance.execution current.acceptance.fingerprint phase
          row.connectionEpoch now outcome db with
      | .error _ => some (task.fail db)
      | .ok (recorded, db') =>
          if recorded && (phase = .terminal || phase = .canceled) then
            some (task.goto db' (.ack purpose row current .relay))
          else some (task.returned db' purpose row current false)
  | .yes, .ack purpose row current stage => some (task.onAck db purpose row current now stage)
  | .yes, .unknown row current =>
      match observe current.acceptance.execution current.acceptance.fingerprint .unknown
          row.connectionEpoch task.now .null db with
      | .error _ => some (task.fail db)
      | .ok (_, db') => some (task.finish db' .performed)
  | .yes, .refused row current status message stage =>
      some (task.onRefused db row current status message now stage)
  | .yes, .replayWorkspace row current =>
      some (task.goto db (.replayRecord row (db.workspaces.get? task.execution.workspaceId) current))
  | .yes, .replayRecord row workspace current =>
      match replayable workspace (getExecution db current.acceptance.execution)
          row.connectionEpoch with
      | none => some (task.finish db .performed)
      | some latest =>
          if allowed then
            some { task.goto db .workspace with
              task := { task with
                record := latest, absentEpoch := some row.connectionEpoch, nested := true, now
                point := .workspace } }
          else some (task.finish db .performed)
  | _, _ => none

end Task

end PocketCoder.Dispatcher
