import PocketCoder.Executions.FiniteProcesses

/-!
The memory of the execution dispatcher
(`runtime-core/src/scheduler/execution-dispatcher.ts`): its lanes, its queue
and the maps it decides with. Nothing here is durable; a restart of the
controller begins with empty maps.

A task is the promise of one `dispatch` call. It is kept as the point where
the call awaits, with the values it has read so far; the map of a lane holds
the tasks that run in it.
-/

namespace PocketCoder.Dispatcher

open PocketCoder.Foundation PocketCoder.Workspaces PocketCoder.Executions

/-! ### Tasks -/

/-- What a call to the producer is made for. -/
inductive Purpose where
  | acknowledge
  | accept
  | lookup
  | refusal (status : Nat) (message : String)
  /-- A cancel, made by `accept` itself or for the control lane. -/
  | cancel (accepting : Bool)

inductive AckStage where
  | relay
  | store
  | finalize

inductive RefusalStage where
  | observe
  | acknowledge
  | release

inductive TaskResult where
  | performed
  | skipped
  | thrown (capacity : Bool)

/-- The point where a task awaits, with what it has read. -/
inductive TaskPoint where
  | workspace
  | inspect (row : WorkspaceRow)
  | endRuntime (row : WorkspaceRow)
  | claim (row : WorkspaceRow) (resend : Bool)
  | reconcile (row : WorkspaceRow)
  /-- The claim was made; its result is about to be handled. -/
  | claimed (row : WorkspaceRow) (resend : Bool) (claim : Claim)
  | prepare (row : WorkspaceRow) (current : ExecutionRecord)
  /-- The second claim, after the inputs are published. -/
  | reclaim (row : WorkspaceRow) (current : ExecutionRecord)
  /-- The second claim allows the call; it is about to be made. -/
  | reclaimed (row : WorkspaceRow) (current latest : ExecutionRecord)
  /-- The relay has the envelope and its reply is awaited. -/
  | relay (purpose : Purpose) (row : WorkspaceRow) (current : ExecutionRecord)
  | observe (purpose : Purpose) (row : WorkspaceRow) (current : ExecutionRecord)
      (phase : ExecutionPhase) (outcome : JsonValue)
  | ack (purpose : Purpose) (row : WorkspaceRow) (current : ExecutionRecord) (stage : AckStage)
  | unknown (row : WorkspaceRow) (current : ExecutionRecord)
  | refused (row : WorkspaceRow) (current : ExecutionRecord) (status : Nat) (message : String)
      (stage : RefusalStage)
  /-- `replayable` after a lookup that found nothing. -/
  | replayWorkspace (row : WorkspaceRow) (current : ExecutionRecord)
  | replayRecord (row : WorkspaceRow) (workspace : Option WorkspaceRow)
      (current : ExecutionRecord)
  | finished (result : TaskResult)

structure Task where
  /-- The record the task was started with. -/
  origin : ExecutionRecord
  /-- The record of the innermost `dispatch` call. -/
  record : ExecutionRecord
  absentEpoch : Option Nat
  /-- The call is made by another one, which counts as performed. -/
  nested : Bool
  now : Nat
  point : TaskPoint

/-! ### The maps -/

/-- The key of the maps, the identifier of the input manifest. -/
abbrev Key := InputManifestId

structure QueuedItem where
  record : ExecutionRecord
  epoch : Option Nat

structure FailureEntry where
  workspaceId : String
  since : Nat

structure RetryEntry where
  failures : Nat
  dueAt : Nat

inductive Scan where
  | idle
  | readProcesses
  | readRequests (processes : List ExecutionRecord)
  | handle (pending : List ExecutionRecord)

/-- The fields of `ExecutionDispatcher`. Failures and retries are kept for
each execution and each lane. -/
structure Memory where
  scan : Scan
  dirty : Bool
  stopped : Bool
  ordinary : JsMap Key Task
  controls : JsMap Key Task
  queued : JsMap Key QueuedItem
  absences : JsMap Key Nat
  failures : JsMap (Key × Bool) FailureEntry
  retries : JsMap (Key × Bool) RetryEntry
  capacityWaits : JsMap Key Nat

namespace Memory

def initial : Memory where
  scan := .idle
  dirty := false
  stopped := false
  ordinary := .empty
  controls := .empty
  queued := .empty
  absences := .empty
  failures := .empty
  retries := .empty
  capacityWaits := .empty

def lane (memory : Memory) (control : Bool) : JsMap Key Task :=
  if control then memory.controls else memory.ordinary

def setLane (memory : Memory) (control : Bool) (lane : JsMap Key Task) : Memory :=
  if control then { memory with controls := lane } else { memory with ordinary := lane }

/-! ### Starting tasks -/

/-- `allowed`, for an answer of `canDispatch`. -/
def allowed (memory : Memory) (canDispatch : Bool) : Bool := !memory.stopped && canDispatch

def start (memory : Memory) (record : ExecutionRecord) (control : Bool) (epoch : Option Nat)
    (now : Nat) : Memory :=
  let key := executionInputManifestId record.acceptance
  if (memory.lane control).has key then memory
  else
    memory.setLane control ((memory.lane control).set key
      { origin := record, record, absentEpoch := epoch, nested := false, now
        point := .workspace })

/-- One turn of the loop of `pump`. The loop ends when the lane is full, which
it then stays. -/
def pumpItem (concurrency now : Nat) (memory : Memory) (entry : Key × QueuedItem) : Memory :=
  if concurrency ≤ memory.ordinary.size then memory
  else
    let memory := { memory with queued := memory.queued.delete entry.1 }
    if memory.controls.has entry.1 then memory
    else memory.start entry.2.record false entry.2.epoch now

def pump (memory : Memory) (canDispatch : Bool) (concurrency now : Nat) : Memory :=
  if memory.allowed canDispatch then
    memory.queued.entries.rows.foldl (pumpItem concurrency now) memory
  else { memory with queued := .empty }

def cancelPending (record : ExecutionRecord) : Bool :=
  !executionSettled record || needsAcknowledgment record

/-- `cancel`, called after a durable cancel. -/
def cancel (memory : Memory) (record : ExecutionRecord) (now : Nat) : Memory :=
  if !memory.stopped && record.cancel.isSome && cancelPending record then
    memory.start record true none now
  else memory

/-! ### Failures -/

def retryDue (memory : Memory) (failureKey : Key × Bool) (now : Nat) : Bool :=
  ((memory.retries.get failureKey).map RetryEntry.dueAt).getD 0 ≤ now

/-- `failed`: the first retry is immediate, later ones wait 2 s, doubling to
5 min. -/
def failed (memory : Memory) (failureKey : Key × Bool) (workspaceId : String) (now : Nat) :
    Memory :=
  let since := ((memory.failures.get failureKey).map FailureEntry.since).getD now
  let failures := ((memory.retries.get failureKey).map RetryEntry.failures).getD 0 + 1
  let delay := if failures = 1 then 0 else min (2000 * 2 ^ (failures - 2)) 300000
  { memory with
    failures := memory.failures.set failureKey { workspaceId, since }
    retries := memory.retries.set failureKey { failures, dueAt := now + delay } }

def settled (memory : Memory) (failureKey : Key × Bool) : Memory :=
  { memory with
    failures := memory.failures.delete failureKey
    retries := memory.retries.delete failureKey }

/-- The failure of an execution that is neither pending nor running. -/
def reconcileFailure (keys : List Key) (memory : Memory) (entry : (Key × Bool) × FailureEntry) :
    Memory :=
  if entry.1.1 ∉ keys ∧ memory.ordinary.has entry.1.1 = false ∧
      memory.controls.has entry.1.1 = false then
    memory.settled entry.1
  else memory

def reconcileFailures (memory : Memory) (pending : List ExecutionRecord) : Memory :=
  let keys := pending.map fun record => executionInputManifestId record.acceptance
  let memory := memory.failures.entries.rows.foldl (reconcileFailure keys) memory
  { memory with
    capacityWaits := memory.capacityWaits.entries.rows.foldl
      (fun waits entry => if entry.1 ∈ keys then waits else waits.delete entry.1)
      memory.capacityWaits }

/-! ### Scans -/

def scanRecord (now : Nat) (memory : Memory) (record : ExecutionRecord) : Memory :=
  let key := executionInputManifestId record.acceptance
  let control := record.cancel.isSome && cancelPending record
  if memory.retryDue (key, control) now then
    if control then memory.cancel record now
    else if !memory.ordinary.has key && !memory.controls.has key && !memory.queued.has key then
      { memory with queued := memory.queued.set key { record, epoch := none } }
    else memory
  else memory

/-- The loop over the pending records, with the answers of `canDispatch` for
each of them. It is left as soon as dispatch is not allowed. -/
def scanRecords (now : Nat) (answers : ExecutionRecord → Bool) :
    List ExecutionRecord → Memory → Memory × Bool
  | [], memory => (memory, true)
  | record :: rest, memory =>
      if memory.allowed (answers record) then
        scanRecords now answers rest (memory.scanRecord now record)
      else (memory, false)

/-- The end of one round of `scanPending`, which starts another one when a
tick came in the meantime. -/
def endScan (memory : Memory) (canDispatch : Bool) : Memory :=
  if memory.dirty && memory.allowed canDispatch then
    { memory with scan := .readProcesses, dirty := false }
  else { memory with scan := .idle }

/-- A round of `scanPending` once the pending executions are read. -/
def scanPending (memory : Memory) (pending : List ExecutionRecord)
    (answers : ExecutionRecord → Bool) (canDispatch : Bool) (concurrency now : Nat) : Memory :=
  let scanned := scanRecords now answers pending (memory.reconcileFailures pending)
  if scanned.2 then (scanned.1.pump canDispatch concurrency now).endScan canDispatch
  else scanned.1.endScan canDispatch

def tick (memory : Memory) (canDispatch : Bool) : Memory :=
  if memory.allowed canDispatch then
    match memory.scan with
    | .idle => { memory with scan := .readProcesses, dirty := false }
    | _ => { memory with dirty := true }
  else memory

/-! ### The end of a task -/

/-- The `then` of a task. -/
def recordResult (memory : Memory) (control : Bool) (key : Key) (task : Task)
    (result : TaskResult) (now : Nat) : Memory :=
  match result with
  | .performed =>
      let memory := memory.settled (key, control)
      if executionSettled task.origin then (memory.settled (key, true)).settled (key, false)
      else memory
  | .skipped => memory
  | .thrown true => memory
  | .thrown false => memory.failed (key, control) task.origin.acceptance.execution.workspaceId now

/-- The task leaves its lane, with the absence that was reported meanwhile. -/
def leave (memory : Memory) (control : Bool) (key : Key) : Memory :=
  let memory := memory.setLane control ((memory.lane control).delete key)
  if control then memory else { memory with absences := memory.absences.delete key }

def requeue (memory : Memory) (control : Bool) (key : Key) (task : Task)
    (replayEpoch : Option Nat) (canDispatch : Bool) : Memory :=
  match replayEpoch with
  | some epoch =>
      if !control && memory.allowed canDispatch then
        { memory with queued := memory.queued.set key { record := task.origin, epoch := some epoch } }
      else memory
  | none => memory

/-- The `finally` of a task. -/
def release (memory : Memory) (control : Bool) (key : Key) (task : Task) (canDispatch : Bool)
    (concurrency now : Nat) : Memory :=
  let replayEpoch := memory.absences.get key
  ((memory.leave control key).requeue control key task replayEpoch canDispatch).pump canDispatch
    concurrency now

end Memory

end PocketCoder.Dispatcher
