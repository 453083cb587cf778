import PocketCoder.Dispatcher.Transport
import PocketCoder.Executions.Settlement

/-!
The dispatcher and the store as one transition system: scans, both lanes, the
callers of the dispatcher, every other transaction on the tables, and
restarts of the controller, in any order.

Every event leaves the tables alone or commits one transaction, so what the
store keeps along its own runs it keeps here.
-/

namespace PocketCoder.Dispatcher

open PocketCoder.Foundation PocketCoder.Workspaces PocketCoder.Executions

/-! ### States and events -/

structure AbsentCall where
  execution : WorkloadExecutionReference
  epoch : Nat
  workspace : Option (Option WorkspaceRow)

structure System where
  db : Database
  memory : Memory
  /-- The cancelled records that the dispatcher has yet to be told of. -/
  admitted : List ExecutionRecord
  absents : List AbsentCall
  /-- The executions whose accept envelope was given to the relay, once for
  each time. -/
  handed : List WorkloadExecutionReference

def System.initial (db : Database) : System where
  db := db
  memory := .initial
  admitted := []
  absents := []
  handed := []

inductive Event where
  | transact (operation : Operation)
  /-- The durable cancel of a request, and the call of the dispatcher after it. -/
  | admitCancel (input : WorkloadCancel) (now : Nat)
  | cancel (index : Nat) (now : Nat)
  | tick (canDispatch : Bool)
  /-- The two reads of `pending`, and what the scan does with them. -/
  | readProcesses
  | readRequests
  | scan (answers : ExecutionRecord → Bool) (canDispatch : Bool) (now : Nat)
  | absent (execution : WorkloadExecutionReference) (epoch : Nat)
  | absentWorkspace (index : Nat)
  | absentRecord (index : Nat) (canDispatch : Bool) (now : Nat)
  | drain (workspaceId : String)
  | stop
  /-- A task goes on, with the answer of the call it awaits. -/
  | advance (control : Bool) (key : Key) (answer : Answer) (canDispatch : Bool) (now : Nat)
  | finish (control : Bool) (key : Key) (canDispatch : Bool) (now : Nat)
  | restart

def isPending (record : ExecutionRecord) : Bool :=
  !executionSettled record || needsAcknowledgment record ||
    (record.acceptance.execution.owner = .conversationRequest &&
      (record.phase = .terminal || record.phase = .canceled) && record.finalizedAt.isNone)

def pendingProcesses (db : Database) : List ExecutionRecord :=
  (db.workspaces.rows.filterMap WorkspaceRow.processExecution).filter isPending

def pendingRequests (db : Database) : List ExecutionRecord :=
  (db.conversationRequests.rows.filterMap ConversationRequestRow.execution).filter isPending

/-- The capacity waits after a step of a task. A wait that is there keeps the
time it began. -/
def WaitChange.apply (change : WaitChange) (waits : JsMap Key Nat) : JsMap Key Nat :=
  match change with
  | .keep => waits
  | .set key since => if waits.has key then waits else waits.set key since
  | .delete key => waits.delete key

def Memory.progress (memory : Memory) (control : Bool) (key : Key) (progress : Progress)
    (now : Nat) : Memory :=
  let memory := memory.setLane control ((memory.lane control).set key progress.task)
  let memory := { memory with capacityWaits := progress.wait.apply memory.capacityWaits }
  match progress.canceled with
  | none => memory
  | some record => memory.cancel record now

def Memory.drain (memory : Memory) (workspaceId : String) : Memory :=
  { memory with
    queued := memory.queued.entries.rows.foldl
      (fun queued entry =>
        if entry.2.record.acceptance.execution.workspaceId = workspaceId then
          queued.delete entry.1
        else queued)
      memory.queued }

def Memory.absent (memory : Memory) (record : ExecutionRecord) (epoch : Nat)
    (canDispatch : Bool) (concurrency now : Nat) : Memory :=
  let key := executionInputManifestId record.acceptance
  if memory.allowed canDispatch then
    if memory.ordinary.has key then { memory with absences := memory.absences.set key epoch }
    else
      { memory with queued := memory.queued.set key { record, epoch := some epoch } }.pump
        canDispatch concurrency now
  else memory

def step (concurrency : Nat) (s : System) : Event → Option System
  | .transact operation => some { s with db := transact s.db operation }
  -- a cancellation is admitted first and handed to the dispatcher later
  | .admitCancel input now =>
      match Executions.cancel input now s.db with
      | .error _ => some s
      | .ok (record, db) => some { s with db, admitted := s.admitted ++ [record] }
  | .cancel index now =>
      s.admitted[index]?.map fun record =>
        { s with memory := s.memory.cancel record now, admitted := s.admitted.eraseIdx index }
  | .tick canDispatch => some { s with memory := s.memory.tick canDispatch }
  -- the two reads of one scan are two queries, and anything may run between them
  | .readProcesses =>
      match s.memory.scan with
      | .readProcesses =>
          some { s with memory := { s.memory with scan := .readRequests (pendingProcesses s.db) } }
      | _ => none
  | .readRequests =>
      match s.memory.scan with
      | .readRequests processes =>
          some { s with
            memory := { s.memory with scan := .handle (processes ++ pendingRequests s.db) } }
      | _ => none
  | .scan answers canDispatch now =>
      match s.memory.scan with
      | .handle pending =>
          some { s with
            memory := s.memory.scanPending pending answers canDispatch concurrency now }
      | _ => none
  | .absent execution epoch =>
      some { s with absents := s.absents ++ [{ execution, epoch, workspace := none }] }
  | .absentWorkspace index =>
      s.absents[index]?.map fun call =>
        { s with
          absents := s.absents.set index
            { call with workspace := some (s.db.workspaces.get? call.execution.workspaceId) } }
  | .absentRecord index canDispatch now =>
      match s.absents[index]? with
      | some ⟨execution, epoch, some workspace⟩ =>
          match Task.replayable workspace (Task.getExecution s.db execution) epoch with
          | none => some { s with absents := s.absents.eraseIdx index }
          | some record =>
              some { s with
                memory := s.memory.absent record epoch canDispatch concurrency now
                absents := s.absents.eraseIdx index }
      | _ => none
  | .drain workspaceId => some { s with memory := s.memory.drain workspaceId }
  | .stop =>
      some { s with
        memory := { s.memory with stopped := true, queued := .empty, absences := .empty } }
  | .advance control key answer canDispatch now =>
      match (s.memory.lane control).get key with
      | none => none
      | some task =>
          (task.advance s.db control
              (s.memory.capacityWaits.has (executionInputManifestId task.record.acceptance))
              (s.memory.allowed canDispatch) answer now).map fun progress =>
            { s with
              db := progress.db
              memory := s.memory.progress control key progress now
              handed := s.handed ++ progress.handed.toList }
  | .finish control key canDispatch now =>
      match (s.memory.lane control).get key with
      | some task =>
          match task.point with
          | .finished result =>
              some { s with
                memory := (s.memory.recordResult control key task result now).release control key
                  task canDispatch concurrency now }
          | _ => none
      | none => none
  -- what was handed over is not in the process's memory, so it outlives the restart
  | .restart => some { s with memory := .initial, admitted := [], absents := [] }

def Steps (concurrency : Nat) (s : System) (event : Event) (s' : System) : Prop :=
  step concurrency s event = some s'

end PocketCoder.Dispatcher
