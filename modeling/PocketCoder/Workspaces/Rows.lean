import PocketCoder.Executions.Records
import PocketCoder.Foundation.Table
import PocketCoder.Workspaces.Templates

/-!
Workspace rows: the lifecycle states and their transitions
(`contracts/src/workspaces/workspace.ts`), the runtime registered for a
workspace and the row itself (`runtime-contracts/src/stores/workspaces.ts`),
with the columns that the modelled transactions read.
-/

namespace PocketCoder.Workspaces

open PocketCoder.Foundation PocketCoder.Executions

/-! ### Lifecycle -/

inductive WorkspaceState where
  | queued
  | provisioning
  | connected
  | ready
  | preserving
  | terminating
  | succeeded
  | failed
  | canceled
  | expired
  | preserved
  deriving DecidableEq

namespace WorkspaceState

def isTerminal : WorkspaceState → Bool
  | .succeeded | .failed | .canceled | .expired | .preserved => true
  | .queued | .provisioning | .connected | .ready | .preserving | .terminating => false

/-- `TRANSITIONS`. -/
def transitions : WorkspaceState → List WorkspaceState
  | .queued => [.provisioning, .canceled, .expired]
  | .provisioning => [.connected, .queued, .terminating, .failed, .canceled, .expired]
  | .connected => [.ready, .preserving, .terminating, .failed, .canceled, .expired]
  | .ready => [.preserving, .terminating, .succeeded, .failed, .canceled, .expired]
  | .preserving => [.terminating, .preserved, .failed]
  | .terminating => [.succeeded, .failed, .canceled, .expired]
  | .succeeded | .failed | .canceled | .expired | .preserved => []

def canTransition (source target : WorkspaceState) : Bool := source.transitions.contains target

end WorkspaceState

/-! ### Rows -/

/-- The runtime bound to a workspace, with the evidence of what it runs. -/
structure WorkspaceRuntimeRegistration where
  incarnationId : String
  containerIdentity : String
  profile : WorkloadProfile
  producer : Option InstalledWorkload
  template : Option WorkloadTemplateSnapshot
  readyAt : Option String
  endedAt : Option String
  deriving DecidableEq

structure WorkspaceRow where
  id : String
  principalId : String
  templateName : String
  templateDigest : String
  state : WorkspaceState
  providerRef : Option JsonValue
  runtimeRegistration : Option WorkspaceRuntimeRegistration
  processExecution : Option ExecutionRecord
  finiteProcess : Option FiniteProcessFact
  connectionEpoch : Nat
  deadlineAt : Nat
  createdAt : Nat
  purgeRequestedAt : Option Nat

/-- The table of workspaces, by identifier. -/
abbrev WorkspaceTable := Table WorkspaceRow.id

end PocketCoder.Workspaces
