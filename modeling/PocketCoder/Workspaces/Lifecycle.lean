import PocketCoder.Executions.Store
import PocketCoder.Workspaces.Transitions

/-!
The store behind the lifecycle of workspaces: the rows with all the columns
that a transition or a patch writes, the history of their states and the
outbox of their events, the runtimes of the warm pools and the credential
leases (`runtime-contracts/src/stores/workspaces.ts`, `warm-pools.ts`,
`leases.ts`, `events/events.ts`).

`updatedAt` is left out of every row: no transaction reads it.
-/

namespace PocketCoder.Workspaces.Lifecycle

open PocketCoder.Foundation
open PocketCoder.Executions (Failure)

/-! ### Columns -/

inductive AdmissionReason where
  | globalCapacity
  | principalCapacity
  | templateCapacity
  | policyGlobalCapacity
  | actorCapacity
  | denied
  | unavailable
  deriving DecidableEq

/-- `REASON_CODES`. -/
inductive ReasonCode where
  | admission (reason : AdmissionReason)
  | childExitSuccess
  | childExitFailure
  | setupFailed
  | bootstrapFailed
  | registrationTimeout
  | healthFailed
  | childCrash
  | providerLost
  | disconnectTimeout
  | canceledByCaller
  | deadlineExpired
  | idleExpired
  | queueTimeout
  | launchFailed
  | launchRefused
  | preserveRequested
  | preservedByPolicy
  | checkpointCreated
  | checkpointFailed
  | checkpointCorrupt
  | checkpointQuotaExceeded
  | checkpointStorageLost
  | restoreRequested
  | restoreFailed
  | imageUnavailable
  | sourceResolutionFailed
  | secretResolutionFailed
  | operationConflict
  | networkPolicyFailed
  deriving DecidableEq

inductive AgentState where
  | unknown
  | running
  | stable
  deriving DecidableEq

inductive NetworkState where
  | disabled
  | starting
  | ready
  | degraded
  deriving DecidableEq

inductive ProvisioningMode where
  | cold
  | warm
  deriving DecidableEq

inductive LaunchMode where
  | create
  | restore
  deriving DecidableEq

inductive ConversationRestoreCapability where
  | supported
  | filesystemOnly
  | unknown
  deriving DecidableEq

structure SourceDescriptor where
  repository : String
  revision : String

/-- A repository that a template offers as a source. -/
structure SourceRepository where
  url : String
  credential : Option String

/-- The parts of a template snapshot that the store reads. -/
structure TemplateSnapshot where
  name : String
  version : String
  digest : String
  /-- `spec.network.mode` is `restricted`. -/
  restricted : Bool
  /-- `spec.source.repositories`. -/
  repositories : List (String × SourceRepository)
  /-- `runtimeCredentialReferences(spec)`. -/
  runtimeCredentials : List String

/-! ### Workspaces -/

/-- A workspace with the columns of its lifecycle. -/
structure LifecycleRow extends WorkspaceRow where
  externalId : String
  idempotencyKey : String
  requestDigest : String
  templateSnapshot : TemplateSnapshot
  reasonCode : Option ReasonCode
  agentState : AgentState
  networkState : NetworkState
  changeSeq : Nat
  failureLogTail : Option String
  failureLogTailTruncated : Bool
  failureLastLogSeq : Option Nat
  terminalIntent : Option WorkspaceState
  launchInput : Option JsonValue
  providerKind : Option String
  provisioningMode : Option ProvisioningMode
  registrationDigest : Option Bytes
  registrationExpiresAt : Option Nat
  reconnectDigest : Option Bytes
  connectedAt : Option Nat
  disconnectedAt : Option Nat
  readyAt : Option Nat
  lastActivityAt : Option Nat
  launchAttempts : Nat
  health : JsonValue
  terminalAt : Option Nat
  originWorkspaceId : Option String
  restoredFromCheckpointId : Option String
  sourceDescriptor : Option SourceDescriptor
  resolvedSource : Option JsonValue
  persistenceCapability : ConversationRestoreCapability
  latestCheckpointId : Option String
  launchMode : LaunchMode
  outputs : JsonValue

/-- `WorkspacePatch`: the columns that a patch may name. -/
structure WorkspacePatch where
  terminalIntent : Option (Option WorkspaceState) := none
  launchInput : Option (Option JsonValue) := none
  providerKind : Option (Option String) := none
  providerRef : Option (Option JsonValue) := none
  provisioningMode : Option (Option ProvisioningMode) := none
  registrationDigest : Option (Option Bytes) := none
  registrationExpiresAt : Option (Option Nat) := none
  reconnectDigest : Option (Option Bytes) := none
  connectionEpoch : Option Nat := none
  connectedAt : Option (Option Nat) := none
  disconnectedAt : Option (Option Nat) := none
  readyAt : Option (Option Nat) := none
  lastActivityAt : Option (Option Nat) := none
  launchAttempts : Option Nat := none
  health : Option JsonValue := none
  agentState : Option AgentState := none
  networkState : Option NetworkState := none
  failureLogTail : Option (Option String) := none
  failureLogTailTruncated : Option Bool := none
  failureLastLogSeq : Option (Option Nat) := none
  resolvedSource : Option (Option JsonValue) := none
  persistenceCapability : Option ConversationRestoreCapability := none
  latestCheckpointId : Option (Option String) := none
  outputs : Option JsonValue := none

namespace WorkspacePatch

/-- The row with the columns that the patch names. -/
def apply (patch : WorkspacePatch) (row : LifecycleRow) : LifecycleRow :=
  { row with
    terminalIntent := patch.terminalIntent.getD row.terminalIntent
    launchInput := patch.launchInput.getD row.launchInput
    providerKind := patch.providerKind.getD row.providerKind
    providerRef := patch.providerRef.getD row.providerRef
    provisioningMode := patch.provisioningMode.getD row.provisioningMode
    registrationDigest := patch.registrationDigest.getD row.registrationDigest
    registrationExpiresAt := patch.registrationExpiresAt.getD row.registrationExpiresAt
    reconnectDigest := patch.reconnectDigest.getD row.reconnectDigest
    connectionEpoch := patch.connectionEpoch.getD row.connectionEpoch
    connectedAt := patch.connectedAt.getD row.connectedAt
    disconnectedAt := patch.disconnectedAt.getD row.disconnectedAt
    readyAt := patch.readyAt.getD row.readyAt
    lastActivityAt := patch.lastActivityAt.getD row.lastActivityAt
    launchAttempts := patch.launchAttempts.getD row.launchAttempts
    health := patch.health.getD row.health
    agentState := patch.agentState.getD row.agentState
    networkState := patch.networkState.getD row.networkState
    failureLogTail := patch.failureLogTail.getD row.failureLogTail
    failureLogTailTruncated := patch.failureLogTailTruncated.getD row.failureLogTailTruncated
    failureLastLogSeq := patch.failureLastLogSeq.getD row.failureLastLogSeq
    resolvedSource := patch.resolvedSource.getD row.resolvedSource
    persistenceCapability := patch.persistenceCapability.getD row.persistenceCapability
    latestCheckpointId := patch.latestCheckpointId.getD row.latestCheckpointId
    outputs := patch.outputs.getD row.outputs }

/-- The patch names a column of `CHANGE_PATCH_KEYS`. -/
def bumpsChange (patch : WorkspacePatch) : Bool :=
  patch.connectedAt.isSome || patch.disconnectedAt.isSome || patch.health.isSome ||
    patch.agentState.isSome || patch.networkState.isSome || patch.failureLogTail.isSome ||
    patch.failureLogTailTruncated.isSome || patch.failureLastLogSeq.isSome ||
    patch.resolvedSource.isSome || patch.persistenceCapability.isSome ||
    patch.latestCheckpointId.isSome || patch.outputs.isSome

end WorkspacePatch

/-- The empty JSON object. -/
def emptyObject : JsonValue := .of (.obj [])

def purgedContentPatch (row : LifecycleRow) : LifecycleRow :=
  { row with
    launchInput := none
    processExecution := none
    finiteProcess := none
    health := emptyObject
    outputs := emptyObject
    failureLogTail := none
    failureLogTailTruncated := false
    failureLastLogSeq := none
    resolvedSource := none
    registrationDigest := none
    reconnectDigest := none }

/-! ### History and events -/

structure StateHistoryRow where
  workspaceId : String
  fromState : Option WorkspaceState
  toState : WorkspaceState
  reasonCode : Option ReasonCode
  occurredAt : Nat

structure EventFailure where
  reasonCode : ReasonCode
  logTail : String
  logTailTruncated : Bool
  lastLogSeq : Option Nat

/-- The payload of an event, without its random identifier. Its type is
`workspace.` with the state. -/
structure EventEnvelope where
  occurredAt : Nat
  id : String
  externalId : String
  state : WorkspaceState
  reasonCode : Option ReasonCode
  agentState : AgentState
  provisioningMode : Option ProvisioningMode
  changeCursor : Nat
  failure : Option EventFailure
  templateName : String
  templateVersion : String
  templateDigest : String
  originWorkspaceId : Option String
  restoredFromCheckpointId : Option String
  latestCheckpointId : Option String
  outputs : JsonValue

def buildEventEnvelope (row : LifecycleRow) (occurredAt : Nat) : EventEnvelope where
  occurredAt := occurredAt
  id := row.id
  externalId := row.externalId
  state := row.state
  reasonCode := row.reasonCode
  agentState := row.agentState
  provisioningMode := row.provisioningMode
  changeCursor := row.changeSeq
  failure :=
    if row.state = .failed then
      row.reasonCode.map fun reasonCode =>
        { reasonCode, logTail := row.failureLogTail.getD ""
          logTailTruncated := row.failureLogTailTruncated, lastLogSeq := row.failureLastLogSeq }
    else none
  templateName := row.templateName
  templateVersion := row.templateSnapshot.version
  templateDigest := row.templateDigest
  originWorkspaceId := row.originWorkspaceId
  restoredFromCheckpointId := row.restoredFromCheckpointId
  latestCheckpointId := row.latestCheckpointId
  outputs := row.outputs

structure OutboxRow where
  workspaceId : String
  payload : EventEnvelope

/-! ### Warm pools and leases -/

inductive WarmPoolRuntimeState where
  | provisioning
  | ready
  | leasing
  | leased
  | draining
  | failed
  deriving DecidableEq

structure WarmPoolRuntimeRow where
  id : String
  templateName : String
  templateVersion : String
  templateDigest : String
  driverKind : String
  eligibilityFingerprint : String
  state : WarmPoolRuntimeState
  providerRef : Option JsonValue
  enrollmentDigest : Option Bytes
  enrollmentExpiresAt : Option Nat
  workspaceId : Option String
  createdAt : Nat
  readyAt : Option Nat
  leasedAt : Option Nat
  failureCode : Option String

inductive LeasePurpose where
  | setupIssuer
  | runtimeIssuer
  deriving DecidableEq

inductive LeaseState where
  | requested
  | issued
  | delivered
  | revoking
  | revoked
  | expired
  deriving DecidableEq

namespace LeaseState

def isClosed : LeaseState → Bool
  | .revoked | .expired => true
  | .requested | .issued | .delivered | .revoking => false

end LeaseState

structure WorkspaceLeaseRow where
  id : String
  workspaceId : String
  secretName : String
  secretVersionId : String
  purpose : LeasePurpose
  sourceUrl : Option String
  sourceRevision : Option String
  templateDigest : String
  policyDigest : String
  requestId : String
  requestExpiresAt : Nat
  issuerLeaseId : Option String
  issuerExpiresAt : Option Nat
  credentialBytes : Option Int
  state : LeaseState
  createdAt : Nat
  deliveredAt : Option Nat
  closedAt : Option Nat

/-- The type of a secret: what it issues leases for, or `registry`. -/
inductive SecretType where
  | issuer (purpose : LeasePurpose)
  | registry
  deriving DecidableEq

structure SecretRow where
  name : String
  type : SecretType
  versionId : String
  retiredAt : Option Nat

/-! ### The store -/

/-- The tables; the history and the outbox are in the order of the commits. -/
structure Store where
  workspaces : Table (fun row : LifecycleRow => row.id)
  workspaceStateHistory : List StateHistoryRow
  eventOutbox : List OutboxRow
  warmPoolRuntimes : Table WarmPoolRuntimeRow.id
  workspaceLeases : Table WorkspaceLeaseRow.id
  /-- The workspaces with a row in `workspaceLeaseFences`. -/
  workspaceLeaseFences : List String
  secrets : Table SecretRow.name

/-- A transaction on the store. -/
abbrev Transaction (α : Type) := Foundation.Transaction Store Failure α

end PocketCoder.Workspaces.Lifecycle
