import PocketCoder.Workspaces.Lifecycle

/-!
The transactions that change workspaces: `insertWorkspace`
(`db/src/modules/workspaces/repository.ts`), `updateWorkspace` and
`transitionWorkspace` (`transitions.ts`), `claimWorkspaceAdmission` and
`setQueuedAdmissionReason` (`admission.ts`), the statement of the warm claim
(`warm-pools/claim-query.ts`, `repository.ts`) and the admission of a purge
(`persistence/operations.ts`). A transition fences the leases of a workspace
that stops (`secrets/lease-fence.ts`).
-/

namespace PocketCoder.Workspaces.Lifecycle

open PocketCoder.Foundation
open PocketCoder.Executions (Failure)
open PocketCoder.Foundation.Transaction (check require)

/-! ### History -/

/-- `appendTransition`: a history row, and its event unless the workspace is
being purged. -/
def appendTransition (row : LifecycleRow) (origin : Option WorkspaceState)
    (reason : Option ReasonCode) (now : Nat) (db : Store) : Store :=
  { db with
    workspaceStateHistory := db.workspaceStateHistory ++
      [{ workspaceId := row.id, fromState := origin, toState := row.state, reasonCode := reason
         occurredAt := now }]
    eventOutbox :=
      if row.purgeRequestedAt.isSome then db.eventOutbox
      else db.eventOutbox ++ [{ workspaceId := row.id, payload := buildEventEnvelope row now }] }

/-- The store with another row of a workspace. -/
def Store.write (db : Store) (id : String) (f : LifecycleRow → LifecycleRow)
    (hf : ∀ row, (f row).id = row.id) : Store :=
  { db with workspaces := db.workspaces.updateAt id f hf }

/-! ### New workspaces -/

structure WorkspaceInsert where
  id : String
  principalId : String
  externalId : String
  idempotencyKey : String
  requestDigest : String
  templateSnapshot : TemplateSnapshot
  launchInput : Option JsonValue
  deadlineAt : Nat
  createdAt : Nat
  originWorkspaceId : Option String
  restoredFromCheckpointId : Option String
  sourceDescriptor : Option SourceDescriptor
  resolvedSource : Option JsonValue
  persistenceCapability : Option ConversationRestoreCapability
  latestCheckpointId : Option String
  launchMode : Option LaunchMode
  outputs : Option JsonValue

/-- The row of a new workspace, with the defaults of its columns. -/
def WorkspaceInsert.row (input : WorkspaceInsert) : LifecycleRow where
  id := input.id
  principalId := input.principalId
  templateName := input.templateSnapshot.name
  templateDigest := input.templateSnapshot.digest
  state := .queued
  providerRef := none
  runtimeRegistration := none
  processExecution := none
  finiteProcess := none
  connectionEpoch := 0
  deadlineAt := input.deadlineAt
  createdAt := input.createdAt
  purgeRequestedAt := none
  externalId := input.externalId
  idempotencyKey := input.idempotencyKey
  requestDigest := input.requestDigest
  templateSnapshot := input.templateSnapshot
  reasonCode := none
  agentState := .unknown
  networkState := if input.templateSnapshot.restricted then .starting else .disabled
  changeSeq := 1
  failureLogTail := none
  failureLogTailTruncated := false
  failureLastLogSeq := none
  terminalIntent := none
  launchInput := input.launchInput
  providerKind := none
  provisioningMode := none
  registrationDigest := none
  registrationExpiresAt := none
  reconnectDigest := none
  connectedAt := none
  disconnectedAt := none
  readyAt := none
  lastActivityAt := none
  launchAttempts := 0
  health := emptyObject
  terminalAt := none
  originWorkspaceId := input.originWorkspaceId
  restoredFromCheckpointId := input.restoredFromCheckpointId
  sourceDescriptor := input.sourceDescriptor
  resolvedSource := input.resolvedSource
  persistenceCapability := input.persistenceCapability.getD .filesystemOnly
  latestCheckpointId := input.latestCheckpointId
  launchMode := input.launchMode.getD .create
  outputs := input.outputs.getD emptyObject

inductive WorkspaceInsertResult where
  | created (workspace : LifecycleRow)
  | replayed (workspace : LifecycleRow)
  | idempotencyConflict (workspace : LifecycleRow)
  | externalIdConflict (workspace : LifecycleRow)
  | capacityExceeded

def conflict (db : Store) (input : WorkspaceInsert) : Option WorkspaceInsertResult :=
  match db.workspaces.rows.find? fun row =>
      row.principalId = input.principalId && row.idempotencyKey = input.idempotencyKey with
  | some row =>
      some (if row.requestDigest = input.requestDigest then .replayed row
        else .idempotencyConflict row)
  | none =>
      (db.workspaces.rows.find? fun row => row.principalId = input.principalId &&
        row.externalId = input.externalId && !row.state.isTerminal).map .externalIdConflict

def insertWorkspace (input : WorkspaceInsert) (maxQueuedWorkspaces : Option Nat) :
    Transaction WorkspaceInsertResult := do
  let db ← get
  match conflict db input with
  | some result => return result
  | none =>
      if maxQueuedWorkspaces.any fun limit =>
          limit ≤ db.workspaces.rows.countP fun row => row.state = .queued then
        return .capacityExceeded
      else
        check (require (db.workspaces.get? input.id).isNone (.error "duplicate key value"))
        set (appendTransition input.row none none input.createdAt
          { db with workspaces := db.workspaces.insert input.row })
        return .created input.row

/-! ### Patches -/

/-- The row after `updateWorkspace`. -/
def patchedRow (patch : WorkspacePatch) (row : LifecycleRow) : LifecycleRow :=
  let patched := patch.apply row
  let kept := if row.purgeRequestedAt.isSome then purgedContentPatch patched else patched
  { kept with changeSeq := if patch.bumpsChange then row.changeSeq + 1 else row.changeSeq }

theorem patchedRow_id (patch : WorkspacePatch) (row : LifecycleRow) :
    (patchedRow patch row).id = row.id := by
  unfold patchedRow
  dsimp only
  split <;> rfl

def updateWorkspace (id : String) (patch : WorkspacePatch) : Transaction Unit :=
  modify fun db => db.write id (patchedRow patch) (patchedRow_id patch)

/-! ### Leases of a workspace that stops -/

/-- The lease of a fenced workspace. -/
def fenceLease (workspaceId : String) (lease : WorkspaceLeaseRow) : WorkspaceLeaseRow :=
  if lease.workspaceId = workspaceId && !lease.state.isClosed then
    { lease with state := .revoking }
  else lease

theorem fenceLease_id (workspaceId : String) (lease : WorkspaceLeaseRow) :
    (fenceLease workspaceId lease).id = lease.id := by
  unfold fenceLease
  split <;> rfl

def fenceWorkspaceLeaseRows (workspaceId : String) (db : Store) : Store :=
  { db with
    workspaceLeaseFences :=
      if db.workspaceLeaseFences.contains workspaceId then db.workspaceLeaseFences
      else db.workspaceLeaseFences ++ [workspaceId]
    workspaceLeases := db.workspaceLeases.update (fenceLease workspaceId)
      (fenceLease_id workspaceId) }

/-- The states whose entry fences the leases. -/
def stops (state : WorkspaceState) : Bool :=
  state.isTerminal || state = .terminating || state = .preserving

def pendingWorkspaceLeases (db : Store) (workspaceId : String) : List WorkspaceLeaseRow :=
  db.workspaceLeases.rows.filter fun lease =>
    lease.workspaceId = workspaceId && !lease.state.isClosed

/-- `prepareLeaseTransition`: whether the transition may go on. -/
def prepareLeaseTransition (workspaceId : String) (target : WorkspaceState) : Transaction Bool := do
  if !stops target then return true
  else
    modify (fenceWorkspaceLeaseRows workspaceId)
    let db ← get
    return !target.isTerminal || (pendingWorkspaceLeases db workspaceId).isEmpty

/-- The credential that a workspace is set up with. -/
def setupCredential (row : LifecycleRow) : Option String :=
  if row.launchMode = .create then
    row.sourceDescriptor.bind fun source =>
      (row.templateSnapshot.repositories.lookup source.repository).bind fun repository =>
        repository.credential.filter (· ≠ "")
  else none

def setupLeaseClosed (db : Store) (row : LifecycleRow) : Bool :=
  match setupCredential row with
  | none => true
  | some reference =>
      let leases := db.workspaceLeases.rows.filter fun lease => lease.workspaceId = row.id
      leases.any (fun lease => lease.secretName = String.ofList (reference.toList.drop 10) &&
        lease.deliveredAt.isSome) &&
      leases.all fun lease => lease.purpose ≠ .setupIssuer || lease.state.isClosed

/-! ### Transitions -/

/-- A transition with what it writes; an omitted reason leaves the column as it
is. `passes` is false where `check` throws. -/
structure TransitionInput extends TransitionRequest where
  reason : Option (Option ReasonCode)
  now : Nat
  patch : WorkspacePatch
  passes : Bool

/-- The row after `transitionWorkspace`. -/
def transitionedRow (req : TransitionInput) (row : LifecycleRow) : LifecycleRow :=
  let patched := req.patch.apply row
  let kept := if row.purgeRequestedAt.isSome then purgedContentPatch patched else patched
  let moved := { kept with
    state := req.target, reasonCode := req.reason.getD row.reasonCode
    changeSeq := row.changeSeq + 1 }
  if req.target.isTerminal then
    { moved with terminalAt := some req.now, launchInput := none, registrationDigest := none }
  else moved

theorem transitionedRow_id (req : TransitionInput) (row : LifecycleRow) :
    (transitionedRow req row).id = row.id := by
  unfold transitionedRow
  dsimp only
  split <;> split <;> rfl

def transitionWorkspace (id : String) (req : TransitionInput) :
    Transaction (Option LifecycleRow) := do
  check (require req.passes (.error "check"))
  let db ← get
  match db.workspaces.get? id with
  | none => return none
  | some current =>
      if !permitsTransition current.state current.connectionEpoch req.toTransitionRequest then
        return none
      else if current.purgeRequestedAt.isSome && req.target.closedByPurge then return none
      else if req.target = .ready && !setupLeaseClosed db current then return none
      else
        let prepared ← prepareLeaseTransition id req.target
        if !prepared then return none
        else
          let result := transitionedRow req current
          modify fun db => appendTransition result (some current.state) result.reasonCode req.now
            (db.write id (transitionedRow req) (transitionedRow_id req))
          return some result

/-! ### Admission -/

def setQueuedAdmissionReason (id : String) (reason : Option AdmissionReason) :
    Transaction Unit := do
  let db ← get
  let reason := reason.map ReasonCode.admission
  if (db.workspaces.get? id).any fun current => current.state = .queued &&
      current.purgeRequestedAt.isNone && current.reasonCode ≠ reason then
    set (db.write id (fun row => { row with reasonCode := reason, changeSeq := row.changeSeq + 1 })
      fun _ => rfl)
  else pure ()

/-- The states that `countActive` counts. -/
def isActive : WorkspaceState → Bool
  | .provisioning | .connected | .ready | .preserving | .terminating => true
  | .queued | .succeeded | .failed | .canceled | .expired | .preserved => false

/-- The active workspaces that satisfy a condition. -/
def Store.countActive (db : Store) (condition : LifecycleRow → Bool) : Nat :=
  db.workspaces.rows.countP fun row => isActive row.state && condition row

structure AdmissionLimits where
  globalActiveWorkspaces : Nat
  perPrincipalActiveWorkspaces : Nat
  perTemplateActiveWorkspaces : List (String × Nat)

/-- The limit of a template, or the global one. -/
def AdmissionLimits.template (limits : AdmissionLimits) (name : String) : Nat :=
  (limits.perTemplateActiveWorkspaces.lookup name).getD limits.globalActiveWorkspaces

structure WorkspaceAdmissionClaim where
  workspaceId : String
  now : Nat
  registrationDigest : Bytes
  registrationExpiresAt : Nat
  limits : AdmissionLimits

/-- There is room for the workspace. -/
def hasCapacity (db : Store) (limits : AdmissionLimits) (current : LifecycleRow) : Bool :=
  db.countActive (fun _ => true) < limits.globalActiveWorkspaces &&
    db.countActive (fun row => row.principalId = current.principalId) <
      limits.perPrincipalActiveWorkspaces &&
    db.countActive (fun row => row.templateName = current.templateName) <
      limits.template current.templateName

/-- The row after `claimWorkspaceAdmission`. -/
def admittedRow (claim : WorkspaceAdmissionClaim) (row : LifecycleRow) : LifecycleRow :=
  { row with
    state := .provisioning
    reasonCode := none
    changeSeq := row.changeSeq + 1
    provisioningMode := some .cold
    registrationDigest := some claim.registrationDigest
    registrationExpiresAt := some claim.registrationExpiresAt
    launchAttempts := row.launchAttempts + 1 }

def claimWorkspaceAdmission (claim : WorkspaceAdmissionClaim) :
    Transaction (Option LifecycleRow) := do
  let db ← get
  match db.workspaces.get? claim.workspaceId with
  | none => return none
  | some current =>
      if current.state ≠ .queued || current.purgeRequestedAt.isSome then return none
      else if !hasCapacity db claim.limits current then return none
      else
        let result := admittedRow claim current
        set (appendTransition result (some .queued) result.reasonCode claim.now
          (db.write claim.workspaceId (admittedRow claim) fun _ => rfl))
        return some result

/-! ### The warm claim -/

structure WarmPoolClaim where
  workspace : LifecycleRow
  driverKind : String
  eligibilityFingerprint : String
  registrationDigest : Bytes
  registrationExpiresAt : Nat
  now : Nat

/-- A runtime that the claim may lease. -/
def eligible (claim : WarmPoolClaim) (templateDigest : String) (runtime : WarmPoolRuntimeRow) :
    Bool :=
  runtime.templateDigest = templateDigest && runtime.driverKind = claim.driverKind &&
    runtime.eligibilityFingerprint = claim.eligibilityFingerprint && runtime.state = .ready &&
    runtime.providerRef.isSome

/-- The candidate. The statement takes the oldest eligible runtime that no
other transaction holds, so `choice` may be any of them, or none. -/
def candidate (db : Store) (claim : WarmPoolClaim) (templateDigest : String)
    (choice : Option String) : Option WarmPoolRuntimeRow :=
  (choice.bind db.warmPoolRuntimes.get?).filter (eligible claim templateDigest)

def leasedRuntime (workspaceId : String) (now : Nat) (runtime : WarmPoolRuntimeRow) :
    WarmPoolRuntimeRow :=
  { runtime with state := .leased, workspaceId := some workspaceId, leasedAt := some now }

/-- The row of the workspace that gets the runtime. -/
def warmRow (claim : WarmPoolClaim) (runtime : WarmPoolRuntimeRow) (row : LifecycleRow) :
    LifecycleRow :=
  { row with
    state := .provisioning
    reasonCode := none
    provisioningMode := some .warm
    providerKind := some runtime.driverKind
    providerRef := runtime.providerRef
    registrationDigest := some claim.registrationDigest
    registrationExpiresAt := some claim.registrationExpiresAt
    launchAttempts := row.launchAttempts + 1
    changeSeq := row.changeSeq + 1 }

/-- The event of a warm claim, built from the row that the caller read. -/
def warmEnvelope (claim : WarmPoolClaim) : EventEnvelope :=
  buildEventEnvelope
    { claim.workspace with
      state := .provisioning, reasonCode := none, provisioningMode := some .warm
      changeSeq := claim.workspace.changeSeq + 1 } claim.now

/-- The store after a warm claim: the lease, the workspace, its history and
its event in one commit. -/
def warmClaimed (claim : WarmPoolClaim) (runtime : WarmPoolRuntimeRow) (db : Store) : Store :=
  let id := claim.workspace.id
  let entry : StateHistoryRow :=
    { workspaceId := id, fromState := some .queued, toState := .provisioning, reasonCode := none
      occurredAt := claim.now }
  let event : OutboxRow := { workspaceId := id, payload := warmEnvelope claim }
  { db with
    warmPoolRuntimes := db.warmPoolRuntimes.updateAt runtime.id (leasedRuntime id claim.now)
      fun _ => rfl
    workspaces := db.workspaces.updateAt id (warmRow claim runtime) fun _ => rfl
    workspaceStateHistory := db.workspaceStateHistory ++ [entry]
    eventOutbox := db.eventOutbox ++ [event] }

inductive WarmClaimResult where
  | stale
  | leased (runtime : WarmPoolRuntimeRow) (workspace : LifecycleRow)

/-- The statement of `claimWarmPoolRuntime`. -/
def claimWarmPoolRuntime (claim : WarmPoolClaim) (choice : Option String) :
    Transaction (Option WarmClaimResult) := do
  let db ← get
  match db.workspaces.get? claim.workspace.id with
  | none => return none
  | some locked =>
      if locked.state ≠ .queued || locked.purgeRequestedAt.isSome then return none
      -- the workspace has changed since the caller read it
      else if locked.changeSeq ≠ claim.workspace.changeSeq ||
          locked.outputs ≠ claim.workspace.outputs then
        return some .stale
      else
        match candidate db claim locked.templateDigest choice with
        | none => return none
        | some runtime =>
            set (warmClaimed claim runtime db)
            return some (.leased (leasedRuntime claim.workspace.id claim.now runtime)
              (warmRow claim runtime locked))

/-! ### Purge -/

/-- What the admission of a purge writes to the workspace. -/
def admitPurge (id : String) (now : Nat) : Transaction Unit :=
  modify fun db => db.write id
    (fun row => { row with purgeRequestedAt := row.purgeRequestedAt.or (some now) }) fun _ => rfl

end PocketCoder.Workspaces.Lifecycle
