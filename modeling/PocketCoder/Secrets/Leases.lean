import PocketCoder.Workspaces.Commits

/-!
Credential leases (`db/src/modules/secrets/leases.ts`, `lease-authority.ts`)
and the secrets that issue them (`repository.ts`). Every transaction holds
the row of the workspace, so none overlaps with a transition of it.
-/

namespace PocketCoder.Workspaces.Lifecycle

open PocketCoder.Foundation
open PocketCoder.Executions (Failure)
open PocketCoder.Foundation.Transaction (check require)

/-! ### Authority -/

def leaseWorkspaceActive (owner : LifecycleRow) (purpose : LeasePurpose) (now : Nat) : Bool :=
  let states : List WorkspaceState :=
    match purpose with
    | .setupIssuer => [.provisioning]
    | .runtimeIssuer => [.provisioning, .connected, .ready]
  states.contains owner.state && owner.purgeRequestedAt.isNone && now < owner.deadlineAt

/-- `leaseSourceIdentity`: the address and the revision of the source. -/
def leaseSourceIdentity (owner : LifecycleRow) (purpose : LeasePurpose) (name : String) :
    Except Failure (Option String × Option String) :=
  match purpose with
  | .runtimeIssuer => do
      require (owner.templateSnapshot.runtimeCredentials.contains name)
        (.error "Runtime lease reference is unavailable")
      return (none, none)
  | .setupIssuer =>
      match owner.sourceDescriptor with
      | none => throw (.error "Lease source reference is unavailable")
      | some source =>
          match owner.templateSnapshot.repositories.lookup source.repository with
          | none => throw (.error "Lease source reference is unavailable")
          | some repository => do
              require (owner.launchMode = .create &&
                  repository.credential = some ("secretRef:" ++ name))
                (.error "Lease source reference is unavailable")
              return (some repository.url, some source.revision)

/-! ### Requests -/

structure WorkspaceLeaseRequest where
  workspaceId : String
  secretName : String
  secretVersionId : String
  purpose : LeasePurpose
  policyDigest : String
  requestId : String
  now : Nat

/-- An open lease for the same workspace, secret and purpose. -/
def sameReference (input : WorkspaceLeaseRequest) (lease : WorkspaceLeaseRow) : Bool :=
  lease.workspaceId = input.workspaceId && lease.secretName = input.secretName &&
    lease.purpose = input.purpose && !lease.state.isClosed

/-- An open lease of the reference whose credential has run out. -/
def expireReference (input : WorkspaceLeaseRequest) (lease : WorkspaceLeaseRow) :
    WorkspaceLeaseRow :=
  if sameReference input lease && lease.issuerExpiresAt.any (· ≤ input.now) then
    { lease with state := .expired, closedAt := some input.now }
  else lease

theorem expireReference_id (input : WorkspaceLeaseRequest) (lease : WorkspaceLeaseRow) :
    (expireReference input lease).id = lease.id := by
  unfold expireReference
  split <;> rfl

def enforceReferenceLimit (input : WorkspaceLeaseRequest) : Transaction Unit := do
  modify fun db => { db with
    workspaceLeases := db.workspaceLeases.update (expireReference input) (expireReference_id input) }
  let db ← get
  check (require (db.workspaceLeases.rows.countP (sameReference input) < 2)
    (.error "Workspace lease limit reached"))

/-- `assertRequestIdentity`. -/
def sameRequest (lease : WorkspaceLeaseRow) (input : WorkspaceLeaseRequest)
    (templateDigest : String) : Bool :=
  lease.secretVersionId = input.secretVersionId && lease.workspaceId = input.workspaceId &&
    lease.policyDigest = input.policyDigest && lease.templateDigest = templateDigest &&
    lease.purpose = input.purpose

/-- The row of a new lease. -/
def requestedLease (id : String) (owner : LifecycleRow) (input : WorkspaceLeaseRequest)
    (source : Option String × Option String) : WorkspaceLeaseRow where
  id := id
  workspaceId := owner.id
  secretName := input.secretName
  secretVersionId := input.secretVersionId
  purpose := input.purpose
  sourceUrl := source.1
  sourceRevision := source.2
  templateDigest := owner.templateDigest
  policyDigest := input.policyDigest
  requestId := input.requestId
  requestExpiresAt := min owner.deadlineAt (input.now + 300000)
  issuerLeaseId := none
  issuerExpiresAt := none
  credentialBytes := none
  state := .requested
  createdAt := input.now
  deliveredAt := none
  closedAt := none

/-- The lease of the same request. -/
def existingLease (db : Store) (input : WorkspaceLeaseRequest) : Option WorkspaceLeaseRow :=
  db.workspaceLeases.rows.find? fun lease =>
    lease.secretName = input.secretName && lease.requestId = input.requestId

/-- `requestWorkspaceLease`; `id` is the random identifier of the new row. -/
def requestWorkspaceLease (id : String) (input : WorkspaceLeaseRequest) :
    Transaction WorkspaceLeaseRow := do
  let db ← get
  match db.workspaces.get? input.workspaceId with
  | none => throw (.error "Lease workspace is unavailable")
  | some owner =>
      check (require (!db.workspaceLeaseFences.contains owner.id)
        (.error "Lease workspace is fenced"))
      check (require (leaseWorkspaceActive owner input.purpose input.now)
        (.error "Lease workspace is inactive"))
      check (require ((db.secrets.get? input.secretName).any fun issuer =>
          issuer.versionId = input.secretVersionId && issuer.type = .issuer input.purpose &&
            issuer.retiredAt.isNone)
        (.error "Lease issuer is unavailable"))
      match existingLease db input with
      | some existing =>
          check (require (sameRequest existing input owner.templateDigest)
            (.error "Lease request identity changed"))
          return existing
      | none =>
          let source ← check (leaseSourceIdentity owner input.purpose input.secretName)
          enforceReferenceLimit input
          let db ← get
          check (require (db.workspaceLeases.get? id).isNone (.error "duplicate key value"))
          let lease := requestedLease id owner input source
          set { db with workspaceLeases := db.workspaceLeases.insert lease }
          return lease

/-! ### Reports on a lease -/

/-- `writable`: the lease and its workspace. -/
def writable {α : Type} (id : String)
    (task : WorkspaceLeaseRow → LifecycleRow → Transaction α) : Transaction α := do
  let db ← get
  match db.workspaceLeases.get? id with
  | none => throw (.error "Lease request is unavailable")
  | some lease =>
      match db.workspaces.get? lease.workspaceId with
      | none => throw (.error "Lease workspace is unavailable")
      | some owner => task lease owner

def replaceLease (lease row : WorkspaceLeaseRow) : WorkspaceLeaseRow :=
  if row.id = lease.id then lease else row

theorem replaceLease_id (lease row : WorkspaceLeaseRow) :
    (replaceLease lease row).id = row.id := by
  unfold replaceLease
  split
  · rename_i h
    exact h.symm
  · rfl

/-- A lease with another row. -/
def updateLease (lease : WorkspaceLeaseRow) : Transaction WorkspaceLeaseRow := do
  modify fun db => { db with
    workspaceLeases := db.workspaceLeases.update (replaceLease lease) (replaceLease_id lease) }
  return lease

/-- The state of a lease that the issuer has answered. -/
def issuedState (stopped : Bool) (state : LeaseState) : LeaseState :=
  if stopped then .revoking
  else if state ≠ .delivered then .issued
  else state

def recordWorkspaceLeaseIssued (id issuerLeaseId : String) (expiresAt : Nat)
    (credentialBytes : Int) (now : Nat) : Transaction (Option WorkspaceLeaseRow) :=
  writable id fun lease owner => do
    if lease.state.isClosed then return none
    else
      check (require (Executions.isText 1024 issuerLeaseId && 1 ≤ credentialBytes &&
          credentialBytes ≤ 65536 && lease.createdAt < expiresAt &&
          expiresAt ≤ lease.requestExpiresAt)
        (.error "Lease issuer expiry or identity is invalid"))
      check (require (lease.issuerLeaseId.all fun known => known = issuerLeaseId &&
          lease.issuerExpiresAt = some expiresAt && lease.credentialBytes = some credentialBytes)
        (.error "Lease request identity changed"))
      let db ← get
      -- what is issued for a workspace that has stopped goes straight to its revocation
      let stopped := lease.state = .revoking || db.workspaceLeaseFences.contains owner.id ||
        !leaseWorkspaceActive owner lease.purpose now
      some <$> updateLease { lease with
        issuerLeaseId := some issuerLeaseId, issuerExpiresAt := some expiresAt
        credentialBytes := some credentialBytes, state := issuedState stopped lease.state }

def recordWorkspaceLeaseDelivered (id : String) (now : Nat) :
    Transaction (Option WorkspaceLeaseRow) :=
  writable id fun lease owner => do
    let db ← get
    if !(lease.state = .issued || lease.state = .delivered) ||
        !lease.issuerExpiresAt.any (now < ·) || db.workspaceLeaseFences.contains owner.id ||
        !leaseWorkspaceActive owner lease.purpose now then
      return none
    else
      some <$> updateLease { lease with
        state := .delivered, deliveredAt := lease.deliveredAt.or (some now) }

def requestWorkspaceLeaseRevocation (id : String) : Transaction WorkspaceLeaseRow :=
  writable id fun lease _ => do
    if lease.state.isClosed || lease.state = .revoking then return lease
    else updateLease { lease with state := .revoking }

def fenceWorkspaceLeases (workspaceId : String) : Transaction Unit := do
  let db ← get
  check (require (db.workspaces.get? workspaceId).isSome (.error "Lease workspace is unavailable"))
  set (fenceWorkspaceLeaseRows workspaceId db)

def recordWorkspaceLeaseRevoked (id requestId : String) (now : Nat) :
    Transaction (Option WorkspaceLeaseRow) :=
  writable id fun lease _ => do
    check (require (lease.requestId = requestId) (.error "Lease request identity changed"))
    if lease.state.isClosed then return some lease
    else if lease.state ≠ .revoking then return none
    else some <$> updateLease { lease with state := .revoked, closedAt := some now }

def recordWorkspaceLeaseExpired (id : String) (now : Nat) :
    Transaction (Option WorkspaceLeaseRow) :=
  writable id fun lease _ => do
    if lease.state.isClosed then return some lease
    else if !lease.issuerExpiresAt.any (· ≤ now) then return none
    else some <$> updateLease { lease with state := .expired, closedAt := some now }

/-! ### Secrets -/

/-- `writeSecret`; `authorized` is what the caller's key allows. -/
def writeSecret (authorized : Bool) (name : String) (type : SecretType) (versionId : String) :
    Transaction Unit := do
  check (require authorized (.api "auth.forbidden" "Missing scope secrets:write."))
  modify fun db => { db with
    secrets := (db.secrets.updateAt name
      (fun row => { row with type, versionId, retiredAt := none }) fun _ => rfl).insert
        { name, type, versionId, retiredAt := none } }

/-- The workspaces with an open lease of a secret. -/
def consumers (db : Store) (name : String) : List String :=
  ((db.workspaceLeases.rows.filter fun lease =>
    lease.secretName = name && !lease.state.isClosed).map WorkspaceLeaseRow.workspaceId).dedup

def retireSecret (authorized : Bool) (name : String) (now : Nat) : Transaction Unit := do
  check (require authorized (.api "auth.forbidden" "Missing scope secrets:write."))
  let db ← get
  check (require (db.secrets.get? name).isSome (.api "secret.not_found" "Unknown stored secret."))
  set ((consumers db name).foldl (fun db id => fenceWorkspaceLeaseRows id db)
    { db with
      secrets := db.secrets.updateAt name
        (fun row => { row with retiredAt := row.retiredAt.or (some now) }) fun _ => rfl })

end PocketCoder.Workspaces.Lifecycle
