import Mathlib.Data.List.Sort
import PocketCoder.Foundation.Processes
import PocketCoder.Workspaces.Operations

/-!
The manager of the warm pools (`runtime-core/src/warm-pool/warm-pool.ts`,
`warm-provider-cleanup.ts`, `scheduler/provider-termination.ts`) as processes
over the store: every call of the store is one access, and what the driver, the
connections and the clock answer comes from outside.
-/

namespace PocketCoder.WarmPools

open PocketCoder.Foundation PocketCoder.Foundation.Async
open PocketCoder.Workspaces PocketCoder.Workspaces.Lifecycle

/-- An asynchronous function of the manager. -/
abbrev Task (α : Type) := Async Store Operation α

/-- The properties of the JSON object that names a provider. -/
structure ProviderRefs where
  /-- `ref[key]`. -/
  get : JsonValue → String → Option JsonValue
  /-- `{ ...ref, [key]: value }`. -/
  set : JsonValue → String → JsonValue → JsonValue

/-- A pool, with the row of its template. -/
structure ResolvedWarmPool where
  templateName : String
  templateVersion : String
  templateDigest : String
  startTimeoutMs : Nat
  eligibilityFingerprint : String
  minReady : Nat
  maxWarmAgeMs : Nat

/-- What the manager is built with. `uncommittedWarmProvider` says that the
driver has this optional function. -/
structure Deps where
  driverKind : String
  uncommittedWarmProvider : Bool
  pools : List ResolvedWarmPool
  refs : ProviderRefs

def poolFor (deps : Deps) (row : LifecycleRow) : Option ResolvedWarmPool :=
  deps.pools.find? fun pool => pool.templateDigest = row.templateDigest

/-! ### Calls of the store -/

/-- `this.now()`. -/
def clock : Task Nat := outside

def getWarmPoolRuntime (id : String) : Task (Option WarmPoolRuntimeRow) :=
  read fun db => db.warmPoolRuntimes.get? id

def listWarmPoolRuntimes : Task (List WarmPoolRuntimeRow) :=
  read fun db => db.warmPoolRuntimes.rows.insertionSort fun a b => a.createdAt ≤ b.createdAt

def getWorkspace (id : String) : Task (Option LifecycleRow) := read fun db => db.workspaces.get? id

def updateWarmPoolRuntime (id : String) (patch : WarmPoolRuntimePatch) : Task Unit :=
  perform (.updateWarmPoolRuntime id patch) fun _ => ()

def insertWarmPoolRuntime (row : WarmPoolRuntimeRow) : Task Unit :=
  perform (.insertWarmPoolRuntime row) fun _ => ()

def transition (id : String) (req : TransitionInput) : Task Unit :=
  perform (.transition id req) fun _ => ()

/-- What the statement of a claim returns. -/
def claimed (claim : WarmPoolClaim) (choice : Option String) (db : Store) : Option WarmClaimResult :=
  match claimWarmPoolRuntime claim choice db with
  | .ok (result, _) => result
  | .error _ => none

/-! ### Cleanup of a provider -/

namespace ProviderRefs

variable (refs : ProviderRefs)

/-- `typeof value === "string" && value`. -/
def isText (value : Option JsonValue) : Bool :=
  value.any fun value => value.canonical.startsWith "\"" && value.canonical ≠ "\"\""

/-- `ref?.terminationEvidence?.neverAdmitted?.[key]`. -/
def receipt (ref : Option JsonValue) (key : String) : Option JsonValue := do
  let evidence ← refs.get (← ref) "terminationEvidence"
  let admission ← refs.get evidence "neverAdmitted"
  refs.get admission key

def text (value : Option JsonValue) : Option String := value.map JsonValue.canonical

def sameField (a b : Option JsonValue) (key : String) : Bool :=
  text (a.bind (refs.get · key)) = text (b.bind (refs.get · key))

/-- A runtime, or what is left of it, for a termination. -/
structure Termination where
  id : String
  providerKind : Option String
  providerRef : Option JsonValue

def sameAdmission (current : Option Termination) (expected : Termination) : Bool :=
  let actual := current.bind (·.providerRef)
  if expected.providerKind ≠ some "kubernetes" then true
  else
    let uid := expected.providerRef.bind (refs.get · "jobUid")
    if isText uid then refs.sameField actual expected.providerRef "jobUid"
    else if uid.isSome || (actual.bind (refs.get · "jobUid")).isSome then false
    else
      ["inputUid", "workspaceId", "templateDigest"].all fun key =>
        isText (refs.receipt expected.providerRef key) &&
          text (refs.receipt actual key) = text (refs.receipt expected.providerRef key)

def sameProvider (current : Option Termination) (expected : Termination) : Bool :=
  current.bind (·.providerKind) = expected.providerKind &&
    (["id", "kind", "namespace", "jobUid", "poolRuntimeId"].all fun key =>
      refs.sameField (current.bind (·.providerRef)) expected.providerRef key) &&
    refs.sameAdmission current expected

def evidence (ref : Option JsonValue) : Option JsonValue :=
  ref.bind (refs.get · "terminationEvidence")

end ProviderRefs

open ProviderRefs

/-- The runtime as `stopWorkspaceProvider` reads it. -/
def currentTermination (id : String) : Task (Option Termination) := do
  let row ← getWarmPoolRuntime id
  return row.map fun row => ⟨id, some row.driverKind, row.providerRef⟩

/-- An exception unless the condition holds. -/
def ensure (condition : Bool) : Task Unit := if condition then pure () else throw ()

/-- The provider is stopped. `driver.stop` and `driver.terminationEvidence` are
one call: nothing is between them. -/
def stopProvider (refs : ProviderRefs) (workspace : Termination) : Task (Option JsonValue) := do
  let stopped ← attempt (call : Task (Option JsonValue))
  match stopped with
  | .ok evidence => return evidence
  | .error _ => do
      let current ← currentTermination workspace.id
      ensure (refs.sameProvider current workspace &&
        (refs.evidence (current.bind (·.providerRef))).isSome)
      return none

/-- The evidence is saved in the row of the runtime. -/
def saveEvidence (refs : ProviderRefs) (workspace : Termination) (evidence : JsonValue) :
    Task Unit := do
  let current ← currentTermination workspace.id
  match current.bind (·.providerRef) with
  | none => throw ()
  | some ref => do
      ensure (refs.sameProvider current workspace)
      updateWarmPoolRuntime workspace.id
        { providerRef := some (some (refs.set ref "terminationEvidence" evidence)) }

def stopWorkspaceProvider (refs : ProviderRefs) (workspace : Termination) : Task Unit :=
  if workspace.providerRef.isNone then pure ()
  else do
    let evidence ← stopProvider refs workspace
    evidence.forM (saveEvidence refs workspace)
    call

/-- A provider that the driver lists. -/
structure WarmProvider where
  runtimeId : String
  templateDigest : String
  ref : JsonValue

/-- The provider that was never saved in the row. -/
def uncommittedProvider (deps : Deps) (row : WarmPoolRuntimeRow) : Task (Option JsonValue) :=
  if deps.uncommittedWarmProvider then call
  else do
    ensure (deps.driverKind ≠ "kubernetes")
    let providers ← (call : Task (List WarmProvider))
    let found := providers.find? (·.runtimeId = row.id)
    ensure (found.all (·.templateDigest = row.templateDigest))
    return found.map (·.ref)

/-- The reference of the row, or the one that was never saved, which is saved
now. -/
def committedRef (deps : Deps) (row : WarmPoolRuntimeRow) : Task (Option JsonValue) :=
  match row.providerRef with
  | some ref => return some ref
  | none => do
      let ref ← uncommittedProvider deps row
      ref.forM fun ref => updateWarmPoolRuntime row.id { providerRef := some (some ref) }
      return ref

/-- The workspace of the runtime ran on this provider. -/
def sameRuntime (deps : Deps) (row : WarmPoolRuntimeRow) (ref : JsonValue)
    (workspace : LifecycleRow) : Bool :=
  workspace.templateDigest = row.templateDigest &&
    text (workspace.providerRef.bind (deps.refs.get · "poolRuntimeId")) =
      text (some (.of (.str row.id))) &&
    deps.refs.sameProvider (some ⟨workspace.id, workspace.providerKind, workspace.providerRef⟩)
      ⟨row.id, some row.driverKind, some ref⟩

/-- The reference with the evidence that the workspace of the runtime has. -/
def withWorkspaceEvidence (deps : Deps) (row : WarmPoolRuntimeRow) (ref : JsonValue) :
    Task JsonValue :=
  match row.workspaceId, deps.refs.evidence (some ref) with
  | some workspaceId, none => do
      let workspace ← getWorkspace workspaceId
      match (workspace.filter (sameRuntime deps row ref)).bind fun workspace =>
          deps.refs.evidence workspace.providerRef with
      | none => return ref
      | some evidence => do
          let saved := deps.refs.set ref "terminationEvidence" evidence
          updateWarmPoolRuntime row.id { providerRef := some (some saved) }
          return saved
  | _, _ => return ref

def cleanupWarmProvider (deps : Deps) (row : WarmPoolRuntimeRow) : Task Unit := do
  let ref ← committedRef deps row
  ref.forM fun ref => do
    let ref ← withWorkspaceEvidence deps row ref
    stopWorkspaceProvider deps.refs ⟨row.id, some row.driverKind, some ref⟩

/-- Answers whether the runtime is cleaned up. -/
def destroy (deps : Deps) (row : WarmPoolRuntimeRow) (reason : String) : Task Bool := do
  updateWarmPoolRuntime row.id { state := some .draining, failureCode := some (some reason) }
  let cleaned ← attempt (cleanupWarmProvider deps row)
  match cleaned with
  | .error _ => return false
  | .ok _ => do
      updateWarmPoolRuntime row.id { state := some .failed, failureCode := some (some reason) }
      return true

/-! ### Leases -/

inductive LeaseOutcome where
  | leased
  | miss
  | deferred
  deriving DecidableEq

/-- The transition of a workspace whose launch failed. -/
def launchFailed (now : Nat) : TransitionInput where
  sources := [.provisioning]
  target := .terminating
  expectedConnectionEpoch := none
  reason := some (some .launchFailed)
  now := now
  patch := { terminalIntent := some (some .failed) }
  passes := true

/-- The transition that puts a workspace back into the queue. -/
def requeue (now : Nat) : TransitionInput where
  sources := [.provisioning]
  target := .queued
  expectedConnectionEpoch := none
  reason := none
  now := now
  patch :=
    { providerKind := some none, providerRef := some none, provisioningMode := some none
      registrationDigest := some none, registrationExpiresAt := some none }
  passes := true

/-- The connection of the leased runtime was lost. -/
def releaseLease (deps : Deps) (row : LifecycleRow) (runtime : WarmPoolRuntimeRow) :
    Task LeaseOutcome := do
  let destroyed ← destroy deps runtime "assignment_connection_lost"
  let now ← clock
  if destroyed then do
    transition row.id (requeue now)
    return .miss
  else do
    transition row.id (launchFailed now)
    return .deferred

/-- `connections.assign` answers from outside, as the choice of the runtime
does. -/
def tryLease (deps : Deps) (row : LifecycleRow) (registrationDigest : Bytes)
    (registrationExpiresAt : Nat) : Task LeaseOutcome :=
  match poolFor deps row with
  | none => return .miss
  | some pool => do
      let started ← clock
      let choice ← (outside : Task (Option String))
      let claim : WarmPoolClaim :=
        { workspace := row, driverKind := deps.driverKind
          eligibilityFingerprint := pool.eligibilityFingerprint
          registrationDigest, registrationExpiresAt, now := started }
      let result ← perform (.claimWarmPoolRuntime claim choice) (claimed claim choice)
      match result with
      | none => return .miss
      | some .stale => return .deferred
      | some (.leased runtime _) => do
          let assigned ← (outside : Task Bool)
          if assigned then return .leased else releaseLease deps row runtime

/-! ### Registration -/

/-- The loop of `markReady`: `createWarm` may not have saved its reference yet. -/
def awaitRef (id : String) : Nat → Option WarmPoolRuntimeRow → Task (Option WarmPoolRuntimeRow)
  | 0, row => return row
  | attempts + 1, row =>
      if row.any fun row => row.state = .provisioning && row.providerRef.isNone then do
        let row ← getWarmPoolRuntime id
        awaitRef id attempts row
      else return row

/-- The patch of `markReady`. -/
def readyPatch (now : Nat) : WarmPoolRuntimePatch where
  state := some .ready
  readyAt := some (some now)
  enrollmentDigest := some none
  enrollmentExpiresAt := some none

def markReady (id : String) : Task Bool := do
  let row ← getWarmPoolRuntime id
  let row ← awaitRef id 50 row
  if row.any fun row => row.state = .provisioning && row.providerRef.isSome then do
    let now ← clock
    updateWarmPoolRuntime id (readyPatch now)
    return true
  else return false

def disconnected (deps : Deps) (id : String) : Task Unit := do
  let row ← getWarmPoolRuntime id
  match row.filter fun row => [.provisioning, .ready, .leasing].contains row.state with
  | none => return
  | some row => discard (destroy deps row "pool_agent_disconnected")

/-! ### Replenishing -/

/-- The row of a new runtime. -/
def newRuntime (deps : Deps) (pool : ResolvedWarmPool) (id : String) (enrollmentDigest : Bytes)
    (now : Nat) : WarmPoolRuntimeRow where
  id := id
  templateName := pool.templateName
  templateVersion := pool.templateVersion
  templateDigest := pool.templateDigest
  driverKind := deps.driverKind
  eligibilityFingerprint := pool.eligibilityFingerprint
  state := .provisioning
  providerRef := none
  enrollmentDigest := some enrollmentDigest
  enrollmentExpiresAt := some (now + pool.startTimeoutMs)
  workspaceId := none
  createdAt := now
  readyAt := none
  leasedAt := none
  failureCode := none

def create (deps : Deps) (pool : ResolvedWarmPool) : Task Unit := do
  let now ← clock
  let id ← (outside : Task String)
  let enrollmentDigest ← (outside : Task Bytes)
  let row := newRuntime deps pool id enrollmentDigest now
  -- the row is there before the provider is asked for the runtime
  insertWarmPoolRuntime row
  let created ← attempt (do
    let ref ← (call : Task JsonValue)
    updateWarmPoolRuntime id { providerRef := some (some ref) })
  match created with
  | .ok _ => return
  | .error _ => do
      updateWarmPoolRuntime id
        { state := some .draining, failureCode := some (some "provider_create_failed") }
      discard (destroy deps row "provider_create_failed")

/-- The workspace of the runtime has ended. -/
def workspaceEnded (row : WarmPoolRuntimeRow) : Task (Option String) :=
  match row.workspaceId with
  | none => return none
  | some workspaceId => do
      let workspace ← getWorkspace workspaceId
      return if workspace.any (·.terminalAt.isSome) then some "workspace_ended" else none

def cleanupReason (row : WarmPoolRuntimeRow) (pool : Option ResolvedWarmPool) (now : Nat) :
    Task (Option String) :=
  match pool with
  | none => return some "pool_retired"
  | some pool =>
      if [.provisioning, .ready].contains row.state && row.createdAt + pool.maxWarmAgeMs ≤ now then
        return some "max_warm_age"
      else if row.state = .provisioning && row.enrollmentExpiresAt.any (· ≤ now) then
        return some "enrollment_timeout"
      else workspaceEnded row

/-- What `driver.inspect` answers. -/
structure ProviderState where
  present : Bool
  running : Bool

/-- A runtime whose provider is lost is destroyed. -/
def inspectRow (deps : Deps) (row : WarmPoolRuntimeRow) : Task Unit :=
  if row.providerRef.isNone || [.failed, .draining].contains row.state then return
  else do
    let state ← (call : Task ProviderState)
    if !state.present || !state.running then discard (destroy deps row "provider_lost") else return

def reconcileRow (deps : Deps) (row : WarmPoolRuntimeRow) (pool : Option ResolvedWarmPool)
    (now : Nat) : Task Unit :=
  if row.state = .draining then
    discard (destroy deps row (row.failureCode.getD "provider_cleanup"))
  else do
    let reason ← cleanupReason row pool now
    match reason with
    | some reason => if row.state = .failed then return else discard (destroy deps row reason)
    | none => inspectRow deps row

/-- The rows that `reconcile` has read, and the providers that it leaves alone. -/
structure Listing where
  rows : List WarmPoolRuntimeRow
  quarantined : List String

/-- One provider that the driver lists. -/
def adopt (deps : Deps) (listing : Listing) (provider : WarmProvider) : Task Listing :=
  match listing.rows.find? fun row => row.id = provider.runtimeId &&
      row.templateDigest = provider.templateDigest && row.driverKind = deps.driverKind with
  | none => return { listing with quarantined := provider.runtimeId :: listing.quarantined }
  | some row =>
      if row.providerRef.isNone && [.provisioning, .draining].contains row.state then do
        updateWarmPoolRuntime row.id { providerRef := some (some provider.ref) }
        return { listing with
          rows := listing.rows.map fun other =>
            if other.id = row.id then { other with providerRef := some provider.ref } else other }
      else return listing

/-- The pool of a digest; of two with one digest, the later one. -/
def configured (deps : Deps) (digest : String) : Option ResolvedWarmPool :=
  deps.pools.reverse.find? (·.templateDigest = digest)

/-- The runtimes that count for a pool. -/
def available (pool : ResolvedWarmPool) (rows : List WarmPoolRuntimeRow) : Nat :=
  (rows.filter fun row => row.templateDigest = pool.templateDigest &&
    [WarmPoolRuntimeState.provisioning, .ready, .draining].contains row.state).length

def reconcile (deps : Deps) : Task Unit := do
  let now ← clock
  let rows ← listWarmPoolRuntimes
  let providers ← (call : Task (List WarmProvider))
  let listing ← providers.foldlM (adopt deps) ⟨rows, []⟩
  listing.rows.forM fun row =>
    if listing.quarantined.contains row.id then return
    else reconcileRow deps row (configured deps row.templateDigest) now
  let fresh ← listWarmPoolRuntimes
  deps.pools.forM fun pool =>
    (List.range (pool.minReady - available pool fresh)).forM fun _ => create deps pool

/-! ### The system -/

/-- The calls of the manager, their results dropped. -/
inductive Starts (deps : Deps) : Task Unit → Prop
  | create (pool : ResolvedWarmPool) : Starts deps (create deps pool)
  | markReady (id : String) : Starts deps (discard (markReady id))
  | disconnected (id : String) : Starts deps (disconnected deps id)
  | reconcile : Starts deps (reconcile deps)
  | tryLease (row : LifecycleRow) (registrationDigest : Bytes) (registrationExpiresAt : Nat) :
      Starts deps (discard (tryLease deps row registrationDigest registrationExpiresAt))

/-- The other transactions: those that are not about warm runtimes. -/
def Foreign : Operation → Prop
  | .insertWarmPoolRuntime _ | .updateWarmPoolRuntime .. | .claimWarmPoolRuntime .. => False
  | _ => True

/-- Runs of the manager in any interleaving with each other and with the other
transactions. -/
abbrev System := Interleaving Store Operation

def Steps (deps : Deps) : System → Option Operation → System → Prop :=
  Interleaving.Step transact (Starts deps) Foreign fun _ _ => True

end PocketCoder.WarmPools
