import PocketCoder.Executions.Store

/-!
The checks an execution passes when it is accepted and each time it is
claimed (`db/src/modules/workspaces/execution-validation.ts`,
`execution-authority.ts`, `execution-inputs.ts`,
`conversations/execution-acceptance.ts`): a live and ready incarnation, the
installed producer and its adapter, the routes of the execution protocol, the
capabilities, the input and its objects.
-/

namespace PocketCoder.Executions

open PocketCoder.Foundation PocketCoder.Workspaces
open PocketCoder.Foundation.Transaction (check require)

/-! ### The installed producer -/

def installedEvidence (row : WorkspaceRow) (input : WorkloadAcceptance) :
    Except Failure (WorkloadTemplateSnapshot × InstalledWorkload) :=
  match row.runtimeRegistration with
  | none => .error (executionConflict "Runtime is not registered.")
  | some runtime =>
      match runtime.template, runtime.producer with
      | some template, some installed =>
          if template.digest = input.templateDigest ∧ row.templateDigest = input.templateDigest ∧
              installed.templateDigest = input.templateDigest ∧ installed.workspaceId = row.id ∧
              installed.incarnationId = runtime.incarnationId ∧
              installed.image = template.spec.image ∧ installed.runtime = template.spec.runtime then
            .ok (template, installed)
          else .error (executionConflict "Installed producer and template evidence is required.")
      | _, _ => .error (executionConflict "Installed producer and template evidence is required.")

/-- The capabilities of the adapter that runs an operation. -/
def adapterCapabilities (spec : WorkloadSpec) (installed : InstalledWorkload)
    (operation : String) : List WorkloadCapability :=
  match spec.operations.lookup operation with
  | none => []
  | some operation =>
      match installed.adapters.lookup operation.adapter with
      | none => []
      | some adapter => adapter.capabilities

def operationAdapterCapabilities (row : WorkspaceRow) (input : WorkloadAcceptance) :
    Except Failure (List WorkloadCapability) := do
  let (template, installed) ← installedEvidence row input
  return adapterCapabilities template.spec installed input.operation

/-! ### Checks of an acceptance -/

/-- `validateServiceRoutes`. The accepted request identifier has the size of
every cancel identifier. -/
def validateServiceRoutes (services : List (String × List ServiceRoute)) (name : Option String)
    (input : WorkloadAcceptance) (identity : Option ConversationRequestIdentity) :
    Except Failure Unit :=
  let routes := (services.lookup (name.getD "")).getD []
  let envelopes : List (String × Json) :=
    [("accept", executionAcceptEnvelope input identity),
      ("lookup", executionLookupEnvelope input.execution),
      ("ack", executionAckEnvelope input),
      ("cancel", executionCancelEnvelope input input.execution.requestId)]
  envelopes.forM fun envelope => do
    let path := "/executions/" ++ envelope.1
    match routes.find? fun route =>
        route.method = .POST && route.path = path && route.responseMode = .buffered with
    | none =>
        throw (executionConflict ("Execution service requires a buffered POST " ++ path ++
          " route."))
    | some route =>
        require ((utf8 envelope.2.stringify).length ≤ route.maxRequestBytes)
          (.api "relay.body_too_large" "Execution envelope exceeds the route limit.")

def validateOwner (input : WorkloadAcceptance) (kind : AdapterKind) (protocol : String)
    (profile : WorkloadProfile) : Except Failure Unit := do
  let owner := if kind = .process then ExecutionOwner.process else .conversationRequest
  require (input.execution.owner = owner && !(owner = .process && profile ≠ .finiteProcess))
    (executionConflict "Execution owner does not match the installed adapter.")
  require (!(owner = .conversationRequest && protocol ≠ "pocketcoder.execution/v1"))
    (executionConflict "Service adapter has no execution protocol.")

def validateInputLimits (input : WorkloadAcceptance) (limits : WorkloadLimits) :
    Except Failure Unit :=
  let objects := input.inputs.objects
  require (objects.length ≤ limits.inputFiles &&
      objects.all (fun object => object.sizeBytes ≤ limits.inputFileBytes) &&
      (objects.map InputObjectReference.sizeBytes).sum ≤ limits.stagedInputBytes)
    (executionConflict "Accepted inputs exceed template limits.")

/-- The registration is the live, ready incarnation of an execution. -/
def liveIncarnation (row : WorkspaceRow) (input : WorkloadAcceptance) (now : Nat) : Bool :=
  row.purgeRequestedAt.isNone && row.state = .ready && now < row.deadlineAt &&
    row.runtimeRegistration.any fun runtime =>
      runtime.readyAt.isSome && runtime.endedAt.isNone &&
        runtime.incarnationId = input.execution.incarnationId

def validateExecution (row : WorkspaceRow) (input : WorkloadAcceptance) (now : Nat)
    (identity : Option ConversationRequestIdentity) : Except Failure Unit := do
  require (row.principalId = input.callerPrincipalId)
    (executionConflict "Execution caller does not own the workspace.")
  require (liveIncarnation row input now)
    (executionConflict "Execution requires a live, ready incarnation within its deadline.")
  let (template, installed) ← installedEvidence row input
  let spec := template.spec
  let profile := (row.runtimeRegistration.map (·.profile)).getD .service
  match spec.operations.lookup input.operation with
  | none => throw (executionConflict "Installed operation adapter does not match acceptance.")
  | some operation =>
      match spec.adapters.lookup operation.adapter, installed.adapters.lookup operation.adapter with
      | some declared, some adapter =>
          require (input.adapterDigest = adapter.digest && declared.digest = adapter.digest &&
              declared.protocol = adapter.protocol && declared.kind = adapter.kind)
            (executionConflict "Installed operation adapter does not match acceptance.")
          validateOwner input adapter.kind adapter.protocol profile
          if input.execution.owner = .conversationRequest then
            validateServiceRoutes spec.services declared.service input identity
          (WORKLOAD_OPERATION_CAPABILITIES profile ++ operation.requiredCapabilities).forM
            fun capability =>
              require (adapter.capabilities.contains capability &&
                  installed.capabilities.contains capability)
                (executionConflict ("Unavailable operation capability: " ++ capability.text))
          require (matchesInput operation.inputSchema (.obj input.input))
            (executionConflict "Operation input does not match its schema.")
          require (spec.credentialSlots = [] && input.bindingSetDigest = digestOf (.arr []))
            (executionConflict "This boundary requires the explicit empty binding set.")
          require (input.inputs.objects = [] || installed.capabilities.contains .immutableInputs)
            (executionConflict "Installed immutable input support is required.")
          validateInputLimits input spec.limits
      | _, _ => throw (executionConflict "Installed operation adapter does not match acceptance.")

/-! ### Checks against the tables -/

def requireExecutionPrincipal (db : Database) (principalId : String) : Except Failure Unit :=
  require ((db.principals.get? principalId).any fun principal => principal.disabledAt.isNone)
    (executionConflict "Execution principal is disabled or missing.")

def inputIsPinned (db : Database) (workspaceId fileId : String) : Bool :=
  db.inputManifests.rows.any fun row =>
    row.finalizedAt.isNone && row.manifest.workspaceId = workspaceId &&
      row.manifest.objects.any fun object => object.fileId = fileId

def pinExecutionInputs (input : WorkloadAcceptance) (now : Nat) : Transaction Unit := do
  let db ← get
  check <| input.inputs.objects.forM fun reference => do
    let object := db.inputObjects.get? (input.execution.workspaceId, reference.fileId)
    require (object.any fun object =>
        object.principalId = input.callerPrincipalId && object.state = .ready &&
          object.reference = reference)
      (executionConflict "Exact input object is unavailable.")
    -- an object that has expired is good while another manifest pins it
    require (object.all (fun object => now < object.retainedUntil) ||
        inputIsPinned db reference.workspaceId reference.fileId)
      (executionConflict "Exact input object has expired.")
  match db.inputManifests.get? (executionInputManifestId input) with
  | some manifest =>
      check (require (manifest.finalizedAt.isNone && manifest.manifest = input.inputs)
        (executionConflict "Input manifest conflict."))
  | none =>
      set { db with
        inputManifests := db.inputManifests.insert
          { id := executionInputManifestId input, manifest := input.inputs, finalizedAt := none } }

def requireExecutionInputs (db : Database) (input : WorkloadAcceptance) : Except Failure Unit := do
  require ((db.inputManifests.get? (executionInputManifestId input)).any fun manifest =>
      manifest.finalizedAt.isNone && manifest.manifest = input.inputs)
    (executionConflict "Accepted input pin is no longer available.")
  input.inputs.objects.forM fun reference =>
    require ((db.inputObjects.get? (input.execution.workspaceId, reference.fileId)).any
        fun object => object.state = .ready && object.reference = reference)
      (executionConflict "Accepted input bytes are no longer available.")

/-- `validateConversationExecution`: one request at a time for each
workspace, or for each conversation when the adapter runs them in parallel. -/
def validateConversationExecution (db : Database) (input : WorkloadAcceptance)
    (identity : Option ConversationRequestIdentity) (parallelConversations : Bool) :
    Except Failure ConversationRequestIdentity :=
  match identity with
  | none => .error .zod
  | some parsed => do
      require parsed.conforms .zod
      require (parsed.request_id = input.execution.requestId)
        (executionConflict "Conversation request ID mismatch.")
      let active := db.conversationRequests.rows.filter fun row =>
        row.principalId = input.callerPrincipalId && row.execution.isSome &&
          (!parallelConversations || row.conversationId = parsed.conversation_id)
      require (!(active.any fun row => row.execution.any fun record =>
          record.acceptance.execution.workspaceId = input.execution.workspaceId &&
            record.finalizedAt.isNone))
        (executionConflict "Previous request has not finished finalization.")
      return parsed

def validateExecutionReplay (record : ExecutionRecord) (input : WorkloadAcceptance)
    (identity : Option ConversationRequestIdentity) : Except Failure Unit := do
  require (canonicalJson record.acceptance.toJson = canonicalJson input.toJson)
    (executionConflict "Execution fingerprint conflict.")
  match input.execution.owner with
  | .process =>
      require identity.isNone (executionConflict "A process has no conversation identity.")
  | .conversationRequest =>
      require (record.conversationIdentity = identity)
        (executionConflict "Conversation identity conflict.")

/-! ### What the checks establish -/

theorem installedEvidence_eq_ok {row : WorkspaceRow} {input : WorkloadAcceptance}
    {template : WorkloadTemplateSnapshot} {installed : InstalledWorkload}
    (h : installedEvidence row input = .ok (template, installed)) :
    ∃ runtime, row.runtimeRegistration = some runtime ∧ runtime.template = some template ∧
      runtime.producer = some installed := by
  unfold installedEvidence at h
  cases hruntime : row.runtimeRegistration with
  | none => simp [hruntime] at h
  | some runtime =>
      cases htemplate : runtime.template with
      | none => simp [hruntime, htemplate] at h
      | some template' =>
          cases hproducer : runtime.producer with
          | none => simp [hruntime, htemplate, hproducer] at h
          | some installed' =>
              simp only [hruntime, htemplate, hproducer] at h
              split_ifs at h
              rw [Except.ok.injEq, Prod.mk.injEq] at h
              exact ⟨runtime, rfl, h.1 ▸ htemplate, h.2 ▸ hproducer⟩

/-- An execution passes only on a registered runtime with a producer and a
template. -/
theorem validateExecution_registered {row : WorkspaceRow} {input : WorkloadAcceptance} {now : Nat}
    {identity : Option ConversationRequestIdentity}
    (h : validateExecution row input now identity = .ok ()) :
    ∃ runtime template installed, row.runtimeRegistration = some runtime ∧
      runtime.template = some template ∧ runtime.producer = some installed := by
  unfold validateExecution at h
  obtain ⟨-, -, h⟩ := Except.bind_eq_ok.mp h
  obtain ⟨-, -, h⟩ := Except.bind_eq_ok.mp h
  obtain ⟨⟨template, installed⟩, hevidence, -⟩ := Except.bind_eq_ok.mp h
  obtain ⟨runtime, hruntime⟩ := installedEvidence_eq_ok hevidence
  exact ⟨runtime, template, installed, hruntime⟩

/-- Envelopes that fit the routes of the service pass. -/
theorem validateServiceRoutes_eq_ok {services : List (String × List ServiceRoute)}
    {name : Option String} {input : WorkloadAcceptance}
    {identity : Option ConversationRequestIdentity} {routes : List ServiceRoute}
    (hroutes : services.lookup (name.getD "") = some routes)
    (hfits : ∀ envelope ∈ [("accept", executionAcceptEnvelope input identity),
        ("lookup", executionLookupEnvelope input.execution), ("ack", executionAckEnvelope input),
        ("cancel", executionCancelEnvelope input input.execution.requestId)],
      ∃ route, routes.find? (fun route => route.method = .POST &&
          route.path = "/executions/" ++ envelope.1 && route.responseMode = .buffered) =
            some route ∧ (utf8 envelope.2.stringify).length ≤ route.maxRequestBytes) :
    validateServiceRoutes services name input identity = .ok () := by
  rw [validateServiceRoutes, hroutes, Option.getD_some]
  apply Transaction.forM_eq_ok
  intro envelope henvelope
  obtain ⟨route, hfind, hsize⟩ := hfits envelope henvelope
  dsimp only
  rw [hfind]
  exact Transaction.require_eq_ok.mpr (decide_eq_true hsize)

end PocketCoder.Executions
