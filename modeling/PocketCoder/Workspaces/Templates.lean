import PocketCoder.Foundation.Formats
import PocketCoder.Foundation.Json

/-!
Workload templates and the producers installed from them
(`contracts/src/templates/workload-capabilities.ts`, `workload-template.ts`,
`workload-input-schema.ts`): the capabilities, and the parts of a manifest
that the acceptance and the dispatch of an execution read.
-/

namespace PocketCoder.Workspaces

open PocketCoder.Foundation

/-! ### Capabilities and profiles -/

/-- `WORKLOAD_CAPABILITIES`. -/
inductive WorkloadCapability where
  | readyWithoutTask
  | liveInputs
  | immutableInputs
  | serialOperations
  | retainedExports
  | explicitStart
  | exactExit
  | targetedCancel
  | stopBeforeExport
  | requestLookup
  | deduplicatedAccept
  | explicitPublication
  | workspaceServices
  | revocablePreviewGrants
  | workspaceCancel
  | unknownOutcome
  | parallelConversations
  deriving DecidableEq

/-- The capability as templates spell it. -/
def WorkloadCapability.text : WorkloadCapability → String
  | .readyWithoutTask => "ready-without-task"
  | .liveInputs => "live-inputs"
  | .immutableInputs => "immutable-inputs"
  | .serialOperations => "serial-operations"
  | .retainedExports => "retained-exports"
  | .explicitStart => "explicit-start"
  | .exactExit => "exact-exit"
  | .targetedCancel => "targeted-cancel"
  | .stopBeforeExport => "stop-before-export"
  | .requestLookup => "request-lookup"
  | .deduplicatedAccept => "deduplicated-accept"
  | .explicitPublication => "explicit-publication"
  | .workspaceServices => "workspace-services"
  | .revocablePreviewGrants => "revocable-preview-grants"
  | .workspaceCancel => "workspace-cancel"
  | .unknownOutcome => "unknown-outcome"
  | .parallelConversations => "parallel-conversations"

inductive WorkloadProfile where
  | finiteProcess
  | cloudInteractive
  | service
  deriving DecidableEq

open WorkloadCapability in
/-- What an adapter must offer to run requests of several conversations of
one workspace at the same time. -/
def PARALLEL_CONVERSATION_CAPABILITIES : List WorkloadCapability :=
  [parallelConversations, requestLookup, deduplicatedAccept, targetedCancel]

open WorkloadCapability in
def WORKLOAD_OPERATION_CAPABILITIES : WorkloadProfile → List WorkloadCapability
  | .service => [unknownOutcome]
  | .finiteProcess => [explicitStart, exactExit, targetedCancel, stopBeforeExport]
  | .cloudInteractive => [requestLookup, deduplicatedAccept, targetedCancel, explicitPublication]

/-! ### The input of an operation -/

mutual

/-- The subset of JSON Schema an operation describes its input in. -/
inductive WorkloadInputProperty where
  | null
  | integer
  | number
  | string
  | boolean
  | array (items : WorkloadInputProperty)
  | object (required : List String) (properties : WorkloadInputProperties)
  deriving DecidableEq

/-- The declared properties of an object, by name. -/
inductive WorkloadInputProperties where
  | nil
  | cons (name : String) (property : WorkloadInputProperty) (rest : WorkloadInputProperties)
  deriving DecidableEq

end

mutual

def matchesInput : WorkloadInputProperty → Json → Bool
  | .null, .null => true
  | .integer, .num n => n.natAbs ≤ MAX_SAFE_INTEGER
  | .number, .num _ => true
  | .string, .str _ => true
  | .boolean, .bool _ => true
  | .array items, .arr values => values.all (matchesInput items)
  | .object required properties, .obj fields =>
      required.all (fun key => fields.any fun field => field.1 = key) &&
        fields.all fun field => matchesProperty properties field.1 field.2
  | _, _ => false

/-- The value of one own property: it is declared, and its value matches. -/
def matchesProperty : WorkloadInputProperties → String → Json → Bool
  | .nil, _, _ => false
  | .cons name property rest, key, value =>
      if name = key then matchesInput property value else matchesProperty rest key value

end

/-! ### Manifests -/

inductive HttpMethod where
  | GET
  | POST
  | PUT
  | PATCH
  | DELETE
  deriving DecidableEq

inductive ResponseMode where
  | buffered
  | stream
  deriving DecidableEq

structure ServiceRoute where
  method : HttpMethod
  path : String
  responseMode : ResponseMode
  maxRequestBytes : Nat
  maxResponseBytes : Nat
  deriving DecidableEq

inductive AdapterKind where
  | process
  | service
  | pi
  | agentapi
  deriving DecidableEq

/-- An adapter as the template declares it. -/
structure WorkloadAdapter where
  kind : AdapterKind
  digest : String
  protocol : String
  service : Option String
  deriving DecidableEq

structure WorkloadOperation where
  adapter : String
  inputSchema : WorkloadInputProperty
  requiredCapabilities : List WorkloadCapability
  outputRoots : List String
  deriving DecidableEq

structure WorkloadLimits where
  inputFileBytes : Nat
  stagedInputBytes : Nat
  inputFiles : Nat
  deriving DecidableEq

/-- `manifest.spec`; a record is a list of its entries. -/
structure WorkloadSpec where
  image : String
  /-- The digest of the runtime pin, whose protocol is fixed. -/
  runtime : String
  adapters : List (String × WorkloadAdapter)
  operations : List (String × WorkloadOperation)
  /-- The routes of every service. -/
  services : List (String × List ServiceRoute)
  /-- The names of the credential slots. -/
  credentialSlots : List String
  limits : WorkloadLimits
  deriving DecidableEq

structure WorkloadTemplateSnapshot where
  digest : String
  spec : WorkloadSpec
  deriving DecidableEq

/-- An adapter as the producer reports it. -/
structure InstalledAdapter where
  kind : AdapterKind
  digest : String
  protocol : String
  capabilities : List WorkloadCapability
  deriving DecidableEq

structure InstalledWorkload where
  workspaceId : String
  incarnationId : String
  templateDigest : String
  image : String
  runtime : String
  capabilities : List WorkloadCapability
  adapters : List (String × InstalledAdapter)
  deriving DecidableEq

end PocketCoder.Workspaces
