import PocketCoder.Foundation.Sha256
import PocketCoder.Foundation.Formats
import PocketCoder.Foundation.Json

/-!
Executions: their references, acceptances and durable records, and the facts
a finite process reports (`contracts/src/workspaces/workload-operation.ts`,
`execution-dispatch.ts`, `finite-process.ts`, `execution-envelope.ts`).

Instants are milliseconds since the epoch, as in a `Date`; the times inside
JSON documents are ISO texts. A schema is a Boolean predicate on typed
values, and typed values are compared by `=` where the source compares their
canonical texts. An outcome is arbitrary JSON, compared as such.
-/

namespace PocketCoder.Executions

open PocketCoder.Foundation

/-! ### Texts and instants -/

/-- The number of UTF-16 code units, `text.length`. -/
def utf16Length (s : String) : Nat := (s.toList.flatMap Json.utf16).length

/-- `z.string().min(1).max(limit)`. -/
def isText (limit : Nat) (s : String) : Bool := 1 ≤ utf16Length s && utf16Length s ≤ limit

/-- `WorkloadNameSchema`, `/^[a-z][a-z0-9-]{0,62}$/`. -/
def isWorkloadName (s : String) : Bool :=
  s.toList.head?.any Char.isLower && s.toList.length ≤ 63 &&
    s.toList.all fun c => isLowerAlnum c || c = '-'

/-- `/^[\w.+-]+\/[\w.+-]+$/`, of at most 255 characters. -/
def isMediaType (s : String) : Bool :=
  let part (cs : List Char) : Bool :=
    cs ≠ [] && cs.all fun c => c.isAlphanum || c = '_' || c = '.' || c = '+' || c = '-'
  s.toList.length ≤ 255 && part (s.toList.takeWhile (· ≠ '/')) &&
    part (s.toList.dropWhile (· ≠ '/')).tail

/-- `digestOf(value)`. -/
def digestOf (v : Json) : String := "sha256:" ++ hex (sha256 (utf8 (canonicalJson v)))

theorem isDigest_digestOf (v : Json) : isDigest (digestOf v) = true :=
  isDigest_hex (length_sha256 _)

-- A digest is known by its format; its text is never computed.
attribute [irreducible] digestOf

/-- A number with at least `width` digits. -/
def padded (width n : Nat) : String :=
  String.ofList (List.leftpad width '0' (Nat.toDigits 10 n))

/-- Year, month and day of a number of days since 1970-01-01. -/
def civilDate (days : Nat) : Nat × Nat × Nat :=
  let day := days + 719468
  let ofEra := day % 146097
  let yearOfEra := (ofEra - ofEra / 1460 + ofEra / 36524 - ofEra / 146096) / 365
  let ofYear := ofEra - (365 * yearOfEra + yearOfEra / 4 - yearOfEra / 100)
  let month := (5 * ofYear + 2) / 153
  let year := yearOfEra + day / 146097 * 400
  (if month < 10 then year else year + 1, if month < 10 then month + 3 else month - 9,
    ofYear - (153 * month + 2) / 5 + 1)

/-- `new Date(ms).toISOString()`. -/
def toISOString (ms : Nat) : String :=
  let (year, month, day) := civilDate (ms / 86400000)
  (if year ≤ 9999 then padded 4 year else "+" ++ padded 6 year) ++ "-" ++ padded 2 month ++ "-" ++
    padded 2 day ++ "T" ++ padded 2 (ms / 3600000 % 24) ++ ":" ++ padded 2 (ms / 60000 % 60) ++
    ":" ++ padded 2 (ms / 1000 % 60) ++ "." ++ padded 3 (ms % 1000) ++ "Z"

example : toISOString 951782400123 = "2000-02-29T00:00:00.123Z" := by decide +kernel

-- Times of a record are only compared; their text is never computed.
attribute [irreducible] toISOString

/-! ### Acceptances -/

inductive ExecutionOwner where
  | process
  | conversationRequest
  deriving DecidableEq

def ExecutionOwner.text : ExecutionOwner → String
  | .process => "process"
  | .conversationRequest => "conversation-request"

structure WorkloadExecutionReference where
  workspaceId : String
  incarnationId : String
  owner : ExecutionOwner
  requestId : String
  deriving DecidableEq

namespace WorkloadExecutionReference

def toJson (execution : WorkloadExecutionReference) : Json :=
  .obj [("workspaceId", .str execution.workspaceId),
    ("incarnationId", .str execution.incarnationId), ("owner", .str execution.owner.text),
    ("requestId", .str execution.requestId)]

def conforms (execution : WorkloadExecutionReference) : Bool :=
  isUuid execution.workspaceId && isText 256 execution.incarnationId &&
    isUuid execution.requestId

end WorkloadExecutionReference

inductive InputVisibility where
  | ready
  | unavailable
  | expired
  deriving DecidableEq

def InputVisibility.text : InputVisibility → String
  | .ready => "ready"
  | .unavailable => "unavailable"
  | .expired => "expired"

structure InputObjectReference where
  workspaceId : String
  fileId : String
  objectVersion : String
  name : String
  mediaType : String
  sizeBytes : Nat
  digest : String
  visibility : InputVisibility
  deriving DecidableEq

namespace InputObjectReference

def toJson (object : InputObjectReference) : Json :=
  .obj [("workspaceId", .str object.workspaceId), ("fileId", .str object.fileId),
    ("objectVersion", .str object.objectVersion), ("name", .str object.name),
    ("mediaType", .str object.mediaType), ("sizeBytes", .num object.sizeBytes),
    ("digest", .str object.digest), ("visibility", .str object.visibility.text)]

def conforms (object : InputObjectReference) : Bool :=
  isUuid object.workspaceId && isUuid object.fileId && isDigest object.objectVersion &&
    isText 255 object.name && isMediaType object.mediaType && isCount object.sizeBytes &&
    isDigest object.digest

end InputObjectReference

structure AcceptedInputManifest where
  workspaceId : String
  incarnationId : String
  digest : String
  objects : List InputObjectReference
  deriving DecidableEq

namespace AcceptedInputManifest

/-- The manifest without its digest. -/
def contents (manifest : AcceptedInputManifest) : List (String × Json) :=
  [("workspaceId", .str manifest.workspaceId), ("incarnationId", .str manifest.incarnationId),
    ("objects", .arr (manifest.objects.map InputObjectReference.toJson))]

def toJson (manifest : AcceptedInputManifest) : Json :=
  .obj (manifest.contents ++ [("digest", .str manifest.digest)])

def conforms (manifest : AcceptedInputManifest) : Bool :=
  isUuid manifest.workspaceId && isText 256 manifest.incarnationId &&
    manifest.objects.all InputObjectReference.conforms &&
    decide (manifest.digest = digestOf (.obj manifest.contents)) &&
    manifest.objects.all (fun object =>
      object.workspaceId = manifest.workspaceId && object.visibility = .ready) &&
    decide (manifest.objects.map InputObjectReference.fileId).Nodup

/-- The manifest with the digest of its contents. -/
def sealed (manifest : AcceptedInputManifest) : AcceptedInputManifest :=
  { manifest with digest := digestOf (.obj manifest.contents) }

end AcceptedInputManifest

structure WorkloadAcceptance where
  execution : WorkloadExecutionReference
  callerPrincipalId : String
  templateDigest : String
  adapterDigest : String
  operation : String
  /-- The entries of the input object. -/
  input : List (String × Json)
  inputs : AcceptedInputManifest
  bindingSetDigest : String
  fingerprint : String

namespace WorkloadAcceptance

/-- The acceptance without its fingerprint. -/
def facts (acceptance : WorkloadAcceptance) : List (String × Json) :=
  [("execution", acceptance.execution.toJson),
    ("callerPrincipalId", .str acceptance.callerPrincipalId),
    ("templateDigest", .str acceptance.templateDigest),
    ("adapterDigest", .str acceptance.adapterDigest), ("operation", .str acceptance.operation),
    ("input", .obj acceptance.input), ("inputs", acceptance.inputs.toJson),
    ("bindingSetDigest", .str acceptance.bindingSetDigest)]

def toJson (acceptance : WorkloadAcceptance) : Json :=
  .obj (acceptance.facts ++ [("fingerprint", .str acceptance.fingerprint)])

/-- `WorkloadAcceptanceSchema`. -/
def conforms (acceptance : WorkloadAcceptance) : Bool :=
  acceptance.execution.conforms && isUuid acceptance.callerPrincipalId &&
    isDigest acceptance.templateDigest && isDigest acceptance.adapterDigest &&
    isWorkloadName acceptance.operation && acceptance.inputs.conforms &&
    isDigest acceptance.bindingSetDigest &&
    decide (acceptance.fingerprint = digestOf (.obj acceptance.facts)) &&
    decide (acceptance.inputs.workspaceId = acceptance.execution.workspaceId) &&
    decide (acceptance.inputs.incarnationId = acceptance.execution.incarnationId)

/-- The acceptance with the fingerprint of its facts. -/
def sealed (acceptance : WorkloadAcceptance) : WorkloadAcceptance :=
  { acceptance with fingerprint := digestOf (.obj acceptance.facts) }

end WorkloadAcceptance

/-- The identifier of an input manifest. It is a digest of these two values,
and stands for them: two manifests have the same identifier only if they
belong to the same execution of the same caller. -/
structure InputManifestId where
  callerPrincipalId : String
  execution : WorkloadExecutionReference
  deriving DecidableEq

def executionInputManifestId (input : WorkloadAcceptance) : InputManifestId :=
  ⟨input.callerPrincipalId, input.execution⟩

/-- The text of an identifier, in the form of a UUID. -/
def InputManifestId.text (id : InputManifestId) : String :=
  let hash := (digestOf (.obj [("domain", .str "execution-input-manifest/v1"),
    ("callerPrincipalId", .str id.callerPrincipalId),
    ("execution", id.execution.toJson)])).toList.drop 7
  let slice (start stop : Nat) : String := String.ofList ((hash.take stop).drop start)
  slice 0 8 ++ "-" ++ slice 8 12 ++ "-8" ++ slice 13 16 ++ "-8" ++ slice 17 20 ++ "-" ++
    slice 20 32

inductive CancelScope where
  | operation
  | workspace
  deriving DecidableEq

structure WorkloadCancel where
  execution : WorkloadExecutionReference
  cancelId : String
  scope : CancelScope

def WorkloadCancel.conforms (cancel : WorkloadCancel) : Bool :=
  cancel.execution.conforms && isUuid cancel.cancelId

inductive IdentityAuthority where
  | external
  | generic
  deriving DecidableEq

/-- `ConversationRequestIdentity`; its schema name is fixed. -/
structure ConversationRequestIdentity where
  authority : IdentityAuthority
  conversation_id : String
  request_id : String
  turn_id : String
  request_fingerprint : String
  deriving DecidableEq

namespace ConversationRequestIdentity

def toJson (identity : ConversationRequestIdentity) : Json :=
  .obj [("schema", .str "pocketcoder.conversation/v2"),
    ("authority", .str (match identity.authority with
      | .external => "external"
      | .generic => "generic")),
    ("conversation_id", .str identity.conversation_id), ("request_id", .str identity.request_id),
    ("turn_id", .str identity.turn_id),
    ("request_fingerprint", .str identity.request_fingerprint)]

def conforms (identity : ConversationRequestIdentity) : Bool :=
  isUuid identity.conversation_id && isUuid identity.request_id && isUuid identity.turn_id &&
    identity.request_fingerprint.toList.length = 64 &&
    identity.request_fingerprint.toList.all isHexDigit

end ConversationRequestIdentity

/-! ### Envelopes -/

def executionAcceptEnvelope (acceptance : WorkloadAcceptance)
    (conversationIdentity : Option ConversationRequestIdentity) : Json :=
  .obj ([("acceptance", acceptance.toJson),
    ("conversationIdentity", (conversationIdentity.map (·.toJson)).getD .null)] ++
    if acceptance.inputs.objects = [] then []
    else [("inputDirectory",
      .str ("/run/pocketcoder/inputs/" ++ (executionInputManifestId acceptance).text))])

def executionLookupEnvelope (execution : WorkloadExecutionReference) : Json :=
  .obj [("execution", execution.toJson)]

def executionAckEnvelope (acceptance : WorkloadAcceptance) : Json :=
  .obj [("execution", acceptance.execution.toJson), ("fingerprint", .str acceptance.fingerprint)]

def executionCancelEnvelope (acceptance : WorkloadAcceptance) (cancelId : String) : Json :=
  .obj [("execution", acceptance.execution.toJson), ("cancelId", .str cancelId),
    ("fingerprint", .str acceptance.fingerprint), ("scope", .str "operation")]

/-! ### Records -/

inductive ExecutionPhase where
  | accepted
  | dispatching
  | running
  | terminal
  | canceled
  | unknown
  | lost
  deriving DecidableEq

/-- The phases a record does not leave. -/
def ExecutionPhase.settled : ExecutionPhase → Bool
  | .terminal | .canceled | .unknown | .lost => true
  | .accepted | .dispatching | .running => false

structure CancelIntent where
  cancelId : String
  requestedAt : String
  deriving DecidableEq

/-- The durable record of an execution. -/
structure ExecutionRecord where
  acceptance : WorkloadAcceptance
  conversationIdentity : Option ConversationRequestIdentity
  outcome : JsonValue
  acceptedAt : String
  dispatchClaimedAt : Option String
  phase : ExecutionPhase
  cancel : Option CancelIntent
  settledAt : Option String
  acknowledgedAt : Option String
  finalizedAt : Option String

def executionSettled (record : ExecutionRecord) : Bool := record.phase.settled

def needsAcknowledgment (record : ExecutionRecord) : Bool :=
  record.dispatchClaimedAt.isSome && (record.phase = .terminal || record.phase = .canceled) &&
    record.acknowledgedAt.isNone

/-- `ExecutionRecordSchema`. -/
def ExecutionRecord.conforms (record : ExecutionRecord) : Bool :=
  record.acceptance.conforms && record.conversationIdentity.all (·.conforms) &&
    isDatetime record.acceptedAt && record.dispatchClaimedAt.all isDatetime &&
    record.cancel.all (fun cancel => isUuid cancel.cancelId && isDatetime cancel.requestedAt) &&
    record.settledAt.all isDatetime && record.acknowledgedAt.all isDatetime &&
    record.finalizedAt.all isDatetime

/-! ### Facts of a finite process -/

inductive ProcessPhase where
  | claimed
  | running
  | exited
  | lost
  deriving DecidableEq

def ProcessPhase.text : ProcessPhase → String
  | .claimed => "claimed"
  | .running => "running"
  | .exited => "exited"
  | .lost => "lost"

structure FiniteProcessFact where
  execution : WorkloadExecutionReference
  fingerprint : String
  phase : ProcessPhase
  processGroupId : Option Nat
  claimedAt : String
  startedAt : Option String
  endedAt : Option String
  exitCode : Option Int
  signal : Option String
  deriving DecidableEq

namespace FiniteProcessFact

def toJson (fact : FiniteProcessFact) : Json :=
  .obj [("execution", fact.execution.toJson), ("fingerprint", .str fact.fingerprint),
    ("phase", .str fact.phase.text),
    ("processGroupId", (fact.processGroupId.map fun n => .num n).getD .null),
    ("claimedAt", .str fact.claimedAt), ("startedAt", (fact.startedAt.map .str).getD .null),
    ("endedAt", (fact.endedAt.map .str).getD .null),
    ("exitCode", (fact.exitCode.map .num).getD .null),
    ("signal", (fact.signal.map .str).getD .null)]

/-- The process has ended, with an observed exit or without one. -/
def ended (fact : FiniteProcessFact) : Bool := fact.phase = .exited || fact.phase = .lost

/-- `FiniteProcessFactSchema`. -/
def conforms (fact : FiniteProcessFact) : Bool :=
  fact.execution.conforms && fact.execution.owner = .process && isDigest fact.fingerprint &&
    fact.processGroupId.all (fun n => 0 < n && n ≤ MAX_SAFE_INTEGER) &&
    isDatetime fact.claimedAt && fact.startedAt.all isDatetime && fact.endedAt.all isDatetime &&
    fact.exitCode.all (fun n => n.natAbs ≤ MAX_SAFE_INTEGER) && fact.signal.all (· ≠ "") &&
    fact.ended = fact.endedAt.isSome &&
    !(fact.phase = .exited && fact.exitCode.isNone = fact.signal.isNone) &&
    !(fact.phase ≠ .exited && (fact.exitCode.isSome || fact.signal.isSome)) &&
    !(fact.phase = .running && (fact.processGroupId.isNone || fact.startedAt.isNone))

end FiniteProcessFact

end PocketCoder.Executions
