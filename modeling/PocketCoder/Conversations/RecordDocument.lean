import PocketCoder.Executions.Records
import PocketCoder.Foundation.Table

/-!
The JSON record of a conversation (`db/src/modules/conversations/record-document.ts`):
what is kept of a turn, of a message without identity, or of a group of rows of
an earlier release.

A moment that is only written into the record is kept as its ISO text.
-/

namespace PocketCoder.Conversations

open PocketCoder.Foundation PocketCoder.Executions

/-! ### Messages -/

inductive ConversationRole where
  | user
  | assistant
  | system
  | tool
  deriving DecidableEq

inductive TurnOutcome where
  | completed
  | failed
  | interrupted
  | canceled
  | lost
  deriving DecidableEq

inductive ActivityKind where
  | tool
  | attachment
  | workspace
  | retrieval
  deriving DecidableEq

inductive ActivityOutcome where
  | completed
  | failed
  | interrupted
  | canceled
  deriving DecidableEq

inductive ConversationFact where
  | intermediate
  | finalResponse
  | toolOnly
  | activityStarted (activity_id : String) (kind : ActivityKind) (label : String)
      (started_at action subject : Option String)
  | activityFinished (activity_id : String) (ended_at : Option String) (outcome : ActivityOutcome)
  | turnTerminal (outcome : TurnOutcome) (reason : Option String)
  deriving DecidableEq

structure ConversationMessageIdentity extends ConversationRequestIdentity where
  event_id : String
  message_id : String
  sequence : Nat
  revision : Nat
  fact : Option ConversationFact
  deriving DecidableEq

/-- A message as a producer sends it. -/
structure MessageInput where
  messageId : String
  role : ConversationRole
  content : String
  occurredAt : String
  metadata : List (String × String)
  identity : Option ConversationMessageIdentity
  deriving DecidableEq

/-- A message with its position. -/
structure MessageResource extends MessageInput where
  seq : Nat
  deriving DecidableEq

inductive ConversationRecordStatus where
  | turn (outcome : TurnOutcome)
  | message
  | legacy
  deriving DecidableEq

structure ConversationActivity where
  activity_id : String
  kind : ActivityKind
  label : String
  action : Option String
  subject : Option String
  started_at : Option String
  ended_at : Option String
  outcome : Option ActivityOutcome
  deriving DecidableEq

structure RecordDocument where
  turn_id : Option String
  request : Option ConversationRequestIdentity
  status : ConversationRecordStatus
  reason : Option String
  messages : List MessageResource
  activities : List ConversationActivity
  final_response : Option String
  started_at : Option String
  ended_at : Option String
  deriving DecidableEq

structure RecordInput where
  request : Option ConversationRequestIdentity
  status : ConversationRecordStatus
  reason : Option String
  messages : List MessageInput
  startedAt : Option String
  endedAt : Option String

/-! ### The document -/

def MessageInput.fact (message : MessageInput) : Option ConversationFact :=
  message.identity.bind (·.fact)

/-- What a fact says about an activity. -/
def recordActivity (byId : JsMap String ConversationActivity) (message : MessageInput) :
    JsMap String ConversationActivity :=
  match message.fact with
  | some (.activityStarted activity_id kind label started_at action subject) =>
      byId.set activity_id
        { activity_id, kind, label, action, subject, started_at
          ended_at := (byId.get activity_id).bind (·.ended_at)
          outcome := (byId.get activity_id).bind (·.outcome) }
  | some (.activityFinished activity_id ended_at outcome) =>
      match byId.get activity_id with
      | some started => byId.set activity_id { started with ended_at, outcome := some outcome }
      | none => byId
  | _ => byId

def activities (messages : List MessageInput) : List ConversationActivity :=
  (messages.foldl recordActivity .empty).entries.rows.map Prod.snd

def finalResponse (messages : List MessageInput) : Option String :=
  (messages.reverse.find? fun message => message.fact = some .finalResponse).map (·.content)

def buildRecordDocument (input : RecordInput) (firstSeq : Nat) : RecordDocument where
  turn_id := input.request.map (·.turn_id)
  request := input.request
  status := input.status
  reason := input.reason
  messages := input.messages.mapIdx fun index message =>
    { toMessageInput := message, seq := firstSeq + index }
  activities := activities input.messages
  final_response := finalResponse input.messages
  started_at := input.startedAt
  ended_at := input.endedAt

/-! ### Its text -/

def nullable (value : Option String) : Json := (value.map .str).getD .null

def optional (name : String) (value : Option String) : List (String × Json) :=
  value.toList.map fun text => (name, .str text)

def ConversationRole.text : ConversationRole → String
  | .user => "user"
  | .assistant => "assistant"
  | .system => "system"
  | .tool => "tool"

def TurnOutcome.text : TurnOutcome → String
  | .completed => "completed"
  | .failed => "failed"
  | .interrupted => "interrupted"
  | .canceled => "canceled"
  | .lost => "lost"

def ActivityKind.text : ActivityKind → String
  | .tool => "tool"
  | .attachment => "attachment"
  | .workspace => "workspace"
  | .retrieval => "retrieval"

def ActivityOutcome.text : ActivityOutcome → String
  | .completed => "completed"
  | .failed => "failed"
  | .interrupted => "interrupted"
  | .canceled => "canceled"

def ConversationRecordStatus.text : ConversationRecordStatus → String
  | .turn outcome => outcome.text
  | .message => "message"
  | .legacy => "legacy"

def ConversationFact.toJson : ConversationFact → Json
  | .intermediate => .obj [("type", .str "intermediate")]
  | .finalResponse => .obj [("type", .str "final_response")]
  | .toolOnly => .obj [("type", .str "tool_only")]
  | .activityStarted activity_id kind label started_at action subject =>
      .obj ([("type", .str "activity_started"), ("activity_id", .str activity_id),
        ("kind", .str kind.text), ("label", .str label), ("started_at", nullable started_at)] ++
        optional "action" action ++ optional "subject" subject)
  | .activityFinished activity_id ended_at outcome =>
      .obj [("type", .str "activity_finished"), ("activity_id", .str activity_id),
        ("ended_at", nullable ended_at), ("outcome", .str outcome.text)]
  | .turnTerminal outcome reason =>
      .obj ([("type", .str "turn_terminal"), ("outcome", .str outcome.text)] ++
        optional "reason" reason)

def ConversationMessageIdentity.json (identity : ConversationMessageIdentity) : Json :=
  .obj ([("schema", .str "pocketcoder.conversation/v2"),
    ("authority", .str (match identity.authority with
      | .external => "external"
      | .generic => "generic")),
    ("conversation_id", .str identity.conversation_id), ("request_id", .str identity.request_id),
    ("turn_id", .str identity.turn_id),
    ("request_fingerprint", .str identity.request_fingerprint),
    ("event_id", .str identity.event_id), ("message_id", .str identity.message_id),
    ("sequence", .num identity.sequence), ("revision", .num identity.revision)] ++
    identity.fact.toList.map fun fact => ("fact", fact.toJson))

def MessageResource.toJson (message : MessageResource) : Json :=
  .obj [("seq", .num message.seq), ("message_id", .str message.messageId),
    ("role", .str message.role.text), ("content", .str message.content),
    ("occurred_at", .str message.occurredAt),
    ("metadata", .obj (message.metadata.map fun entry => (entry.1, .str entry.2))),
    ("identity", (message.identity.map (·.json)).getD .null)]

def ConversationActivity.toJson (activity : ConversationActivity) : Json :=
  .obj [("activity_id", .str activity.activity_id), ("kind", .str activity.kind.text),
    ("label", .str activity.label), ("action", nullable activity.action),
    ("subject", nullable activity.subject), ("started_at", nullable activity.started_at),
    ("ended_at", nullable activity.ended_at), ("outcome", nullable (activity.outcome.map (·.text)))]

def RecordDocument.toJson (document : RecordDocument) : Json :=
  .obj [("schema", .str "pocketcoder.conversation-record/v1"),
    ("turn_id", nullable document.turn_id),
    ("request", (document.request.map (·.toJson)).getD .null),
    ("status", .str document.status.text), ("reason", nullable document.reason),
    ("messages", .arr (document.messages.map (·.toJson))),
    ("activities", .arr (document.activities.map (·.toJson))),
    ("final_response", nullable document.final_response),
    ("started_at", nullable document.started_at), ("ended_at", nullable document.ended_at)]

/-- `Buffer.byteLength(JSON.stringify(document))`. -/
def RecordDocument.byteLength (document : RecordDocument) : Nat :=
  (utf8 document.toJson.stringify).length

theorem RecordDocument.byteLength_pos (document : RecordDocument) : 0 < document.byteLength := by
  rw [byteLength, Json.stringify, utf8_ofList, toJson, Json.chars, List.flatMap_cons,
    List.length_append]
  exact Nat.add_pos_left (by decide) _

/-! ### Positions -/

@[simp] theorem length_buildRecordDocument (input : RecordInput) (firstSeq : Nat) :
    (buildRecordDocument input firstSeq).messages.length = input.messages.length :=
  List.length_mapIdx

/-- The messages of a record have consecutive positions. -/
theorem seq_buildRecordDocument (input : RecordInput) (firstSeq : Nat) :
    (buildRecordDocument input firstSeq).messages.map (·.seq) =
      List.range' firstSeq input.messages.length := by
  refine List.ext_getElem (by simp) fun i hi hi' => ?_
  simp [buildRecordDocument]

end PocketCoder.Conversations
