import Mathlib.Data.List.Sort
import PocketCoder.Conversations.RecordDocument
import PocketCoder.Foundation.Transaction
import PocketCoder.Foundation.Transitions

/-!
Conversation documents (`db/src/modules/conversations`): one document for each
conversation, assembled from records that are written at the end of a turn,
with running totals on the row of the document and on the row of the workspace
that wrote them.

A transaction locks the document before it reads its records and the row of the
workspace before it reads its bytes, so it is one step. `convertLegacyConversations`
runs one transaction for each workspace, and each of them is a step.
-/

namespace PocketCoder.Conversations

open PocketCoder.Foundation PocketCoder.Foundation.Transaction PocketCoder.Executions

def MAX_CONVERSATION_BYTES : Nat := 50 * 1024 * 1024
def MAX_WORKSPACE_BYTES : Nat := 50 * 1024 * 1024
def MAX_CONVERSATION_MESSAGES : Nat := 100000

/-! ### Tables -/

inductive ConversationStatus where
  | retained
  | deleted
  | expired
  deriving DecidableEq

structure Workspace where
  id : String
  principalId : String
  purgeRequestedAt : Option Nat

/-- A document: a row of `conversations`. -/
structure Conversation where
  id : String
  principalId : String
  conversationId : Option String
  workspaceId : String
  legacy : Bool
  status : ConversationStatus
  recordCount : Nat
  messageCount : Nat
  bytes : Nat
  lastSeq : Nat
  expiresAt : Option Nat
  retentionSet : Bool
  deletedAt : Option Nat

/-- A row of `conversation_records`. -/
structure ConversationRecord where
  conversationRef : String
  recordSeq : Nat
  recordKey : String
  workspaceId : String
  firstSeq : Nat
  lastSeq : Nat
  status : ConversationRecordStatus
  document : RecordDocument
  bytes : Nat
  deriving DecidableEq

/-- A row of `workspace_conversations`. -/
structure ConversationState where
  workspaceId : String
  deleted : Bool
  bytes : Nat
  expiresAt : Option Nat
  deletedAt : Option Nat

/-- A row of `workspace_conversation_messages`, as earlier releases wrote them. -/
structure LegacyRow extends MessageInput where
  workspaceId : String
  seq : Nat
  deriving DecidableEq

/-- The tables, and every record that was ever inserted. -/
structure Database where
  workspaces : Table Workspace.id
  conversations : Table Conversation.id
  records : List ConversationRecord
  workspaceConversations : Table ConversationState.workspaceId
  legacy : List LegacyRow
  inserted : List ConversationRecord

inductive Failure where
  | apiError (code message : String)
  | error (message : String)
  /-- A unique index of `conversation_records` has the key. -/
  | taken
  /-- The schema refuses the identity. -/
  | invalid
  deriving DecidableEq

abbrev Task (α : Type) := Transaction Database Failure α

def requiredRow {α : Type} (row : Option α) : Except Failure α :=
  match row with
  | some row => .ok row
  | none => .error (.error "database query returned no row")

/-! ### Writing a record -/

structure RecordWrite extends RecordInput where
  workspaceId : String
  recordKey : String

/-- The rows that the unique indexes and the lookup of a document are about. -/
def identifies (principalId workspaceId : String) (conversationId : Option String)
    (row : Conversation) : Bool :=
  match conversationId with
  | none => row.workspaceId = workspaceId && row.conversationId = none
  | some id => row.principalId = principalId && row.conversationId = some id

/-- The row that `lockDocument` inserts. -/
def newDocument (id principalId workspaceId : String) (conversationId : Option String)
    (legacy : Bool) : Conversation where
  id := id
  principalId := principalId
  conversationId := conversationId
  workspaceId := workspaceId
  legacy := legacy
  status := .retained
  recordCount := 0
  messageCount := 0
  bytes := 0
  lastSeq := 0
  expiresAt := none
  retentionSet := false
  deletedAt := none

/-- `insert … on conflict do nothing`. -/
def insertDocument (rows : Table Conversation.id) (row : Conversation) : Table Conversation.id :=
  if rows.rows.any (identifies row.principalId row.workspaceId row.conversationId) then rows
  else rows.insert row

def lockDocument (randomUUID workspaceId : String) (conversationId : Option String)
    (legacy : Bool) : Task Conversation := do
  let db ← get
  let workspace ← check (requiredRow (db.workspaces.get? workspaceId))
  let principalId := workspace.principalId
  let conversations := insertDocument db.conversations
    (newDocument randomUUID principalId workspaceId conversationId legacy)
  set { db with conversations }
  check (requiredRow (conversations.rows.find? (identifies principalId workspaceId conversationId)))

/-- The record of a write to a locked document. -/
def recordOf (document : Conversation) (write : RecordWrite) : ConversationRecord :=
  let body := buildRecordDocument write.toRecordInput (document.lastSeq + 1)
  { conversationRef := document.id
    recordSeq := document.recordCount + 1
    recordKey := write.recordKey
    workspaceId := write.workspaceId
    firstSeq := document.lastSeq + 1
    lastSeq := document.lastSeq + body.messages.length
    status := write.status
    document := body
    bytes := body.byteLength }

/-- The row of the document after the record. -/
def countRecord (document : Conversation) (record : ConversationRecord) (row : Conversation) :
    Conversation :=
  { row with
    workspaceId := record.workspaceId
    recordCount := document.recordCount + 1
    messageCount := document.messageCount + record.document.messages.length
    bytes := document.bytes + record.bytes
    lastSeq := record.lastSeq
    expiresAt := none
    retentionSet := false }

def insertRecord (document : Conversation) (write : RecordWrite) : Task ConversationRecord := do
  let db ← get
  let record := recordOf document write
  check (require (db.records.all fun other => !(other.conversationRef = record.conversationRef &&
    (other.recordSeq = record.recordSeq || other.recordKey = record.recordKey))) .taken)
  set { db with
    records := db.records ++ [record]
    inserted := db.inserted ++ [record]
    conversations := db.conversations.updateAt document.id (countRecord document record)
      fun _ => rfl }
  return record

def chargeWorkspace (workspaceId : String) (bytes : Nat) : Task Unit := do
  let db ← get
  let states := db.workspaceConversations.insert
    { workspaceId, deleted := false, bytes := 0, expiresAt := none, deletedAt := none }
  let state ← check (requiredRow (states.get? workspaceId))
  check (require (!state.deleted)
    (.apiError "conversation.deleted" "Conversation history was deleted."))
  check (require (decide (state.bytes + bytes ≤ MAX_WORKSPACE_BYTES))
    (.error "conversation.quota_exceeded"))
  set { db with
    workspaceConversations := states.updateAt workspaceId
      (fun row => { row with bytes := row.bytes + bytes }) fun _ => rfl }

/-- The record of a document with a key. -/
def Database.record? (db : Database) (conversationRef recordKey : String) :
    Option ConversationRecord :=
  db.records.find? fun record =>
    record.conversationRef = conversationRef && record.recordKey = recordKey

def writeRecord (randomUUID : String) (conversationId : Option String) (write : RecordWrite) :
    Task (ConversationRecord × Bool) := do
  let db ← get
  check (require (((db.workspaces.get? write.workspaceId).bind (·.purgeRequestedAt)).isNone)
    (.apiError "operation.conflict" "Workspace content is being purged."))
  let document ← lockDocument randomUUID write.workspaceId conversationId false
  let db ← get
  match db.record? document.id write.recordKey with
  | some existing => return (existing, false)
  | none =>
      check (require (document.status = .retained)
        (.apiError "conversation.deleted" "Conversation history was deleted."))
      let bytes := (buildRecordDocument write.toRecordInput (document.lastSeq + 1)).byteLength
      check (require
        (document.messageCount + write.messages.length ≤ MAX_CONVERSATION_MESSAGES &&
          document.bytes + bytes ≤ MAX_CONVERSATION_BYTES)
        (.error "conversation.quota_exceeded"))
      chargeWorkspace write.workspaceId bytes
      let record ← insertRecord document write
      return (record, true)

structure ConversationTurnCommit where
  workspaceId : String
  identity : ConversationRequestIdentity
  status : TurnOutcome
  reason : Option String
  messages : List MessageInput
  startedAt : Option String
  endedAt : String

/-- The outcome in a `turn_terminal` fact. -/
def ConversationFact.terminal : ConversationFact → Option TurnOutcome
  | .turnTerminal outcome _ => some outcome
  | _ => none

/-- A turn that the controller closed itself states its outcome. -/
def withTerminalFact (randomUUID : String) (turn : ConversationTurnCommit) : List MessageInput :=
  if turn.status ≠ .interrupted || turn.messages.any (·.fact.any (·.terminal.isSome)) then
    turn.messages
  else
    let messageId := turn.identity.turn_id ++ ":terminal"
    -- behind every event of the turn
    let sequence := (turn.messages.map fun message =>
      (message.identity.map (·.sequence + 1)).getD 0).foldl max 0
    turn.messages ++ [
      { messageId
        role := .system
        content := ""
        occurredAt := turn.endedAt
        metadata := []
        identity := some
          { toConversationRequestIdentity := turn.identity
            event_id := randomUUID
            message_id := messageId
            sequence
            revision := 1
            fact := some (.turnTerminal turn.status (turn.reason.filter (· ≠ ""))) } }]

/-- `randomUUID n` is the `n`-th identifier that the call makes. -/
def commitConversationTurn (randomUUID : Nat → String) (turn : ConversationTurnCommit) :
    Task (ConversationRecord × Bool) :=
  writeRecord (randomUUID 1) (some turn.identity.conversation_id)
    { workspaceId := turn.workspaceId
      recordKey := turn.identity.turn_id
      request := some turn.identity
      status := .turn turn.status
      reason := turn.reason
      messages := withTerminalFact (randomUUID 0) turn
      startedAt := turn.startedAt
      endedAt := some turn.endedAt }

def appendWorkspaceMessage (randomUUID workspaceId : String) (message : MessageInput) :
    Task (ConversationRecord × Bool) :=
  writeRecord randomUUID none
    { workspaceId
      recordKey := message.messageId
      request := none
      status := .message
      reason := none
      messages := [{ message with identity := none }]
      startedAt := none
      endedAt := some message.occurredAt }

/-! ### Clearing -/

/-- What a cleared conversation becomes. -/
inductive Clearing where
  | deleted
  | expired
  deriving DecidableEq

def Clearing.status : Clearing → ConversationStatus
  | .deleted => .deleted
  | .expired => .expired

def totalBytes (records : List ConversationRecord) : Nat := (records.map (·.bytes)).sum

/-- The bytes of each workspace in some records. -/
def charged (records : List ConversationRecord) : List (String × Nat) :=
  (records.map (·.workspaceId)).dedup.map fun workspaceId =>
    (workspaceId, totalBytes (records.filter (·.workspaceId = workspaceId)))

/-- `greatest(bytes - charged, 0)`. -/
def refund (states : Table ConversationState.workspaceId) (entry : String × Nat) :
    Table ConversationState.workspaceId :=
  states.updateAt entry.1 (fun row => { row with bytes := row.bytes - entry.2 }) fun _ => rfl

/-- The row of a cleared document. -/
def clearDocument (clearing : Clearing) (now : Nat) (row : Conversation) : Conversation :=
  { row with
    status := clearing.status
    recordCount := 0
    messageCount := 0
    bytes := 0
    expiresAt := none
    deletedAt := if clearing = .deleted then some now else none }

/-- `still` is the condition that is checked on the locked rows. -/
def clearConversations (db : Database) (ids : List String) (clearing : Clearing) (now : Nat)
    (still : Conversation → Bool) : Nat × Database :=
  let locked := db.conversations.rows.filter fun row => ids.contains row.id && still row
  let documents := locked.map (·.id)
  if documents = [] then (0, db)
  else
    let cleared := db.records.filter fun record => documents.contains record.conversationRef
    (documents.length,
      { db with
        workspaceConversations := (charged cleared).foldl refund db.workspaceConversations
        records := db.records.filter fun record => !documents.contains record.conversationRef
        conversations := db.conversations.update
          (fun row => if documents.contains row.id then clearDocument clearing now row else row)
          fun row => by split <;> rfl })

/-! ### Rows of earlier releases -/

def LegacyRow.turnId (row : LegacyRow) : Option String := row.identity.map (·.turn_id)

/-- A row replaces an earlier revision of its event, in its place. -/
def keepRevision (events : JsMap String LegacyRow) (row : LegacyRow) : JsMap String LegacyRow :=
  match row.identity with
  | none => events
  | some identity =>
      match events.get identity.event_id with
      | none => events.set identity.event_id row
      | some previous =>
          if previous.identity.all fun earlier => earlier.revision ≤ identity.revision then
            events.set identity.event_id { row with seq := previous.seq }
          else events

def bySeq (rows : List LegacyRow) : List LegacyRow := rows.insertionSort fun a b => a.seq ≤ b.seq

def latestRevisions (rows : List LegacyRow) : List LegacyRow :=
  bySeq ((rows.foldl keepRevision .empty).entries.rows.map Prod.snd)

def turnStatus (rows : List LegacyRow) : ConversationRecordStatus :=
  match rows.reverse.findSome? fun row => row.fact.bind (·.terminal) with
  | some outcome => .turn outcome
  | none => .legacy

structure LegacyGroup where
  turnId : Option String
  rows : List LegacyRow

def LegacyGroup.push (group : LegacyGroup) (row : LegacyRow) : LegacyGroup :=
  { group with rows := group.rows ++ [row] }

def groupRow (groups : List LegacyGroup) (row : LegacyRow) : List LegacyGroup :=
  match row.turnId with
  | none =>
      match groups.getLast? with
      | some ⟨none, rows⟩ => groups.dropLast ++ [LegacyGroup.push ⟨none, rows⟩ row]
      | _ => groups ++ [⟨none, [row]⟩]
  | some turnId =>
      if groups.any (·.turnId = some turnId) then
        groups.map fun group => if group.turnId = some turnId then group.push row else group
      else groups ++ [⟨some turnId, [row]⟩]

/-- Turns and runs of messages without identity, in the order they were first
written in. -/
def groupsInOrder (rows : List LegacyRow) : List LegacyGroup := rows.foldl groupRow []

/-- The turn of a group; an empty identifier is none. -/
def LegacyGroup.turn (group : LegacyGroup) : Option String := group.turnId.filter (· ≠ "")

/-- `ConversationRequestIdentitySchema.parse`. -/
def parseRequest (identity : Option ConversationMessageIdentity) :
    Except Failure ConversationRequestIdentity :=
  match identity with
  | none => .error .invalid
  | some identity =>
      if identity.toConversationRequestIdentity.conforms then
        .ok identity.toConversationRequestIdentity
      else .error .invalid

/-- The write for a turn. -/
def turnWrite (workspaceId turnId : String) (request : ConversationRequestIdentity)
    (group : LegacyGroup) : RecordWrite :=
  let messages := latestRevisions group.rows
  { workspaceId
    recordKey := turnId
    request := some request
    status := turnStatus messages
    reason := none
    messages := messages.map (·.toMessageInput)
    startedAt := messages.head?.map (·.occurredAt)
    endedAt := messages.getLast?.map (·.occurredAt) }

/-- The write for messages without identity. -/
def legacyWrite (workspaceId : String) (group : LegacyGroup) : RecordWrite where
  workspaceId := workspaceId
  recordKey := "legacy:" ++ (group.rows.head?.map fun row => toString row.seq).getD "undefined"
  request := none
  status := .legacy
  reason := none
  messages := group.rows.map (·.toMessageInput)
  startedAt := group.rows.head?.map (·.occurredAt)
  endedAt := group.rows.getLast?.map (·.occurredAt)

def convertGroup (randomUUID workspaceId : String) (group : LegacyGroup) : Task Unit :=
  match group.turn with
  | some turnId => do
      let request ← check (parseRequest (group.rows.head?.bind (·.identity)))
      let document ← lockDocument randomUUID workspaceId (some request.conversation_id) false
      let db ← get
      if (db.record? document.id turnId).isSome then
        return
      let _ ← insertRecord document (turnWrite workspaceId turnId request group)
  | none => do
      let document ← lockDocument randomUUID workspaceId none true
      let _ ← insertRecord document (legacyWrite workspaceId group)

/-- The groups of a workspace. -/
def Database.groups (db : Database) (workspaceId : String) : List LegacyGroup :=
  groupsInOrder (bySeq (db.legacy.filter (·.workspaceId = workspaceId)))

/-- One round of `convertLegacyConversations`. -/
def convertWorkspace (randomUUID : Nat → String) (workspaceId : String) : Task Unit := do
  let db ← get
  (db.groups workspaceId).zipIdx.forM fun entry =>
    convertGroup (randomUUID entry.2) workspaceId entry.1
  modify fun db => { db with legacy := db.legacy.filter (·.workspaceId ≠ workspaceId) }

/-! ### Steps -/

/-- The transactions. The last four are the other writes to these tables: new
workspaces, an admitted purge, the history marker of a workspace, which is
inserted or updated without its bytes, and the start of retention. -/
inductive Operation where
  | commitConversationTurn (randomUUID : Nat → String) (turn : ConversationTurnCommit)
  | appendWorkspaceMessage (randomUUID workspaceId : String) (message : MessageInput)
  | clearConversations (ids : List String) (clearing : Clearing) (now : Nat)
      (still : Conversation → Bool)
  | convertLegacyConversations (randomUUID : Nat → String) (workspaceId : String)
  | insertWorkspace (row : Workspace)
  | requestPurge (workspaceId : String) (now : Nat)
  | markHistory (state : ConversationState)
  | setRetention (id : String) (expiresAt : Option Nat)

def markHistory (states : Table ConversationState.workspaceId) (state : ConversationState) :
    Table ConversationState.workspaceId :=
  (states.updateAt state.workspaceId
    (fun row => { state with workspaceId := row.workspaceId, bytes := row.bytes }) fun _ => rfl).insert
    { state with bytes := 0 }

def Database.step (db : Database) : Operation → Database
  | .commitConversationTurn randomUUID turn => committed (commitConversationTurn randomUUID turn) db
  | .appendWorkspaceMessage randomUUID workspaceId message =>
      committed (appendWorkspaceMessage randomUUID workspaceId message) db
  | .clearConversations ids clearing now still => (clearConversations db ids clearing now still).2
  | .convertLegacyConversations randomUUID workspaceId =>
      committed (convertWorkspace randomUUID workspaceId) db
  | .insertWorkspace row => { db with workspaces := db.workspaces.insert row }
  | .requestPurge workspaceId now =>
      { db with
        workspaces := db.workspaces.updateAt workspaceId
          (fun row => { row with purgeRequestedAt := some now }) fun _ => rfl }
  | .markHistory state =>
      { db with workspaceConversations := markHistory db.workspaceConversations state }
  | .setRetention id expiresAt =>
      { db with
        conversations := db.conversations.updateAt id
          (fun row => { row with expiresAt, retentionSet := true }) fun _ => rfl }

def Transacts (db : Database) (operation : Operation) (db' : Database) : Prop :=
  db' = db.step operation

/-- A database from an earlier release: no documents, and nothing charged. -/
structure Database.Fresh (db : Database) : Prop where
  conversations : db.conversations.rows = []
  records : db.records = []
  inserted : db.inserted = []
  uncharged : ∀ row ∈ db.workspaceConversations.rows, row.bytes = 0

end PocketCoder.Conversations
