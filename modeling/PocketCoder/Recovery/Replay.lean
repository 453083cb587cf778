import Mathlib.Algebra.Order.Ring.Nat
import PocketCoder.Recovery.PrincipalUpdates

/-!
The rows that a restore brings back, and the replay of a journal event on
them (`db/src/recovery/replay-records.ts`,
`db/src/modules/conversations/retention.ts`).

Each event runs in a transaction of its own. An event about the history of a
workspace writes a row that refers to the workspace, so it fails when the
backup does not have that workspace, and the replay stops there.
-/

namespace PocketCoder.Recovery

open PocketCoder.Foundation PocketCoder.Journal PocketCoder.Auth

/-! ### Rows -/

structure SecretRow where
  name : String
  versionId : String
  retiredAt : Option Nat
  deriving DecidableEq

inductive TemplateStatus where
  | active
  | available
  | retired
  deriving DecidableEq

structure TemplateRow where
  name : String
  version : String
  status : TemplateStatus
  retiredAt : Option Nat
  deriving DecidableEq

abbrev TemplateRow.key (row : TemplateRow) : String × String := (row.name, row.version)

inductive CheckpointState where
  | creating
  | ready
  | failed
  | deleting
  | deleted
  deriving DecidableEq

structure CheckpointRow where
  id : String
  principalId : String
  state : CheckpointState
  deletedAt : Option Nat
  deriving DecidableEq

inductive ConversationStatus where
  | retained
  | deleted
  | expired
  deriving DecidableEq

/-- One document for each conversation. -/
structure ConversationRow where
  id : String
  principalId : String
  /-- The identity given by the caller; null for messages without one. -/
  conversationId : Option String
  /-- The workspace that wrote last. -/
  workspaceId : String
  status : ConversationStatus
  recordCount : Nat
  messageCount : Nat
  bytes : Nat
  expiresAt : Option Nat
  deletedAt : Option Nat
  deriving DecidableEq

structure ConversationRecordRow where
  conversationRef : String
  workspaceId : String
  bytes : Nat
  deriving DecidableEq

structure WorkspaceConversationRow where
  workspaceId : String
  status : ConversationStatus
  bytes : Nat
  expiresAt : Option Nat
  deletedAt : Option Nat
  deriving DecidableEq

/-- A log line, an output, a network event or an event of the outbox. -/
structure ContentRow where
  workspaceId : String
  content : String
  deriving DecidableEq

structure RecoveryTables where
  auth : AuthTables
  workspaces : List String
  secrets : Table SecretRow.name
  secretVersions : List String
  templates : Table TemplateRow.key
  checkpoints : Table CheckpointRow.id
  conversations : Table ConversationRow.id
  conversationRecords : List ConversationRecordRow
  workspaceConversations : Table WorkspaceConversationRow.workspaceId
  workspaceLogs : List ContentRow
  workspaceOutputs : List ContentRow
  workspaceNetworkEvents : List ContentRow
  eventOutbox : List ContentRow

/-! ### Conversations -/

/-- `conversationIds`: the conversations that a workspace wrote to. -/
def wroteTo (tables : RecoveryTables) (workspaceId : String) (row : ConversationRow) : Bool :=
  row.workspaceId = workspaceId || tables.conversationRecords.any fun record =>
    record.conversationRef = row.id && record.workspaceId = workspaceId

/-- The tombstone of a conversation. -/
def clearedRow (status : ConversationStatus) (time : Nat) (row : ConversationRow) :
    ConversationRow :=
  { row with
    status
    recordCount := 0
    messageCount := 0
    bytes := 0
    expiresAt := none
    deletedAt := if status = .deleted then some time else none }

/-- The selected conversations cleared. -/
def clearRow (selected : ConversationRow → Bool) (status : ConversationStatus) (time : Nat)
    (row : ConversationRow) : ConversationRow :=
  if selected row then clearedRow status time row else row

theorem clearRow_id (selected : ConversationRow → Bool) (status : ConversationStatus) (time : Nat)
    (row : ConversationRow) : (clearRow selected status time row).id = row.id := by
  unfold clearRow
  split_ifs <;> rfl

/-- `clearConversations`: the records go, the workspaces get their bytes back
and a tombstone stays. -/
def clearConversations (tables : RecoveryTables) (selected : ConversationRow → Bool)
    (status : ConversationStatus) (time : Nat) : RecoveryTables :=
  let documents := (tables.conversations.rows.filter selected).map ConversationRow.id
  let removed := tables.conversationRecords.filter fun record =>
    documents.contains record.conversationRef
  { tables with
    workspaceConversations := tables.workspaceConversations.update
      (fun row =>
        { row with
          bytes := row.bytes - ((removed.filter fun record =>
            record.workspaceId = row.workspaceId).map ConversationRecordRow.bytes).sum })
      fun _ => rfl
    conversationRecords := tables.conversationRecords.filter fun record =>
      !documents.contains record.conversationRef
    conversations := tables.conversations.update (clearRow selected status time)
      (clearRow_id selected status time) }

/-- The history of a workspace marked as deleted. -/
def deletedHistory (time : Nat) (row : WorkspaceConversationRow) : WorkspaceConversationRow :=
  { row with status := .deleted, expiresAt := none, deletedAt := some time }

def removeHistory (tables : RecoveryTables) (workspaceId : String) (time : Nat) :
    RecoveryTables :=
  let cleared := clearConversations tables (wroteTo tables workspaceId) .deleted time
  { cleared with
    workspaceConversations :=
      (cleared.workspaceConversations.updateAt workspaceId (deletedHistory time)
        fun _ => rfl).insert ⟨workspaceId, .deleted, 0, none, some time⟩ }

def purgeWorkspace (tables : RecoveryTables) (workspaceId : String) (time : Nat) :
    RecoveryTables :=
  let kept (rows : List ContentRow) := rows.filter fun row => row.workspaceId ≠ workspaceId
  { removeHistory tables workspaceId time with
    workspaceLogs := kept tables.workspaceLogs
    workspaceOutputs := kept tables.workspaceOutputs
    workspaceNetworkEvents := kept tables.workspaceNetworkEvents
    eventOutbox := kept tables.eventOutbox }

/-- The conversation that an event names. -/
def hasIdentity (principalId conversationId : String) (row : ConversationRow) : Bool :=
  row.principalId = principalId && row.conversationId = some conversationId

/-! ### Replay of one event -/

def replaySecret (event : JournalEvent) (row : SecretRow) : SecretRow :=
  match event with
  | .secretRetired name versionId time =>
      if row.name = name ∧ row.versionId = versionId then
        { row with retiredAt := row.retiredAt.or (some time) }
      else row
  | _ => row

def replayTemplate (event : JournalEvent) (row : TemplateRow) : TemplateRow :=
  match event with
  | .templateRetired name version time =>
      if row.name = name ∧ row.version = version then
        { row with status := .retired, retiredAt := row.retiredAt.or (some time) }
      else row
  | _ => row

def replayCheckpoint (event : JournalEvent) (row : CheckpointRow) : CheckpointRow :=
  match event with
  | .checkpointDeleted _ checkpointId time =>
      if row.id = checkpointId then
        { row with state := .deleted, deletedAt := row.deletedAt.or (some time) }
      else row
  | _ => row

theorem replaySecret_name (event : JournalEvent) (row : SecretRow) :
    (replaySecret event row).name = row.name := by
  unfold replaySecret
  split
  · split_ifs <;> rfl
  · rfl

theorem replayTemplate_key (event : JournalEvent) (row : TemplateRow) :
    (replayTemplate event row).key = row.key := by
  unfold replayTemplate
  split
  · split_ifs <;> rfl
  · rfl

theorem replayCheckpoint_id (event : JournalEvent) (row : CheckpointRow) :
    (replayCheckpoint event row).id = row.id := by
  unfold replayCheckpoint
  split
  · split_ifs <;> rfl
  · rfl

/-- What an event does to conversations and content. -/
def replayContent (tables : RecoveryTables) : JournalEvent → RecoveryTables
  | .conversationDeleted _ (some principalId) (some conversationId) time =>
      clearConversations tables (hasIdentity principalId conversationId) .deleted time
  | .conversationDeleted workspaceId _ _ time => removeHistory tables workspaceId time
  | .workspacePurged _ workspaceId time => purgeWorkspace tables workspaceId time
  | _ => tables

/-- The tables after an event that does not fail. -/
def applied (tables : RecoveryTables) (event : JournalEvent) : RecoveryTables :=
  { replayContent tables event with
    auth := replayAuth tables.auth event
    secrets := tables.secrets.update (replaySecret event) (replaySecret_name event)
    templates := tables.templates.update (replayTemplate event) (replayTemplate_key event)
    checkpoints := tables.checkpoints.update (replayCheckpoint event) (replayCheckpoint_id event) }

/-- The workspace whose history an event marks as deleted. -/
def historyOf : JournalEvent → Option String
  | .conversationDeleted _ (some _) (some _) _ => none
  | .conversationDeleted workspaceId _ _ _ => some workspaceId
  | .workspacePurged _ workspaceId _ => some workspaceId
  | _ => none

/-- The row of a history refers to a workspace. -/
def applies (tables : RecoveryTables) (event : JournalEvent) : Bool :=
  (historyOf event).all fun workspaceId => tables.workspaces.contains workspaceId

/-- `applyRecord`; `none` when the transaction fails. -/
def applyRecord (tables : RecoveryTables) (event : JournalEvent) : Option RecoveryTables :=
  if applies tables event then some (applied tables event) else none

/-- The replay of events, and whether it reached their end. -/
def replay (tables : RecoveryTables) : List JournalEvent → RecoveryTables × Bool
  | [] => (tables, true)
  | event :: events =>
      match applyRecord tables event with
      | none => (tables, false)
      | some tables => replay tables events

theorem applied_workspaces (tables : RecoveryTables) (event : JournalEvent) :
    (applied tables event).workspaces = tables.workspaces := by
  show (replayContent tables event).workspaces = tables.workspaces
  unfold replayContent
  split <;> rfl

theorem foldl_applied_workspaces (tables : RecoveryTables) (events : List JournalEvent) :
    (events.foldl applied tables).workspaces = tables.workspaces := by
  induction events generalizing tables with
  | nil => rfl
  | cons event events ih => rw [List.foldl_cons, ih, applied_workspaces]

/-- A replay applies the events before the first that fails. -/
theorem replay_fst (tables : RecoveryTables) (events : List JournalEvent) :
    (replay tables events).1 = (events.takeWhile (applies tables)).foldl applied tables := by
  induction events generalizing tables with
  | nil => rfl
  | cons event events ih =>
      have happlies : applies (applied tables event) = applies tables := by
        funext other
        rw [applies, applies, applied_workspaces]
      rw [replay, applyRecord, List.takeWhile_cons]
      by_cases h : applies tables event = true
      · rw [if_pos h, if_pos h, List.foldl_cons, ← happlies]
        exact ih _
      · rw [if_neg h, if_neg h]
        rfl

/-- A replay without failure applies everything. -/
theorem replay_of_applies {tables : RecoveryTables} {events : List JournalEvent}
    (h : ∀ event ∈ events, applies tables event = true) :
    replay tables events = (events.foldl applied tables, true) := by
  induction events generalizing tables with
  | nil => rfl
  | cons event events ih =>
      rw [replay, applyRecord, if_pos (h event List.mem_cons_self), List.foldl_cons]
      refine ih fun other hother => ?_
      rw [applies, applied_workspaces]
      exact h other (List.mem_cons_of_mem _ hother)

end PocketCoder.Recovery
