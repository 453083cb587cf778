import Mathlib.Data.List.Find
import Mathlib.Logic.Relation
import PocketCoder.Conversations.Documents

/-!
What the transactions do to the tables: a document is created, a record is
written to a locked document, bytes are charged.

`Effect writable` is one such change, with what the code has checked before it;
`writable` is the condition on the document under which a record is written.
-/

namespace PocketCoder.Conversations

open PocketCoder.Foundation PocketCoder.Foundation.Transaction PocketCoder.Executions

/-! ### Changes -/

namespace Database

def withDocument (db : Database) (row : Conversation) : Database :=
  { db with conversations := insertDocument db.conversations row }

def withRecord (db : Database) (document : Conversation) (record : ConversationRecord) : Database :=
  { db with
    records := db.records ++ [record]
    inserted := db.inserted ++ [record]
    conversations := db.conversations.updateAt document.id (countRecord document record)
      fun _ => rfl }

/-- The row that `chargeWorkspace` reads. -/
def chargeable (db : Database) (workspaceId : String) : Table ConversationState.workspaceId :=
  db.workspaceConversations.insert
    { workspaceId, deleted := false, bytes := 0, expiresAt := none, deletedAt := none }

theorem charged_workspaceId (bytes : Nat) (row : ConversationState) :
    ConversationState.workspaceId { row with bytes := row.bytes + bytes } = row.workspaceId :=
  rfl

def withCharge (db : Database) (workspaceId : String) (bytes : Nat) : Database :=
  { db with
    workspaceConversations := (db.chargeable workspaceId).updateAt workspaceId
      (fun row => { row with bytes := row.bytes + bytes }) (charged_workspaceId bytes) }

/-- The document of a conversation. -/
def find (db : Database) (principalId workspaceId : String) (conversationId : Option String) :
    Option Conversation :=
  db.conversations.rows.find? (identifies principalId workspaceId conversationId)

/-- No record of the document has the number or the key. -/
def Free (db : Database) (record : ConversationRecord) : Prop :=
  ∀ other ∈ db.records, other.conversationRef = record.conversationRef →
    other.recordSeq ≠ record.recordSeq ∧ other.recordKey ≠ record.recordKey

end Database

/-- A document as `lockDocument` creates it. -/
def Conversation.Blank (row : Conversation) : Prop :=
  ∃ id principalId workspaceId conversationId legacy,
    row = newDocument id principalId workspaceId conversationId legacy

variable {db db' : Database} {uuid workspaceId : String} {conversationId : Option String}

theorem requiredRow_eq_ok {α : Type} {row : Option α} {value : α} :
    requiredRow row = .ok value ↔ row = some value := by
  cases row <;> simp [requiredRow]

theorem lockDocument_eq_ok {legacy : Bool} {document : Conversation} :
    lockDocument uuid workspaceId conversationId legacy db = .ok (document, db') ↔
      ∃ workspace, db.workspaces.get? workspaceId = some workspace ∧
        db' = db.withDocument
          (newDocument uuid workspace.principalId workspaceId conversationId legacy) ∧
        db'.find workspace.principalId workspaceId conversationId = some document := by
  rw [lockDocument, get_bind]
  simp only [check_bind_eq_ok, requiredRow_eq_ok, set_bind, check_eq_ok]
  constructor
  · rintro ⟨workspace, hworkspace, hfind, rfl⟩
    exact ⟨workspace, hworkspace, rfl, hfind⟩
  · rintro ⟨workspace, hworkspace, rfl, hfind⟩
    exact ⟨workspace, hworkspace, hfind, rfl⟩

theorem insertRecord_eq_ok {document : Conversation} {write : RecordWrite}
    {record : ConversationRecord} :
    insertRecord document write db = .ok (record, db') ↔
      record = recordOf document write ∧ db.Free record ∧ db' = db.withRecord document record := by
  rw [insertRecord, get_bind]
  simp only [require_bind_eq_ok, set_bind, pure_eq_ok, List.all_eq_true]
  have hfree : (∀ other ∈ db.records,
      (!(other.conversationRef = (recordOf document write).conversationRef &&
      (other.recordSeq = (recordOf document write).recordSeq ||
        other.recordKey = (recordOf document write).recordKey))) = true) ↔
      db.Free (recordOf document write) := by
    refine forall₂_congr fun other _ => ?_
    simp [imp_iff_not_or]
  rw [hfree]
  constructor
  · rintro ⟨h, rfl, rfl⟩
    exact ⟨rfl, h, rfl⟩
  · rintro ⟨rfl, h, rfl⟩
    exact ⟨h, rfl, rfl⟩

theorem chargeWorkspace_eq_ok {bytes : Nat} {u : Unit}
    (h : chargeWorkspace workspaceId bytes db = .ok (u, db')) :
    db' = db.withCharge workspaceId bytes := by
  rw [chargeWorkspace, get_bind] at h
  simp only [check_bind_eq_ok, requiredRow_eq_ok] at h
  obtain ⟨state, -, -, -, -, -, h⟩ := h
  exact set_eq_ok.mp h

/-- A write finds its record, or charges the workspace and inserts it into a
retained document. -/
theorem writeRecord_eq_ok {write : RecordWrite} {result : ConversationRecord × Bool}
    (h : writeRecord uuid conversationId write db = .ok (result, db')) :
    ∃ row document, row.Blank ∧ document ∈ (db.withDocument row).conversations.rows ∧
      (db' = db.withDocument row ∨ document.status = .retained ∧
        (db.withDocument row).Free (recordOf document write) ∧
        db' = ((db.withDocument row).withCharge write.workspaceId
          (recordOf document write).bytes).withRecord document (recordOf document write)) := by
  rw [writeRecord, get_bind, require_bind_eq_ok, bind_eq_ok] at h
  obtain ⟨-, document, db₁, hlock, h⟩ := h
  obtain ⟨workspace, -, rfl, hfind⟩ := lockDocument_eq_ok.mp hlock
  refine ⟨_, document, ⟨_, _, _, _, _, rfl⟩, List.mem_of_find?_eq_some hfind, ?_⟩
  rw [get_bind] at h
  cases hrecord : Database.record? _ document.id write.recordKey with
  | some existing =>
      rw [hrecord] at h
      exact .inl (pure_eq_ok.mp h).2
  | none =>
      rw [hrecord] at h
      dsimp only at h
      rw [require_bind_eq_ok] at h
      obtain ⟨hretained, h⟩ := h
      rw [require_bind_eq_ok, bind_eq_ok] at h
      obtain ⟨-, _, db₂, hcharge, h⟩ := h
      rw [bind_eq_ok] at h
      obtain ⟨record, db₃, hinsert, h⟩ := h
      obtain rfl := chargeWorkspace_eq_ok hcharge
      obtain ⟨rfl, hfree, rfl⟩ := insertRecord_eq_ok.mp hinsert
      exact .inr ⟨of_decide_eq_true hretained, hfree, (pure_eq_ok.mp h).2⟩

/-! ### A record that fits -/

theorem bytes_recordOf (document : Conversation) (write : RecordWrite) :
    (recordOf document write).bytes = (recordOf document write).document.byteLength := rfl

theorem chargeWorkspace_of_fits {bytes : Nat} {state : ConversationState}
    (hstate : (db.chargeable workspaceId).get? workspaceId = some state)
    (hdeleted : state.deleted = false) (hbytes : state.bytes + bytes ≤ MAX_WORKSPACE_BYTES) :
    chargeWorkspace workspaceId bytes db = .ok ((), db.withCharge workspaceId bytes) := by
  have hrow : requiredRow ((db.chargeable workspaceId).get? workspaceId) = .ok state := by
    rw [hstate]
    rfl
  rw [chargeWorkspace, get_bind]
  refine (check_bind_of_ok hrow).trans ?_
  rw [require_bind_of_true (by rw [hdeleted]; rfl), require_bind_of_true (decide_eq_true hbytes)]
  rfl

theorem writeRecord_of_fits {write : RecordWrite} {document : Conversation} {db₁ db₂ : Database}
    (hpurge : ((db.workspaces.get? write.workspaceId).bind (·.purgeRequestedAt)).isNone = true)
    (hlock : lockDocument uuid write.workspaceId conversationId false db =
      .ok (document, db₁))
    (hnew : db₁.record? document.id write.recordKey = none) (hstatus : document.status = .retained)
    (hmessages : document.messageCount + write.messages.length ≤ MAX_CONVERSATION_MESSAGES)
    (hbytes : document.bytes + (recordOf document write).bytes ≤ MAX_CONVERSATION_BYTES)
    (hcharge : chargeWorkspace write.workspaceId (recordOf document write).bytes db₁ =
      .ok ((), db₂))
    (hfree : db₂.records.all (fun other => !(other.conversationRef = document.id &&
      (other.recordSeq = document.recordCount + 1 || other.recordKey = write.recordKey))) = true) :
    writeRecord uuid conversationId write db =
      .ok ((recordOf document write, true), db₂.withRecord document (recordOf document write)) := by
  rw [writeRecord, get_bind, require_bind_of_true hpurge, bind_of_ok hlock, get_bind, hnew]
  refine (require_bind_of_true (decide_eq_true hstatus)).trans ?_
  refine (require_bind_of_true
    (Bool.and_eq_true_iff.mpr ⟨decide_eq_true hmessages, decide_eq_true hbytes⟩)).trans ?_
  have hinsert : insertRecord document write db₂ =
      .ok (recordOf document write, db₂.withRecord document (recordOf document write)) := by
    rw [insertRecord, get_bind]
    exact (require_bind_of_true hfree).trans rfl
  refine (bind_of_ok hcharge).trans ?_
  exact bind_of_ok hinsert

/-! ### Conversion -/

/-- The conversation that a group of rows belongs to; none when its identity
is refused. -/
def LegacyGroup.conversation (group : LegacyGroup) : Option (Option String) :=
  match group.turn with
  | none => some none
  | some _ =>
      match parseRequest (group.rows.head?.bind (·.identity)) with
      | .error _ => none
      | .ok request => some (some request.conversation_id)

/-- The document that a group of rows belongs to. -/
def Database.target (db : Database) (workspaceId : String) (group : LegacyGroup) :
    Option Conversation :=
  (db.workspaces.get? workspaceId).bind fun workspace =>
    group.conversation.bind (db.find workspace.principalId workspaceId)

theorem target_eq_some {group : LegacyGroup} {document : Conversation} :
    db.target workspaceId group = some document ↔
      ∃ workspace conversationId, db.workspaces.get? workspaceId = some workspace ∧
        group.conversation = some conversationId ∧
        db.find workspace.principalId workspaceId conversationId = some document := by
  simp only [Database.target, Option.bind_eq_some_iff, exists_and_left]

/-- The turn of the group has its record. -/
def Database.converted (db : Database) (workspaceId : String) (group : LegacyGroup) : Bool :=
  match group.turn, db.target workspaceId group with
  | some turnId, some document => (db.record? document.id turnId).isSome
  | _, _ => false

theorem target_mem {group : LegacyGroup} {document : Conversation}
    (h : db.target workspaceId group = some document) : document ∈ db.conversations.rows := by
  obtain ⟨_, _, -, -, hfind⟩ := target_eq_some.mp h
  exact List.mem_of_find?_eq_some hfind

/-- The write for a group; none when its identity is refused. -/
def LegacyGroup.write (workspaceId : String) (group : LegacyGroup) : Option RecordWrite :=
  match group.turn with
  | none => some (legacyWrite workspaceId group)
  | some turnId =>
      match parseRequest (group.rows.head?.bind (·.identity)) with
      | .error _ => none
      | .ok request => some (turnWrite workspaceId turnId request group)

theorem workspaceId_write {group : LegacyGroup} {write : RecordWrite}
    (h : group.write workspaceId = some write) : write.workspaceId = workspaceId := by
  rw [LegacyGroup.write.eq_def] at h
  split at h
  · rw [← Option.some.inj h]
    rfl
  · split at h
    · cases h
    · rw [← Option.some.inj h]
      rfl

/-- A group finds its record, or inserts it into its document, whatever the
status of the document is. -/
theorem convertGroup_eq_ok {group : LegacyGroup} {u : Unit}
    (h : convertGroup uuid workspaceId group db = .ok (u, db')) :
    ∃ row document, row.Blank ∧ row.id = uuid ∧
      (db.withDocument row).target workspaceId group = some document ∧
      ((db.withDocument row).converted workspaceId group = true ∧ db' = db.withDocument row ∨
        ∃ write, group.write workspaceId = some write ∧
          (db.withDocument row).Free (recordOf document write) ∧
          db' = (db.withDocument row).withRecord document (recordOf document write)) := by
  rw [convertGroup.eq_def] at h
  -- a group without a turn is always inserted; one with a turn may be converted already
  cases hturn : group.turn with
  | none =>
      rw [hturn] at h
      dsimp only at h
      rw [bind_eq_ok] at h
      obtain ⟨document, db₁, hlock, h⟩ := h
      obtain ⟨workspace, hworkspace, rfl, hfind⟩ := lockDocument_eq_ok.mp hlock
      rw [bind_eq_ok] at h
      obtain ⟨record, db₂, hinsert, h⟩ := h
      obtain ⟨rfl, hfree, rfl⟩ := insertRecord_eq_ok.mp hinsert
      refine ⟨_, document, ⟨_, _, _, _, _, rfl⟩, rfl, ?_, .inr ⟨_, ?_, hfree, (pure_eq_ok.mp h).2⟩⟩
      · refine target_eq_some.mpr ⟨workspace, none, hworkspace, ?_, hfind⟩
        rw [LegacyGroup.conversation, hturn]
      · rw [LegacyGroup.write, hturn]
  | some turnId =>
      rw [hturn] at h
      dsimp only at h
      rw [check_bind_eq_ok] at h
      obtain ⟨request, hrequest, h⟩ := h
      rw [bind_eq_ok] at h
      obtain ⟨document, db₁, hlock, h⟩ := h
      obtain ⟨workspace, hworkspace, rfl, hfind⟩ := lockDocument_eq_ok.mp hlock
      have htarget : (db.withDocument (newDocument uuid workspace.principalId workspaceId
          (some request.conversation_id) false)).target workspaceId group = some document := by
        refine target_eq_some.mpr ⟨workspace, _, hworkspace, ?_, hfind⟩
        rw [LegacyGroup.conversation, hturn, hrequest]
      refine ⟨_, document, ⟨_, _, _, _, _, rfl⟩, rfl, htarget, ?_⟩
      rw [get_bind] at h
      split_ifs at h with hrecord
      · refine .inl ⟨?_, (pure_eq_ok.mp h).2⟩
        rw [Database.converted, hturn, htarget]
        exact hrecord
      · rw [bind_eq_ok] at h
        obtain ⟨record, db₂, hinsert, h⟩ := h
        obtain ⟨rfl, hfree, rfl⟩ := insertRecord_eq_ok.mp hinsert
        refine .inr ⟨_, ?_, hfree, (pure_eq_ok.mp h).2⟩
        rw [LegacyGroup.write, hturn, hrequest]

/-- A converted group changes nothing. -/
theorem convertGroup_of_converted {group : LegacyGroup} {u : Unit}
    (hconverted : db.converted workspaceId group = true)
    (h : convertGroup uuid workspaceId group db = .ok (u, db')) : db' = db := by
  rw [Database.converted] at hconverted
  cases hturn : group.turn with
  | none =>
      rw [hturn] at hconverted
      cases hconverted
  | some turnId =>
      cases htarget : db.target workspaceId group with
      | none =>
          rw [hturn, htarget] at hconverted
          cases hconverted
      | some document =>
          rw [hturn, htarget] at hconverted
          obtain ⟨workspace, conversationId, hworkspace, hconversation, htarget⟩ :=
            target_eq_some.mp htarget
          rw [convertGroup.eq_def, hturn] at h
          dsimp only at h
          rw [check_bind_eq_ok] at h
          obtain ⟨request, hrequest, h⟩ := h
          rw [LegacyGroup.conversation, hturn, hrequest] at hconversation
          obtain rfl := Option.some.inj hconversation
          rw [bind_eq_ok] at h
          obtain ⟨document', db₁, hlock, h⟩ := h
          obtain ⟨workspace', hworkspace', rfl, hfind⟩ := lockDocument_eq_ok.mp hlock
          obtain rfl : workspace = workspace' := Option.some.inj (hworkspace.symm.trans hworkspace')
          -- the document is there, so locking it inserts nothing
          have hsame : db.withDocument (newDocument uuid workspace.principalId workspaceId
              (some request.conversation_id) false) = db := by
            rw [Database.withDocument, insertDocument, if_pos]
            exact List.any_eq_true.mpr ⟨document, List.mem_of_find?_eq_some htarget,
              List.find?_some htarget⟩
          rw [hsame] at h hfind
          obtain rfl : document = document' := Option.some.inj (htarget.symm.trans hfind)
          rw [get_bind, if_pos hconverted] at h
          exact (pure_eq_ok.mp h).2

/-! ### Chains of changes -/

/-- One change. A record is only written to a document that meets `writable`. -/
inductive Effect (writable : Conversation → Prop) (db : Database) : Database → Prop
  | document {row : Conversation} : row.Blank → Effect writable db (db.withDocument row)
  | charge (workspaceId : String) (bytes : Nat) :
      Effect writable db (db.withCharge workspaceId bytes)
  | record {document : Conversation} (write : RecordWrite) :
      document ∈ db.conversations.rows → db.Free (recordOf document write) → writable document →
        Effect writable db (db.withRecord document (recordOf document write))
  | legacy (rows : List LegacyRow) : Effect writable db { db with legacy := rows }

def Effects (writable : Conversation → Prop) : Database → Database → Prop :=
  Relation.ReflTransGen (Effect writable)

/-- The rule of invariants for transactions. -/
theorem Effects.invariant {writable : Conversation → Prop} {P : Database → Prop}
    (h : Effects writable db db') (hstep : ∀ {db db'}, Effect writable db db' → P db → P db')
    (hdb : P db) : P db' := by
  induction h with
  | refl => exact hdb
  | tail _ hlast ih => exact hstep hlast ih

/-- A condition on the document that always holds, or that was checked. -/
theorem writeRecord_effects {writable : Conversation → Prop} {write : RecordWrite}
    {result : ConversationRecord × Bool}
    (hwritable : ∀ document : Conversation, document.status = .retained → writable document)
    (h : writeRecord uuid conversationId write db = .ok (result, db')) :
    Effects writable db db' := by
  obtain ⟨row, document, hblank, hmem, rfl | ⟨hretained, hfree, rfl⟩⟩ := writeRecord_eq_ok h
  · exact .single (.document hblank)
  · refine .tail (.tail (.single (.document hblank)) (.charge write.workspaceId
      (recordOf document write).bytes)) ?_
    exact .record write hmem hfree (hwritable document hretained)

/-- A loop of a transaction, with the items that are done. -/
theorem forM_done {α : Type} {task : α → Task Unit} {P : List α → Database → Prop}
    {items done : List α} {u : Unit} (h : items.forM task db = .ok (u, db'))
    (hstep : ∀ {done item db db' u}, item ∈ items → task item db = .ok (u, db') → P done db →
      P (done ++ [item]) db') (hdb : P done db) : P (done ++ items) db' := by
  induction items generalizing db done with
  | nil =>
      rw [List.append_nil]
      exact (pure_eq_ok.mp h).2 ▸ hdb
  | cons item items ih =>
      rw [List.forM_eq_forM, List.forM_cons, bind_eq_ok] at h
      obtain ⟨_, db₁, hitem, h⟩ := h
      rw [← List.singleton_append, ← List.append_assoc]
      refine ih h (fun hmem => hstep (List.mem_cons_of_mem _ hmem)) ?_
      exact hstep List.mem_cons_self hitem hdb

theorem forM_invariant {α : Type} {task : α → Task Unit} {P : Database → Prop} {items : List α}
    {u : Unit} (h : items.forM task db = .ok (u, db'))
    (hstep : ∀ item ∈ items, ∀ {db db' u}, task item db = .ok (u, db') → P db → P db')
    (hdb : P db) : P db' :=
  @forM_done _ _ _ _ (fun _ => P) items [] u h (fun hmem => hstep _ hmem) hdb

theorem mem_zipIdx_groups {groups : List LegacyGroup} {entry : LegacyGroup × Nat}
    (h : entry ∈ groups.zipIdx) : entry.1 ∈ groups :=
  List.mem_of_getElem? (List.mk_mem_zipIdx_iff_getElem?.mp h)

theorem convertGroup_effects {group : LegacyGroup} {u : Unit}
    (h : convertGroup uuid workspaceId group db = .ok (u, db')) :
    Effects (fun _ => True) db db' := by
  obtain ⟨row, document, hblank, -, htarget, ⟨-, rfl⟩ | ⟨write, -, hfree, rfl⟩⟩ :=
    convertGroup_eq_ok h
  · exact .single (.document hblank)
  · exact .tail (.single (.document hblank)) (.record write (target_mem htarget) hfree trivial)

theorem convertWorkspace_eq_ok {uuids : Nat → String} {u : Unit} :
    convertWorkspace uuids workspaceId db = .ok (u, db') ↔
      ∃ db₁, (db.groups workspaceId).zipIdx.forM
          (fun entry => convertGroup (uuids entry.2) workspaceId entry.1) db = .ok (u, db₁) ∧
        db' = { db₁ with legacy := db₁.legacy.filter (·.workspaceId ≠ workspaceId) } := by
  rw [convertWorkspace, get_bind, bind_eq_ok]
  constructor
  · rintro ⟨_, db₁, hloop, h⟩
    exact ⟨db₁, hloop, modify_eq_ok.mp h⟩
  · rintro ⟨db₁, hloop, rfl⟩
    exact ⟨u, db₁, hloop, modify_eq_ok.mpr rfl⟩

theorem convertWorkspace_effects {uuids : Nat → String} {u : Unit}
    (h : convertWorkspace uuids workspaceId db = .ok (u, db')) :
    Effects (fun _ => True) db db' := by
  obtain ⟨db₁, hloop, rfl⟩ := convertWorkspace_eq_ok.mp h
  refine .tail ?_ (.legacy _)
  refine forM_invariant hloop (fun entry _ => ?_) .refl
  intro db₁ db₂ _ hgroup hbefore
  exact hbefore.trans (convertGroup_effects hgroup)

/-- Groups that have their records. -/
theorem convertWorkspace_of_converted {uuids : Nat → String} {u : Unit}
    (hconverted : ∀ group ∈ db.groups workspaceId, db.converted workspaceId group = true)
    (h : convertWorkspace uuids workspaceId db = .ok (u, db')) :
    db' = { db with legacy := db.legacy.filter (·.workspaceId ≠ workspaceId) } := by
  obtain ⟨db₁, hloop, rfl⟩ := convertWorkspace_eq_ok.mp h
  have hsame : db₁ = db := by
    refine @forM_invariant _ _ _ _ (· = db) _ _ hloop (fun entry hentry => ?_) rfl
    rintro _ db₂ _ hgroup rfl
    exact convertGroup_of_converted (hconverted entry.1 (mem_zipIdx_groups hentry)) hgroup
  rw [hsame]

/-! ### Documents that stay retained -/

theorem rows_insertDocument (rows : Table Conversation.id) (row : Conversation) :
    (insertDocument rows row).rows = rows.rows ∨
      row.id ∉ rows.rows.map (·.id) ∧ (insertDocument rows row).rows = rows.rows ++ [row] := by
  rw [insertDocument]
  split
  · exact .inl rfl
  · exact rows.rows_insert row

theorem find_withDocument {row document : Conversation} {principalId : String}
    (h : (db.withDocument row).find principalId workspaceId conversationId = some document) :
    db.find principalId workspaceId conversationId = some document ∨ document = row := by
  rw [Database.find, Database.withDocument] at h
  rcases rows_insertDocument db.conversations row with hrows | ⟨-, hrows⟩
  · rw [hrows] at h
    exact .inl h
  · rw [hrows, List.find?_append, Option.or_eq_some_iff] at h
    rcases h with h | ⟨-, h⟩
    · exact .inl h
    · exact .inr (List.mem_singleton.mp (List.mem_of_find?_eq_some h))

theorem rows_withRecord (db : Database) (document : Conversation) (record : ConversationRecord) :
    (db.withRecord document record).conversations.rows =
      db.conversations.rows.map fun row =>
        if row.id = document.id then countRecord document record row else row := rfl

/-- Rows with one key are one row. -/
theorem eq_of_id {document row : Conversation} (hmem : document ∈ db.conversations.rows)
    (hrow : row ∈ db.conversations.rows) (hid : row.id = document.id) : row = document :=
  List.inj_on_of_nodup_map db.conversations.nodup hrow hmem hid

/-- A record of a workspace leaves the documents where they are. -/
theorem find_withRecord {document : Conversation} {record : ConversationRecord}
    {principalId : String} (hmem : document ∈ db.conversations.rows)
    (hplace : document.conversationId = none → document.workspaceId = record.workspaceId) :
    (db.withRecord document record).find principalId workspaceId conversationId =
      (db.find principalId workspaceId conversationId).map fun row =>
        if row.id = document.id then countRecord document record row else row := by
  rw [Database.find, rows_withRecord, List.find?_map, Database.find]
  refine congrArg _ (List.find?_congr fun row hrow => ?_)
  rw [Function.comp_apply]
  split
  case isFalse => rfl
  case isTrue hid =>
    obtain rfl : row = document := eq_of_id hmem hrow hid
    cases conversationId with
    | some id => rfl
    | none =>
        show (record.workspaceId = workspaceId && row.conversationId = none : Bool) =
          (row.workspaceId = workspaceId && row.conversationId = none : Bool)
        cases hnone : row.conversationId with
        | none => rw [hplace hnone]
        | some id => simp

theorem place_of_find {document : Conversation} {principalId : String}
    (h : db.find principalId workspaceId conversationId = some document)
    (hnone : document.conversationId = none) : document.workspaceId = workspaceId := by
  have hidentifies := List.find?_some h
  cases conversationId with
  | none =>
      rw [identifies, Bool.and_eq_true, decide_eq_true_eq] at hidentifies
      exact hidentifies.1
  | some id =>
      rw [identifies, hnone] at hidentifies
      simp at hidentifies

/-- Every document that the rows of the workspace belong to is retained. -/
def Database.Unrevived (db : Database) (workspaceId : String) : Prop :=
  ∀ group ∈ db.groups workspaceId, ∀ document, db.target workspaceId group = some document →
    document.status = .retained

theorem convertWorkspace_effects_retained {uuids : Nat → String} {u : Unit}
    (hretained : db.Unrevived workspaceId)
    (h : convertWorkspace uuids workspaceId db = .ok (u, db')) :
    Effects (·.status = .retained) db db' := by
  obtain ⟨db₁, hloop, rfl⟩ := convertWorkspace_eq_ok.mp h
  refine .tail ?_ (.legacy _)
  -- the groups before this one have created documents and written to retained ones
  refine (@forM_invariant _ _ _ _ (fun db₁ => Effects (·.status = .retained) db db₁ ∧
    ∀ group ∈ db.groups workspaceId, ∀ document, db₁.target workspaceId group = some document →
      document.status = .retained) _ _ hloop (fun entry hentry => ?_) ⟨.refl, hretained⟩).1
  rintro db₁ db₂ _ hgroup ⟨hbefore, htargets⟩
  obtain ⟨row, document, hblank, -, htarget, hdone⟩ := convertGroup_eq_ok hgroup
  -- a document that the group created is retained as well
  have hcreated : ∀ group ∈ db.groups workspaceId, ∀ document,
      (db₁.withDocument row).target workspaceId group = some document →
        document.status = .retained := by
    intro group hmem document htarget
    obtain ⟨workspace, conversationId, hworkspace, hconversation, hfind⟩ := target_eq_some.mp htarget
    rcases find_withDocument hfind with hfind | rfl
    · exact htargets group hmem document
        (target_eq_some.mpr ⟨workspace, conversationId, hworkspace, hconversation, hfind⟩)
    · obtain ⟨_, _, _, _, _, rfl⟩ := hblank
      rfl
  have hopen := hcreated entry.1 (mem_zipIdx_groups hentry) document htarget
  rcases hdone with ⟨-, rfl⟩ | ⟨write, hwrite, hfree, rfl⟩
  · exact ⟨hbefore.tail (.document hblank), hcreated⟩
  · refine ⟨(hbefore.tail (.document hblank)).tail
      (.record write (target_mem htarget) hfree hopen), fun group hmem found hfound => ?_⟩
    obtain ⟨_, _, -, -, hplaced⟩ := target_eq_some.mp htarget
    obtain ⟨workspace, conversationId, hworkspace, hconversation, hfind⟩ := target_eq_some.mp hfound
    rw [find_withRecord (target_mem htarget) fun hnone =>
      (place_of_find hplaced hnone).trans (workspaceId_write hwrite).symm,
      Option.map_eq_some_iff] at hfind
    obtain ⟨before, hfind, rfl⟩ := hfind
    have hbefore := hcreated group hmem before
      (target_eq_some.mpr ⟨workspace, conversationId, hworkspace, hconversation, hfind⟩)
    split
    · exact hbefore
    · exact hbefore

end PocketCoder.Conversations
