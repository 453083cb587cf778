import Mathlib.Data.List.Forall2
import PocketCoder.Conversations.Consistency
import PocketCoder.Conversations.LegacyRows

/-!
The records that the groups of legacy rows are converted into.

`Made` is one group and its record, and `Rebuilt` says that the records of a
database are those of some groups: all that have no turn, and of each turn the
first. `Rebuilt.convertGroup` is the lemma for one group, and
`Rebuilt.convertWorkspace` the one for the transaction of a workspace.
-/

namespace PocketCoder.Conversations

open PocketCoder.Foundation PocketCoder.Foundation.Transaction PocketCoder.Executions

variable {db db' : Database} {uuid workspaceId : String} {conversationId : Option String}

/-! ### Records and the groups they are made from -/

/-- The turn of a group, and the conversation and the principal it is of. -/
def turnKey (workspaces : Table Workspace.id) (entry : String × LegacyGroup) :
    Option (String × String × String) :=
  match workspaces.get? entry.1, entry.2.conversation, entry.2.turn with
  | some workspace, some (some conversationId), some turnId =>
      some (workspace.principalId, conversationId, turnId)
  | _, _, _ => none

theorem turnKey_eq_some {workspaces : Table Workspace.id} {entry : String × LegacyGroup}
    {principalId conversationId turnId : String} :
    turnKey workspaces entry = some (principalId, conversationId, turnId) ↔
      (∃ workspace, workspaces.get? entry.1 = some workspace ∧ workspace.principalId = principalId) ∧
        entry.2.conversation = some (some conversationId) ∧ entry.2.turn = some turnId := by
  rw [turnKey.eq_def]
  split
  case h_1 workspace other turn hworkspace hconversation hturn =>
    rw [hworkspace, hconversation, hturn]
    simp
  case h_2 hnone =>
    constructor
    · intro h
      cases h
    · rintro ⟨⟨workspace, hworkspace, -⟩, hconversation, hturn⟩
      exact (hnone _ _ _ hworkspace hconversation hturn).elim

/-- A record with the content of a group, in the document of its conversation. -/
structure Made (db : Database) (entry : String × LegacyGroup) (record : ConversationRecord) :
    Prop where
  workspace : record.workspaceId = entry.1
  written : ∃ write, entry.2.write entry.1 = some write ∧ record.recordKey = write.recordKey ∧
    record.document = buildRecordDocument write.toRecordInput record.firstSeq
  placed : ∃ document, db.target entry.1 entry.2 = some document ∧
    record.conversationRef = document.id

variable {entry : String × LegacyGroup} {record : ConversationRecord}

theorem find_withDocument_of_find {row document : Conversation} {principalId : String}
    (h : db.find principalId workspaceId conversationId = some document) :
    (db.withDocument row).find principalId workspaceId conversationId = some document := by
  rw [Database.find, Database.withDocument]
  rcases rows_insertDocument db.conversations row with hrows | ⟨-, hrows⟩
  · rw [hrows]
    exact h
  · rw [hrows, List.find?_append, ← Database.find, h]
    rfl

theorem Made.created (h : Made db entry record) (row : Conversation) :
    Made (db.withDocument row) entry record where
  workspace := h.workspace
  written := h.written
  placed := by
    obtain ⟨document, htarget, href⟩ := h.placed
    obtain ⟨workspace, conversationId, hworkspace, hconversation, hfind⟩ := target_eq_some.mp htarget
    exact ⟨document, target_eq_some.mpr ⟨workspace, conversationId, hworkspace, hconversation,
      find_withDocument_of_find hfind⟩, href⟩

theorem target_withRecord {document found : Conversation} {group : LegacyGroup}
    (hmem : document ∈ db.conversations.rows)
    (hplace : document.conversationId = none → document.workspaceId = record.workspaceId)
    (h : db.target workspaceId group = some found) :
    ∃ after, (db.withRecord document record).target workspaceId group = some after ∧
      after.id = found.id := by
  obtain ⟨workspace, conversationId, hworkspace, hconversation, hfind⟩ := target_eq_some.mp h
  refine ⟨if found.id = document.id then countRecord document record found else found,
    target_eq_some.mpr ⟨workspace, conversationId, hworkspace, hconversation, ?_⟩, ?_⟩
  · rw [find_withRecord hmem hplace, hfind]
    rfl
  · split <;> rfl

theorem Made.recorded {document : Conversation} {other : ConversationRecord}
    (h : Made db entry record) (hmem : document ∈ db.conversations.rows)
    (hplace : document.conversationId = none → document.workspaceId = other.workspaceId) :
    Made (db.withRecord document other) entry record where
  workspace := h.workspace
  written := h.written
  placed := by
    obtain ⟨found, htarget, href⟩ := h.placed
    obtain ⟨after, hafter, hid⟩ := target_withRecord hmem hplace htarget
    exact ⟨after, hafter, href.trans hid.symm⟩

/-! ### One group -/

variable {group : LegacyGroup} {document : Conversation}

theorem conversation_of_turn {turnId : String} {found : Option String} (hturn : group.turn = some turnId)
    (h : group.conversation = some found) : ∃ conversationId, found = some conversationId := by
  rw [LegacyGroup.conversation, hturn] at h
  dsimp only at h
  split at h
  · cases h
  · exact ⟨_, (Option.some.inj h).symm⟩

theorem conversation_of_plain (hturn : group.turn = none) : group.conversation = some none := by
  rw [LegacyGroup.conversation, hturn]

/-- A document is that of the conversation it was looked up for. -/
theorem identified_of_target {workspace : Workspace}
    (hworkspace : db.workspaces.get? workspaceId = some workspace)
    (hconversation : group.conversation = some conversationId)
    (h : db.target workspaceId group = some document) :
    document.conversationId = conversationId ∧
      (conversationId ≠ none → document.principalId = workspace.principalId) := by
  obtain ⟨other, found, hother, hfound, hfind⟩ := target_eq_some.mp h
  obtain rfl := Option.some.inj (hworkspace.symm.trans hother)
  obtain rfl := Option.some.inj (hconversation.symm.trans hfound)
  have hidentifies := List.find?_some hfind
  cases conversationId with
  | none =>
      rw [identifies, Bool.and_eq_true, decide_eq_true_eq, decide_eq_true_eq] at hidentifies
      exact ⟨hidentifies.2, fun hnone => absurd rfl hnone⟩
  | some id =>
      rw [identifies, Bool.and_eq_true, decide_eq_true_eq, decide_eq_true_eq] at hidentifies
      exact ⟨hidentifies.2, fun _ => hidentifies.1⟩

/-- The key of a group that has a document. -/
theorem turnKey_of_target (h : db.target workspaceId group = some document) :
    (group.turn = none ∧ document.conversationId = none ∧
      turnKey db.workspaces (workspaceId, group) = none) ∨
    ∃ turnId conversationId, group.turn = some turnId ∧
      document.conversationId = some conversationId ∧
      turnKey db.workspaces (workspaceId, group) =
        some (document.principalId, conversationId, turnId) := by
  obtain ⟨workspace, found, hworkspace, hconversation, -⟩ := target_eq_some.mp h
  obtain ⟨hdocument, hprincipal⟩ := identified_of_target hworkspace hconversation h
  cases hturn : group.turn with
  | none =>
      rw [conversation_of_plain hturn] at hconversation
      obtain rfl := Option.some.inj hconversation
      refine .inl ⟨rfl, hdocument, ?_⟩
      rw [turnKey.eq_def, hturn]
      split
      case h_1 hnone => cases hnone
      case h_2 => rfl
  | some turnId =>
      obtain ⟨conversationId, rfl⟩ := conversation_of_turn hturn hconversation
      refine .inr ⟨turnId, conversationId, rfl, hdocument, turnKey_eq_some.mpr ⟨⟨workspace, hworkspace,
        ?_⟩, hconversation, hturn⟩⟩
      exact (hprincipal (by simp)).symm

/-- The record of a turn is the one that the lookup of its key finds. -/
theorem Made.key_iff (h : Made db entry record) {turnId : String}
    (hturn : group.turn = some turnId) (htarget : db.target workspaceId group = some document) :
    record.conversationRef = document.id ∧ record.recordKey = turnId ↔
      turnKey db.workspaces entry = turnKey db.workspaces (workspaceId, group) := by
  obtain ⟨write, hwrite, hkey, -⟩ := h.written
  obtain ⟨found, hfound, href⟩ := h.placed
  rcases turnKey_of_target htarget with ⟨hnone, -, -⟩ | ⟨turnId', conversationId, hturn', hdocument, hown⟩
  · rw [hturn] at hnone
    cases hnone
  obtain rfl : turnId = turnId' := Option.some.inj (hturn.symm.trans hturn')
  rw [hown]
  rcases turnKey_of_target hfound with ⟨hplain, hfoundId, hother⟩ |
    ⟨otherTurn, otherId, hotherTurn, hfoundId, hother⟩
  · -- a record without a turn is in a document without a conversation
    have hother : turnKey db.workspaces entry = none := hother
    rw [hother]
    constructor
    · rintro ⟨hid, -⟩
      rw [href] at hid
      rw [eq_of_id (target_mem htarget) (target_mem hfound) hid, hdocument] at hfoundId
      cases hfoundId
    · intro hnone
      cases hnone
  · have hother : turnKey db.workspaces entry = some (found.principalId, otherId, otherTurn) := hother
    -- the key of a turn's record is the turn
    have hname : write.recordKey = otherTurn := by
      rw [LegacyGroup.write, hotherTurn] at hwrite
      dsimp only at hwrite
      split at hwrite
      · cases hwrite
      · rw [← Option.some.inj hwrite]
        rfl
    rw [hother, hkey, hname, Option.some.injEq, Prod.mk.injEq, Prod.mk.injEq]
    constructor
    · rintro ⟨hid, rfl⟩
      rw [href] at hid
      obtain rfl := eq_of_id (target_mem htarget) (target_mem hfound) hid
      exact ⟨rfl, Option.some.inj (hfoundId.symm.trans hdocument), rfl⟩
    · rintro ⟨hprincipal, rfl, rfl⟩
      refine ⟨href.trans ?_, rfl⟩
      obtain ⟨workspace, _, hworkspace, hconversation, hfind⟩ := target_eq_some.mp htarget
      obtain ⟨workspace', _, hworkspace', hconversation', hfind'⟩ := target_eq_some.mp hfound
      obtain ⟨hown', howner⟩ := identified_of_target hworkspace hconversation htarget
      obtain ⟨hother', hotherOwner⟩ := identified_of_target hworkspace' hconversation' hfound
      rw [hdocument] at hown'
      rw [hfoundId] at hother'
      subst hown' hother'
      have hsame : workspace.principalId = workspace'.principalId := by
        rw [← howner (by simp), ← hotherOwner (by simp), hprincipal]
      rw [hsame] at hfind
      exact congrArg _ (Option.some.inj (hfind'.symm.trans hfind))

/-- The records are those of the groups, without the turns that had a record
before. -/
structure Rebuilt (db : Database) (entries : List (String × LegacyGroup)) : Prop where
  kept : db.Kept
  records : List.Forall₂ (Made db) (firsts (turnKey db.workspaces) entries) db.records

variable {entries : List (String × LegacyGroup)}

/-- The record that the lookup of a turn finds, and the group it is made from. -/
theorem Rebuilt.turn (h : Rebuilt db entries) {turnId : String} (hturn : group.turn = some turnId)
    (htarget : db.target workspaceId group = some document) :
    List.Forall₂ (Made db)
      ((firsts (turnKey db.workspaces) entries).filter
        (turnKey db.workspaces · = turnKey db.workspaces (workspaceId, group)))
      (db.records.filter fun record =>
        record.conversationRef = document.id && record.recordKey = turnId) := by
  refine List.rel_filter (fun entry record hmade => ?_) h.records
  show decide _ = true ↔ (_ && _) = true
  rw [Bool.and_eq_true, decide_eq_true_eq, decide_eq_true_eq, decide_eq_true_eq]
  exact (hmade.key_iff hturn htarget).symm

theorem Rebuilt.created (h : Rebuilt db entries) {row : Conversation} (hblank : row.Blank) :
    Rebuilt (db.withDocument row) entries :=
  ⟨h.kept.created hblank, h.records.imp fun _ _ hmade => hmade.created row⟩

/-- A turn that has its record adds nothing. -/
theorem Rebuilt.skip (h : Rebuilt db entries) (hconverted : db.converted workspaceId group = true) :
    Rebuilt db (entries ++ [(workspaceId, group)]) := by
  rw [Database.converted.eq_def] at hconverted
  split at hconverted
  case h_2 => cases hconverted
  case h_1 turnId document hturn htarget =>
    obtain ⟨record, hrecord⟩ := Option.isSome_iff_exists.mp hconverted
    rw [Database.record?] at hrecord
    have hnamed := List.find?_some hrecord
    have hmem : record ∈ db.records.filter fun record =>
        record.conversationRef = document.id && record.recordKey = turnId :=
      List.mem_filter.mpr ⟨List.mem_of_find?_eq_some hrecord, hnamed⟩
    obtain ⟨entry, hentry⟩ := List.exists_mem_of_length_pos
      ((h.turn hturn htarget).length_eq ▸ List.length_pos_of_mem hmem)
    obtain ⟨hentry, hkey⟩ := List.mem_filter.mp hentry
    refine ⟨h.kept, ?_⟩
    rcases turnKey_of_target htarget with ⟨hnone, -⟩ | ⟨_, _, -, -, hown⟩
    · rw [hturn] at hnone
      cases hnone
    · rw [firsts_concat, keepFirst, if_pos]
      · exact h.records
      · rw [hown]
        exact List.any_eq_true.mpr ⟨entry, hentry, by rw [← hown]; exact hkey⟩

/-- A group without a record gets one. -/
theorem Rebuilt.insert (h : Rebuilt db entries) {write : RecordWrite}
    (hwrite : group.write workspaceId = some write)
    (htarget : db.target workspaceId group = some document)
    (hfree : db.Free (recordOf document write)) :
    Rebuilt (db.withRecord document (recordOf document write))
      (entries ++ [(workspaceId, group)]) := by
  have hworkspace : (recordOf document write).workspaceId = workspaceId := workspaceId_write hwrite
  have hmem := target_mem htarget
  have hplace : document.conversationId = none →
      document.workspaceId = (recordOf document write).workspaceId := by
    obtain ⟨_, _, -, -, hfind⟩ := target_eq_some.mp htarget
    rw [hworkspace]
    exact place_of_find hfind
  have hnew : Made (db.withRecord document (recordOf document write)) (workspaceId, group)
      (recordOf document write) := by
    obtain ⟨after, hafter, hid⟩ := target_withRecord hmem hplace htarget
    exact ⟨hworkspace, ⟨write, hwrite, rfl, rfl⟩, ⟨after, hafter, hid.symm⟩⟩
  refine ⟨h.kept.record hmem hfree, ?_⟩
  show List.Forall₂ _ (firsts (turnKey db.workspaces) _) (db.records ++ [recordOf document write])
  rw [firsts_concat, keepFirst, if_neg]
  · exact List.rel_append (h.records.imp fun _ _ hmade => hmade.recorded hmem hplace)
      (.cons hnew .nil)
  · -- a record of the turn would have the key of the new one
    intro hseen
    obtain ⟨hkey, hany⟩ := Bool.and_eq_true_iff.mp hseen
    obtain ⟨entry, hentry, hsame⟩ := List.any_eq_true.mp hany
    rcases turnKey_of_target htarget with ⟨-, -, hnone⟩ | ⟨turnId, _, hturn, -, -⟩
    · rw [hnone] at hkey
      cases hkey
    · have hfound : entry ∈ (firsts (turnKey db.workspaces) entries).filter
          (turnKey db.workspaces · = turnKey db.workspaces (workspaceId, group)) :=
        List.mem_filter.mpr ⟨hentry, hsame⟩
      obtain ⟨record, hrecord⟩ := List.exists_mem_of_length_pos
        ((h.turn hturn htarget).length_eq ▸ List.length_pos_of_mem hfound)
      obtain ⟨hrecord, hnamed⟩ := List.mem_filter.mp hrecord
      rw [Bool.and_eq_true, decide_eq_true_eq, decide_eq_true_eq] at hnamed
      refine (hfree record hrecord hnamed.1).2 (hnamed.2.trans ?_)
      rw [LegacyGroup.write, hturn] at hwrite
      dsimp only at hwrite
      split at hwrite
      · cases hwrite
      · rw [← Option.some.inj hwrite]
        rfl

theorem Rebuilt.convertGroup {u : Unit} (h : Rebuilt db entries)
    (hconvert : convertGroup uuid workspaceId group db = .ok (u, db')) :
    Rebuilt db' (entries ++ [(workspaceId, group)]) := by
  obtain ⟨row, document, hblank, -, htarget, ⟨hconverted, rfl⟩ | ⟨write, hwrite, hfree, rfl⟩⟩ :=
    convertGroup_eq_ok hconvert
  · exact (h.created hblank).skip hconverted
  · exact (h.created hblank).insert hwrite htarget hfree

/-! ### Workspaces -/

theorem convertGroup_frame {u : Unit} (h : convertGroup uuid workspaceId group db = .ok (u, db')) :
    db'.workspaces = db.workspaces ∧ db'.legacy = db.legacy := by
  obtain ⟨row, document, -, -, -, ⟨-, rfl⟩ | ⟨write, -, -, rfl⟩⟩ := convertGroup_eq_ok h
  · exact ⟨rfl, rfl⟩
  · exact ⟨rfl, rfl⟩

theorem Rebuilt.convertWorkspace {uuids : Nat → String} {u : Unit} (h : Rebuilt db entries)
    (hconvert : convertWorkspace uuids workspaceId db = .ok (u, db')) :
    Rebuilt db' (entries ++ (db.groups workspaceId).map (workspaceId, ·)) ∧
      db'.workspaces = db.workspaces ∧
      db'.legacy = db.legacy.filter (·.workspaceId ≠ workspaceId) := by
  obtain ⟨db₁, hloop, rfl⟩ := convertWorkspace_eq_ok.mp hconvert
  obtain ⟨hrebuilt, hworkspaces, hlegacy⟩ : Rebuilt db₁ (entries ++
      ((db.groups workspaceId).zipIdx.map Prod.fst).map (workspaceId, ·)) ∧
      db₁.workspaces = db.workspaces ∧ db₁.legacy = db.legacy := by
    refine @forM_done _ _ _ _ (fun done db₁ => Rebuilt db₁ (entries ++
      (done.map Prod.fst).map (workspaceId, ·)) ∧ db₁.workspaces = db.workspaces ∧
      db₁.legacy = db.legacy) _ [] _ hloop ?_ ⟨?_, rfl, rfl⟩
    · rintro done entry db₂ db₃ _ - hgroup ⟨hdone, hworkspaces, hlegacy⟩
      obtain ⟨hworkspaces', hlegacy'⟩ := convertGroup_frame hgroup
      refine ⟨?_, hworkspaces'.trans hworkspaces, hlegacy'.trans hlegacy⟩
      rw [List.map_append, List.map_append, ← List.append_assoc]
      exact hdone.convertGroup hgroup
    · rw [List.map_nil, List.map_nil, List.append_nil]
      exact h
  rw [List.zipIdx_map_fst] at hrebuilt
  refine ⟨⟨⟨hrebuilt.kept.documents, hrebuilt.kept.refs, hrebuilt.kept.stored⟩, ?_⟩,
    hworkspaces, by rw [hlegacy]⟩
  exact hrebuilt.records.imp fun _ _ hmade => ⟨hmade.workspace, hmade.written, hmade.placed⟩

/-! ### What the records hold -/

def ConversationRecord.contents (record : ConversationRecord) : List MessageInput :=
  record.document.messages.map (·.toMessageInput)

theorem messages_buildRecordDocument (input : RecordInput) (firstSeq : Nat) :
    (buildRecordDocument input firstSeq).messages.map (·.toMessageInput) = input.messages := by
  refine List.ext_getElem (by simp) fun i hi hi' => ?_
  simp [buildRecordDocument]

theorem Made.plain (h : Made db entry record) (hturn : entry.2.turn = none) :
    record.document.request = none ∧ record.recordKey = (legacyWrite entry.1 entry.2).recordKey ∧
      record.contents = entry.2.rows.map (·.toMessageInput) := by
  obtain ⟨write, hwrite, hkey, hdocument⟩ := h.written
  rw [LegacyGroup.write, hturn] at hwrite
  obtain rfl := Option.some.inj hwrite
  rw [ConversationRecord.contents, hdocument, messages_buildRecordDocument]
  exact ⟨rfl, hkey, rfl⟩

theorem Made.turn {turnId : String} (h : Made db entry record) (hturn : entry.2.turn = some turnId) :
    record.document.request.isSome = true ∧ record.recordKey = turnId ∧
      record.contents = (latestRevisions entry.2.rows).map (·.toMessageInput) := by
  obtain ⟨write, hwrite, hkey, hdocument⟩ := h.written
  rw [LegacyGroup.write, hturn] at hwrite
  dsimp only at hwrite
  split at hwrite
  case h_1 => cases hwrite
  case h_2 =>
    obtain rfl := Option.some.inj hwrite
    rw [ConversationRecord.contents, hdocument, messages_buildRecordDocument]
    exact ⟨rfl, hkey, rfl⟩

theorem Made.request_isNone (h : Made db entry record) :
    record.document.request = none ↔ entry.2.turn = none := by
  cases hturn : entry.2.turn with
  | none => simp [(h.plain hturn).1]
  | some turnId =>
      obtain ⟨hsome, -⟩ := h.turn hturn
      refine iff_of_false (fun hnone => ?_) (by simp)
      rw [hnone] at hsome
      cases hsome

end PocketCoder.Conversations
