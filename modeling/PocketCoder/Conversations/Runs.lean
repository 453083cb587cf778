import Mathlib.Data.List.Dedup
import PocketCoder.Conversations.Consistency

/-!
Conversation documents along every run of the transactions: what they and
their records agree on, that a cleared conversation stays cleared unless rows
of an earlier release are converted into it, and that the bytes of a workspace
are those of its stored records unless converted records are among them.
-/

namespace PocketCoder.Conversations

open PocketCoder.Foundation PocketCoder.Foundation.Transaction PocketCoder.Executions

variable {db db' : Database} {workspaceId : String}

/-! ### Clearing -/

namespace Database

/-- The tables after some documents have been cleared. -/
def cleared (db : Database) (documents : List String) (clearing : Clearing) (now : Nat) : Database :=
  { db with
    workspaceConversations := (charged (db.records.filter fun record =>
      documents.contains record.conversationRef)).foldl refund db.workspaceConversations
    records := db.records.filter fun record => !documents.contains record.conversationRef
    conversations := db.conversations.update
      (fun row => if documents.contains row.id then clearDocument clearing now row else row)
      fun row => by split <;> rfl }

theorem clearConversations_eq (db : Database) (ids : List String) (clearing : Clearing) (now : Nat)
    (still : Conversation → Bool) :
    (clearConversations db ids clearing now still).2 = db ∨
      ∃ documents, (clearConversations db ids clearing now still).2 =
        db.cleared documents clearing now := by
  rw [clearConversations]
  dsimp only
  split
  · exact .inl rfl
  · exact .inr ⟨_, rfl⟩

/-- The rows after a clearing. -/
theorem mem_cleared {documents : List String} {clearing : Clearing} {now : Nat} {row' : Conversation}
    (h : row' ∈ (db.cleared documents clearing now).conversations.rows) :
    ∃ row ∈ db.conversations.rows,
      documents.contains row.id = true ∧ row' = clearDocument clearing now row ∨
        documents.contains row.id = false ∧ row' = row := by
  obtain ⟨row, hrow, rfl⟩ := List.mem_map.mp h
  refine ⟨row, hrow, ?_⟩
  cases documents.contains row.id with
  | true => exact .inl ⟨rfl, rfl⟩
  | false => exact .inr ⟨rfl, rfl⟩

theorem recordsOf_cleared (db : Database) {documents : List String} (clearing : Clearing) (now : Nat)
    {id : String} : (db.cleared documents clearing now).recordsOf id =
      if documents.contains id = true then [] else db.recordsOf id := by
  rw [recordsOf, cleared, List.filter_filter]
  split
  case isTrue hcleared =>
    refine List.filter_eq_nil_iff.mpr fun record _ => ?_
    rw [Bool.and_eq_true, not_and, decide_eq_true_eq]
    rintro rfl
    rw [hcleared]
    exact Bool.false_ne_true
  case isFalse hkept =>
    refine List.filter_congr fun record _ => ?_
    by_cases hid : record.conversationRef = id
    · rw [hid]
      simpa using hkept
    · simp [hid]

theorem Kept.cleared (h : db.Kept) (documents : List String) (clearing : Clearing) (now : Nat) :
    (db.cleared documents clearing now).Kept where
  documents row' hrow' := by
    obtain ⟨row, hrow, ⟨hcleared, rfl⟩ | ⟨hkept, rfl⟩⟩ := mem_cleared hrow'
    · rw [recordsOf_cleared, if_pos (show documents.contains
        (clearDocument clearing now row).id = true from hcleared)]
      exact (h.documents row hrow).clear clearing now
    · rw [recordsOf_cleared, if_neg (by rw [hkept]; exact Bool.false_ne_true)]
      exact h.documents row' hrow
  refs record hrecord := by
    obtain ⟨row, hrow, hid⟩ := h.refs record hrecord
    refine ⟨_, List.mem_map_of_mem hrow, ?_⟩
    rw [← hid]
    split <;> rfl
  stored record hrecord := h.stored record (List.mem_filter.mp hrecord).1

end Database

/-! ### What a step keeps -/

/-- The transactions that write records to documents that meet a condition. -/
inductive StepKind (writable : Conversation → Prop) (db : Database) : Database → Prop
  | effects {after : Database} : Effects writable db after → StepKind writable db after
  | cleared (documents : List String) (clearing : Clearing) (now : Nat) :
      StepKind writable db (db.cleared documents clearing now)
  | workspaces (workspaces : Table Workspace.id) : StepKind writable db { db with workspaces }
  | states (workspaceConversations : Table ConversationState.workspaceId) :
      StepKind writable db { db with workspaceConversations }
  | retention (id : String) (expiresAt : Option Nat) :
      StepKind writable db (db.step (.setRetention id expiresAt))

/-- Every step is of one of these kinds. The conversion of a workspace is where
the condition is not checked. -/
theorem step_kind {writable : Conversation → Prop} {operation : Operation}
    (hwritable : ∀ document : Conversation, document.status = .retained → writable document)
    (hconvert : ∀ uuids workspaceId db' u,
      operation = .convertLegacyConversations uuids workspaceId →
      convertWorkspace uuids workspaceId db = .ok (u, db') → Effects writable db db') :
    StepKind writable db (db.step operation) := by
  cases operation with
  | commitConversationTurn uuids turn =>
      refine committed_of (.effects .refl) fun h => ?_
      exact .effects (writeRecord_effects hwritable h)
  | appendWorkspaceMessage uuid workspaceId message =>
      refine committed_of (.effects .refl) fun h => ?_
      exact .effects (writeRecord_effects hwritable h)
  | clearConversations ids clearing now still =>
      show StepKind writable db (clearConversations db ids clearing now still).2
      rcases db.clearConversations_eq ids clearing now still with h | ⟨documents, h⟩
      · rw [h]
        exact .effects .refl
      · rw [h]
        exact .cleared documents clearing now
  | convertLegacyConversations uuids workspaceId =>
      refine committed_of (.effects .refl) fun h => ?_
      exact .effects (hconvert uuids workspaceId _ _ rfl h)
  | insertWorkspace row => exact .workspaces _
  | requestPurge workspaceId now => exact .workspaces _
  | markHistory state => exact .states _
  | setRetention id expiresAt => exact .retention id expiresAt

theorem step_kind_any (operation : Operation) :
    StepKind (fun _ => True) db (db.step operation) :=
  step_kind (fun _ _ => trivial) fun _ _ _ _ _ h => convertWorkspace_effects h

/-- The rows after the start of a retention. -/
theorem mem_setRetention {id : String} {expiresAt : Option Nat} {row' : Conversation}
    (h : row' ∈ (db.step (.setRetention id expiresAt)).conversations.rows) :
    ∃ row ∈ db.conversations.rows, row' = { row with
      expiresAt := row'.expiresAt, retentionSet := row'.retentionSet } := by
  obtain ⟨row, hrow, rfl⟩ := List.mem_map.mp h
  refine ⟨row, hrow, ?_⟩
  split <;> rfl

theorem StepKind.kept {writable : Conversation → Prop} (h : StepKind writable db db')
    (hkept : db.Kept) : db'.Kept := by
  cases h with
  | effects h => exact h.invariant (fun hstep hbefore => hstep.kept hbefore) hkept
  | cleared documents clearing now => exact hkept.cleared documents clearing now
  | workspaces => exact ⟨hkept.documents, hkept.refs, hkept.stored⟩
  | states => exact ⟨hkept.documents, hkept.refs, hkept.stored⟩
  | retention id expiresAt =>
      refine ⟨fun row' hrow' => ?_, fun record hrecord => ?_, hkept.stored⟩
      · obtain ⟨row, hrow, hsame⟩ := mem_setRetention hrow'
        rw [hsame]
        exact (hkept.documents row hrow).of_totals rfl rfl rfl rfl
      · obtain ⟨row, hrow, hid⟩ := hkept.refs record hrecord
        refine ⟨_, List.mem_map_of_mem hrow, ?_⟩
        rw [← hid]
        split <;> rfl

/-- A document stays, its last position does not decrease, and it is not
retained again. -/
def Later (db db' : Database) : Prop :=
  ∀ document ∈ db.conversations.rows, ∃ document' ∈ db'.conversations.rows,
    document'.id = document.id ∧ document.lastSeq ≤ document'.lastSeq ∧
      (document.status ≠ .retained → document'.status ≠ .retained)

theorem Later.refl (db : Database) : Later db db :=
  fun document hmem => ⟨document, hmem, rfl, Nat.le_refl _, id⟩

theorem Later.trans {db'' : Database} (h : Later db db') (h' : Later db' db'') : Later db db'' := by
  intro document hmem
  obtain ⟨document', hmem', hid, hle, hstatus⟩ := h document hmem
  obtain ⟨document'', hmem'', hid', hle', hstatus'⟩ := h' document' hmem'
  exact ⟨document'', hmem'', hid'.trans hid, hle.trans hle', fun h => hstatus' (hstatus h)⟩

theorem Effect.later {writable : Conversation → Prop} (h : Effect writable db db') :
    Later db db' := by
  cases h with
  | @document row hblank =>
      intro document hmem
      refine ⟨document, ?_, rfl, Nat.le_refl _, id⟩
      rcases rows_insertDocument db.conversations row with hrows | ⟨-, hrows⟩
      · exact hrows.symm ▸ hmem
      · exact hrows.symm ▸ List.mem_append_left _ hmem
  | charge => exact .refl db
  | @record document write hdocument =>
      intro row hrow
      refine ⟨_, List.mem_map_of_mem hrow, ?_⟩
      split
      case isTrue hid =>
        rw [eq_of_id hdocument hrow hid]
        exact ⟨rfl, Nat.le_add_right _ _, id⟩
      case isFalse => exact ⟨rfl, Nat.le_refl _, id⟩
  | legacy => exact .refl db

theorem StepKind.later {writable : Conversation → Prop} (h : StepKind writable db db') :
    Later db db' := by
  cases h with
  | effects h =>
      exact h.invariant (fun hstep hbefore => hbefore.trans hstep.later) (.refl db)
  | cleared documents clearing now =>
      intro row hrow
      refine ⟨_, List.mem_map_of_mem hrow, ?_⟩
      split
      · refine ⟨rfl, Nat.le_refl _, fun _ => ?_⟩
        cases clearing <;> exact ConversationStatus.noConfusion
      · exact ⟨rfl, Nat.le_refl _, id⟩
  | workspaces => exact .refl db
  | states => exact .refl db
  | retention id expiresAt =>
      intro row hrow
      refine ⟨_, List.mem_map_of_mem hrow, ?_⟩
      split <;> exact ⟨rfl, Nat.le_refl _, fun h => h⟩

/-! ### Cleared conversations -/

/-- A cleared conversation has no records. -/
def Database.Cleared (db : Database) : Prop :=
  ∀ document ∈ db.conversations.rows, document.status ≠ .retained → db.recordsOf document.id = []

/-- Nothing more is inserted into a cleared conversation. -/
def Buried (db db' : Database) : Prop :=
  ∀ document ∈ db.conversations.rows, document.status ≠ .retained →
    db'.insertedOf document.id = db.insertedOf document.id

/-- A record that is written to a retained document is in no cleared one. -/
theorem ne_of_retained {document row : Conversation} (hmem : document ∈ db.conversations.rows)
    (hretained : document.status = .retained) (hrow : row ∈ db.conversations.rows)
    (hstatus : row.status ≠ .retained) : document.id ≠ row.id := by
  intro hid
  rw [← eq_of_id hrow hmem hid] at hstatus
  exact hstatus hretained

theorem Effect.stays_cleared (h : Effect (·.status = .retained) db db') (hcleared : db.Cleared) :
    db'.Cleared ∧ Buried db db' := by
  cases h with
  | @document row hblank =>
      refine ⟨fun document hmem hstatus => ?_, fun _ _ _ => rfl⟩
      rcases rows_insertDocument db.conversations row with hrows | ⟨-, hrows⟩
      · exact hcleared document (hrows ▸ hmem) hstatus
      · rw [Database.withDocument, hrows, List.mem_append, List.mem_singleton] at hmem
        rcases hmem with hmem | rfl
        · exact hcleared document hmem hstatus
        · obtain ⟨_, _, _, _, _, rfl⟩ := hblank
          exact absurd rfl hstatus
  | charge => exact ⟨hcleared, fun _ _ _ => rfl⟩
  | @record document write hdocument hfree hretained =>
      refine ⟨fun row' hrow' hstatus => ?_, fun row hrow hstatus => ?_⟩
      · rcases mem_withRecord hdocument hrow' with rfl | ⟨hrow, hid⟩
        · exact absurd hretained hstatus
        · rw [recordsOf_withRecord, if_neg (Ne.symm hid), List.append_nil]
          exact hcleared row' hrow hstatus
      · rw [insertedOf_withRecord, if_neg (ne_of_retained hdocument hretained hrow hstatus),
          List.append_nil]
  | legacy => exact ⟨hcleared, fun _ _ _ => rfl⟩

/-- What a later state of a cleared document says about an earlier one. -/
theorem Buried.trans {db'' : Database} (h : Buried db db') (hlater : Later db db')
    (h' : Buried db' db'') : Buried db db'' := by
  intro document hmem hstatus
  obtain ⟨document', hmem', hid, -, hstatus'⟩ := hlater document hmem
  rw [← h document hmem hstatus, ← hid]
  exact h' document' hmem' (hstatus' hstatus)

theorem StepKind.stays_cleared (h : StepKind (·.status = .retained) db db') (hcleared : db.Cleared) :
    db'.Cleared ∧ Buried db db' := by
  cases h with
  | effects h =>
      refine (h.invariant (P := fun db₁ => db₁.Cleared ∧ Buried db db₁ ∧ Later db db₁) ?_
        ⟨hcleared, fun _ _ _ => rfl, .refl db⟩).imp_right And.left
      rintro db₁ db₂ hstep ⟨hbefore, hburied, hlater⟩
      obtain ⟨hafter, hstill⟩ := hstep.stays_cleared hbefore
      exact ⟨hafter, hburied.trans hlater hstill, hlater.trans hstep.later⟩
  | cleared documents clearing now =>
      refine ⟨fun row' hrow' hstatus => ?_, fun _ _ _ => rfl⟩
      obtain ⟨row, hrow, ⟨hcontains, rfl⟩ | ⟨hkept, rfl⟩⟩ := Database.mem_cleared hrow'
      · rw [Database.recordsOf_cleared]
        exact if_pos hcontains
      · rw [Database.recordsOf_cleared, if_neg (by rw [hkept]; exact Bool.false_ne_true)]
        exact hcleared row' hrow hstatus
  | workspaces => exact ⟨hcleared, fun _ _ _ => rfl⟩
  | states => exact ⟨hcleared, fun _ _ _ => rfl⟩
  | retention id expiresAt =>
      refine ⟨fun row' hrow' hstatus => ?_, fun _ _ _ => rfl⟩
      obtain ⟨row, hrow, hsame⟩ := mem_setRetention hrow'
      rw [hsame] at hstatus ⊢
      exact hcleared row hrow hstatus

/-! ### Charged bytes -/

/-- The bytes that a workspace is charged for. -/
def Database.chargedTo (db : Database) (workspaceId : String) : Nat :=
  ((db.workspaceConversations.get? workspaceId).map (·.bytes)).getD 0

/-- The bytes of the stored records that the workspace wrote. -/
def Database.writtenBy (db : Database) (workspaceId : String) : Nat :=
  totalBytes (db.records.filter (·.workspaceId = workspaceId))

def Database.Charged (db : Database) : Prop :=
  ∀ workspaceId, db.chargedTo workspaceId = db.writtenBy workspaceId

theorem totalBytes_append (before after : List ConversationRecord) :
    totalBytes (before ++ after) = totalBytes before + totalBytes after := by
  rw [totalBytes, List.map_append, List.sum_append]
  rfl

theorem totalBytes_split (p : ConversationRecord → Bool) (records : List ConversationRecord) :
    totalBytes records = totalBytes (records.filter p) + totalBytes (records.filter (!p ·)) := by
  induction records with
  | nil => rfl
  | cons record records ih =>
      have hcons : ∀ rest, totalBytes (record :: rest) = record.bytes + totalBytes rest := by
        intro rest
        rw [totalBytes, List.map_cons, List.sum_cons]
        rfl
      cases hp : p record with
      | true =>
          rw [List.filter_cons_of_pos hp, List.filter_cons_of_neg (by simp [hp]), hcons, hcons, ih]
          omega
      | false =>
          rw [List.filter_cons_of_neg (by simp [hp]), List.filter_cons_of_pos (by simp [hp]), hcons,
            hcons, ih]
          omega

/-- A refund changes one workspace. -/
theorem get?_refund (states : Table ConversationState.workspaceId) (entry : String × Nat)
    (workspaceId : String) :
    (((refund states entry).get? workspaceId).map (·.bytes)).getD 0 =
      ((states.get? workspaceId).map (·.bytes)).getD 0 -
        if entry.1 = workspaceId then entry.2 else 0 := by
  rw [refund, Table.get?_updateAt]
  by_cases hid : workspaceId = entry.1
  · rw [if_pos hid, if_pos hid.symm, ← hid, Option.map_map]
    cases states.get? workspaceId <;> simp
  · rw [if_neg hid, if_neg (Ne.symm hid), Nat.sub_zero]

theorem get?_foldl_refund (entries : List (String × Nat)) (states : Table ConversationState.workspaceId)
    (workspaceId : String) :
    (((entries.foldl refund states).get? workspaceId).map (·.bytes)).getD 0 =
      ((states.get? workspaceId).map (·.bytes)).getD 0 -
        ((entries.filter (·.1 = workspaceId)).map Prod.snd).sum := by
  induction entries generalizing states with
  | nil => rfl
  | cons entry entries ih =>
      rw [List.foldl_cons, ih, get?_refund, List.filter_cons]
      by_cases hid : entry.1 = workspaceId
      · simp [hid]
        omega
      · simp [hid]

/-- The entry of a workspace in `charged`. -/
theorem sum_charged (records : List ConversationRecord) (workspaceId : String) :
    (((charged records).filter (·.1 = workspaceId)).map Prod.snd).sum =
      totalBytes (records.filter (·.workspaceId = workspaceId)) := by
  have hfilter : (charged records).filter (·.1 = workspaceId) =
      (List.replicate ((records.map (·.workspaceId)).dedup.count workspaceId) workspaceId).map
        fun id => (id, totalBytes (records.filter (·.workspaceId = id))) := by
    rw [charged, List.filter_map, ← List.filter_eq]
    rfl
  rw [hfilter, List.count_dedup, List.map_map]
  split
  case isTrue => simp
  case isFalse hnone =>
    have hempty : records.filter (·.workspaceId = workspaceId) = [] := by
      refine List.filter_eq_nil_iff.mpr fun record hrecord => ?_
      rw [decide_eq_true_eq]
      exact fun hid => hnone (List.mem_map.mpr ⟨record, hrecord, hid⟩)
    rw [hempty]
    rfl

theorem Database.Charged.cleared (h : db.Charged) (documents : List String) (clearing : Clearing)
    (now : Nat) : (db.cleared documents clearing now).Charged := by
  intro workspaceId
  have hcharged := h workspaceId
  rw [chargedTo, writtenBy, totalBytes_split (fun record => documents.contains record.conversationRef)]
    at hcharged
  rw [chargedTo, writtenBy, Database.cleared, get?_foldl_refund, sum_charged, hcharged,
    List.filter_filter, List.filter_filter, List.filter_filter, List.filter_filter]
  simp only [Bool.and_comm]
  omega

/-- A charge and its record. -/
theorem Database.Charged.written (h : db.Charged) (document : Conversation)
    (record : ConversationRecord) :
    ((db.withCharge record.workspaceId record.bytes).withRecord document record).Charged := by
  intro workspaceId
  have hcharged := h workspaceId
  have hrow : ((((db.chargeable record.workspaceId).updateAt record.workspaceId
      (fun row => { row with bytes := row.bytes + record.bytes }) fun _ => rfl).get?
        workspaceId).map (·.bytes)).getD 0 =
      db.chargedTo workspaceId + if record.workspaceId = workspaceId then record.bytes else 0 := by
    rw [Table.get?_updateAt, chargeable, Table.get?_insert, Table.get?_insert, chargedTo]
    by_cases hid : record.workspaceId = workspaceId
    · rw [if_pos hid.symm, if_pos hid, if_pos rfl, hid]
      cases db.workspaceConversations.get? workspaceId <;> simp
    · rw [if_neg (Ne.symm hid), if_neg hid, if_neg hid, Option.or_none, Nat.add_zero]
  show (((_ : Table ConversationState.workspaceId).get? workspaceId).map (·.bytes)).getD 0 =
    totalBytes ((db.records ++ [record]).filter _)
  rw [List.filter_append, totalBytes_append, ← writtenBy, ← hcharged]
  refine hrow.trans ?_
  congr 1
  rw [List.filter_cons, List.filter_nil]
  simp only [decide_eq_true_eq]
  split <;> simp [totalBytes]

theorem markHistory_bytes (states : Table ConversationState.workspaceId) (state : ConversationState)
    (workspaceId : String) :
    (((markHistory states state).get? workspaceId).map (·.bytes)).getD 0 =
      ((states.get? workspaceId).map (·.bytes)).getD 0 := by
  rw [markHistory, Table.get?_insert, Table.get?_updateAt]
  by_cases hid : workspaceId = state.workspaceId
  · rw [if_pos hid, if_pos hid.symm, hid]
    cases states.get? state.workspaceId <;> rfl
  · rw [if_neg hid, if_neg (Ne.symm hid), Option.or_none]

/-- Where the groups of a conversion have their records. -/
theorem step_charged {operation : Operation} (h : db.Charged)
    (hconvert : ∀ uuids workspaceId, operation = .convertLegacyConversations uuids workspaceId →
      ∀ group ∈ db.groups workspaceId, db.converted workspaceId group = true) :
    (db.step operation).Charged := by
  have hwrite : ∀ {uuid conversationId write},
      (committed (writeRecord uuid conversationId write) db).Charged := by
    intro uuid conversationId write
    refine committed_of h fun hrun => ?_
    obtain ⟨row, document, -, -, rfl | ⟨-, -, rfl⟩⟩ := writeRecord_eq_ok hrun
    · exact h
    · exact (show (db.withDocument row).Charged from h).written document (recordOf document write)
  cases operation with
  | commitConversationTurn uuids turn => exact hwrite
  | appendWorkspaceMessage uuid workspaceId message => exact hwrite
  | clearConversations ids clearing now still =>
      show (clearConversations db ids clearing now still).2.Charged
      rcases db.clearConversations_eq ids clearing now still with heq | ⟨documents, heq⟩
      · rw [heq]
        exact h
      · rw [heq]
        exact h.cleared documents clearing now
  | convertLegacyConversations uuids workspaceId =>
      refine committed_of h fun hrun => ?_
      rw [convertWorkspace_of_converted (hconvert uuids workspaceId rfl) hrun]
      exact h
  | insertWorkspace row => exact h
  | requestPurge workspaceId now => exact h
  | markHistory state =>
      intro workspaceId
      exact (markHistory_bytes db.workspaceConversations state workspaceId).trans (h workspaceId)
  | setRetention id expiresAt => exact h

/-! ### Every run -/

/-- What holds of a document, its stored records, and all records that were
ever inserted into it. -/
structure Consistent (document : Conversation) (records inserted : List ConversationRecord) :
    Prop where
  contiguous : records.IsChain fun record next => next.firstSeq = record.lastSeq + 1
  ordered : records.Pairwise fun record later =>
    record.recordSeq < later.recordSeq ∧ record.lastSeq < later.firstSeq
  positions : ∀ record ∈ records,
    record.seqs = List.range' record.firstSeq (record.lastSeq + 1 - record.firstSeq)
  last : ∀ record, records.getLast? = some record → record.lastSeq = document.lastSeq
  /-- No position is used for two messages. -/
  once : (inserted.flatMap (·.seqs)).Nodup
  recordCount : document.recordCount = records.length
  messageCount : document.messageCount = totalMessages records
  bytes : document.bytes = totalBytes records
  keys : (records.map (·.recordKey)).Nodup

theorem Kept.consistent {document : Conversation} {records inserted : List ConversationRecord}
    (h : Kept document records inserted) : Consistent document records inserted := by
  obtain ⟨before, hbefore⟩ := h.stored
  obtain ⟨start, -, hfollows⟩ := follows_append.mp (hbefore.symm ▸ h.follows)
  have hnumbers : records.Pairwise fun record later => record.recordSeq < later.recordSeq := by
    rw [← List.pairwise_map (R := (· < ·)), h.recordSeq]
    exact List.pairwise_lt_range' 1
  refine ⟨hfollows.chain, hnumbers.and hfollows.pairwise, fun record hrecord => ?_,
    fun record hlast => hfollows.getLast hlast, ?_, h.recordCount, h.messageCount, h.bytes, h.keys⟩
  · obtain ⟨-, -, hlength, hseqs⟩ := hfollows.between record hrecord
    rw [hseqs, hlength, Nat.add_sub_cancel_left]
  · rw [h.follows.seqs]
    exact List.nodup_range' 1

theorem Database.Fresh.kept (h : db.Fresh) : db.Kept := by
  refine ⟨fun document hmem => ?_, fun record hmem => ?_, fun record hmem => ?_⟩
  · rw [h.conversations] at hmem
    cases hmem
  · rw [h.inserted] at hmem
    cases hmem
  · rw [h.records] at hmem
    cases hmem

theorem Database.Fresh.cleared (h : db.Fresh) : db.Cleared := by
  intro document hmem
  rw [h.conversations] at hmem
  cases hmem

theorem Database.Fresh.charged (h : db.Fresh) : db.Charged := by
  intro workspaceId
  rw [chargedTo, writtenBy, h.records]
  cases hrow : db.workspaceConversations.get? workspaceId with
  | none => rfl
  | some row => exact h.uncharged row (Table.get?_eq_some.mp hrow).1

/-- The steps in which no conversion writes into a cleared conversation. -/
def UnrevivedSteps (db : Database) (operation : Operation) (db' : Database) : Prop :=
  Transacts db operation db' ∧ ∀ uuids workspaceId,
    operation = .convertLegacyConversations uuids workspaceId → db.Unrevived workspaceId

/-- The steps in which no conversion has a record to write. -/
def ConvertedSteps (db : Database) (operation : Operation) (db' : Database) : Prop :=
  Transacts db operation db' ∧ ∀ uuids workspaceId,
    operation = .convertLegacyConversations uuids workspaceId →
      ∀ group ∈ db.groups workspaceId, db.converted workspaceId group = true

theorem UnrevivedSteps.kind {operation : Operation} (h : UnrevivedSteps db operation db') :
    StepKind (·.status = .retained) db db' := by
  obtain ⟨rfl, hunrevived⟩ := h
  refine step_kind (fun _ hretained => hretained) ?_
  intro uuids workspaceId _ _ hoperation hrun
  exact convertWorkspace_effects_retained (hunrevived uuids workspaceId hoperation) hrun

/-- Documents and records agree in every run. Where no conversion writes into a
cleared conversation, it has no records and gets none; where no conversion
writes a record at all, the bytes of a workspace are those of its records. -/
theorem conversationDocuments_consistent {init : Database} (hfresh : init.Fresh) :
    (∀ {before after : List Operation} {db db' : Database},
      Run Transacts init before db → Run Transacts db after db' →
        (∀ document ∈ db.conversations.rows,
          Consistent document (db.recordsOf document.id) (db.insertedOf document.id)) ∧
        Later db db') ∧
    (∀ {before after : List Operation} {db db' : Database},
      Run UnrevivedSteps init before db → Run UnrevivedSteps db after db' →
        ∀ document ∈ db.conversations.rows, document.status ≠ .retained →
          db.recordsOf document.id = [] ∧ db'.recordsOf document.id = [] ∧
            db'.insertedOf document.id = db.insertedOf document.id) ∧
    ∀ {operations : List Operation} {db : Database},
      Run ConvertedSteps init operations db → db.Charged := by
  refine ⟨fun {before after db db'} hbefore hafter => ⟨fun document hmem => ?_, ?_⟩,
    fun {before after db db'} hbefore hafter document hmem hstatus => ?_,
    fun {operations db} hrun => ?_⟩
  · have hkept : db.Kept := by
      refine hbefore.invariant ?_ hfresh.kept
      rintro db operation _ rfl hkept
      exact (step_kind_any operation).kept hkept
    exact (hkept.documents document hmem).consistent
  · refine hafter.relates Later.refl Later.trans (I := fun _ => True) (fun _ _ => trivial) ?_ trivial
    rintro db operation _ rfl -
    exact (step_kind_any operation).later
  · have hcleared : db.Cleared :=
      hbefore.invariant (fun hstep h => (hstep.kind.stays_cleared h).1) hfresh.cleared
    obtain ⟨hcleared', hburied, hlater⟩ : db'.Cleared ∧ Buried db db' ∧ Later db db' := by
      -- the induction needs that no document is revived, and that none of them gets a record
      refine hafter.invariant (I := fun db₁ => db₁.Cleared ∧ Buried db db₁ ∧ Later db db₁) ?_
        ⟨hcleared, fun _ _ _ => rfl, .refl db⟩
      rintro db₁ operation db₂ hstep ⟨hbefore, hburied, hlater⟩
      obtain ⟨hnext, hstill⟩ := hstep.kind.stays_cleared hbefore
      exact ⟨hnext, hburied.trans hlater hstill, hlater.trans hstep.kind.later⟩
    obtain ⟨document', hmem', hid, -, hstatus'⟩ := hlater document hmem
    exact ⟨hcleared document hmem hstatus, hid ▸ hcleared' document' hmem' (hstatus' hstatus),
      hburied document hmem hstatus⟩
  · refine hrun.invariant ?_ hfresh.charged
    rintro db operation _ ⟨rfl, hconvert⟩ hcharged
    exact step_charged hcharged hconvert

/-! ### Two workspaces with rows of one conversation -/

namespace Legacy

/-- The identity of a row: the conversation and the principal are the same in
both workspaces. -/
def identity (turn_id : String) : ConversationMessageIdentity where
  authority := .external
  conversation_id := "00000000-0000-0000-0000-000000000000"
  request_id := "00000000-0000-0000-0000-000000000000"
  turn_id := turn_id
  request_fingerprint := "cccccccccccccccccccccccccccccccccccccccccccccccccccccccccccccccc"
  event_id := "00000000-0000-0000-0000-000000000000"
  message_id := "m"
  sequence := 0
  revision := 1
  fact := none

def row (workspaceId turn_id : String) : LegacyRow where
  messageId := "m"
  role := .assistant
  content := "hello"
  occurredAt := "2026-01-01T00:00:00.000Z"
  metadata := []
  identity := some (identity turn_id)
  workspaceId := workspaceId
  seq := 1

def workspaces : Table Workspace.id :=
  ⟨[⟨"first", "owner", none⟩, ⟨"second", "owner", none⟩], by decide⟩

def init : Database where
  workspaces := workspaces
  conversations := .empty
  records := []
  workspaceConversations := .empty
  legacy := [row "first" "00000000-0000-0000-0000-000000000000",
    row "second" "ffffffff-ffff-ffff-ffff-ffffffffffff"]
  inserted := []

/-- The rows of the first workspace are converted, the conversation is deleted,
and the rows of the second workspace are converted. -/
def operations : List Operation :=
  [.convertLegacyConversations (fun _ => "document") "first",
    .clearConversations ["document"] .deleted 1 fun _ => true,
    .convertLegacyConversations (fun _ => "other") "second"]

theorem init_fresh : init.Fresh := ⟨rfl, rfl, rfl, nofun⟩

theorem run : Run Transacts init operations (operations.foldl Database.step init) :=
  .of_foldl Database.step operations init

end Legacy

/-- The bytes of a record are those of its document. -/
theorem Effect.measured {writable : Conversation → Prop} (h : Effect writable db db')
    (hdb : ∀ record ∈ db.records, record.bytes = record.document.byteLength) :
    ∀ record ∈ db'.records, record.bytes = record.document.byteLength := by
  cases h with
  | document => exact hdb
  | charge => exact hdb
  | record write =>
      intro record hrecord
      rcases List.mem_append.mp hrecord with hold | hnew
      · exact hdb record hold
      · rw [List.mem_singleton.mp hnew]
        rfl
  | legacy => exact hdb

/-- After the first conversion of an upgrade, a workspace has a record and is
charged for nothing. -/
theorem Legacy.converted_uncharged :
    ¬(Legacy.init.step (.convertLegacyConversations (fun _ => "document") "first")).Charged := by
  generalize hdb : Legacy.init.step (.convertLegacyConversations (fun _ => "document") "first") = db
  have hmeasured : ∀ record ∈ db.records, record.bytes = record.document.byteLength := by
    rw [← hdb]
    refine committed_of (P := fun db : Database =>
      ∀ record ∈ db.records, record.bytes = record.document.byteLength)
      (fun record hrecord => (by cases hrecord)) fun h => ?_
    exact (convertWorkspace_effects h).invariant (fun hstep => hstep.measured)
      fun record hrecord => (by cases hrecord)
  have hfirst : db.records.map (·.workspaceId) = ["first"] ∧ db.chargedTo "first" = 0 := by
    rw [← hdb]
    decide +kernel
  obtain ⟨hrecords, hcharged⟩ := hfirst
  obtain ⟨record, hrecord, hworkspace⟩ := List.map_eq_singleton_iff.mp hrecords
  have hfilter : [record].filter (·.workspaceId = "first") = [record] := by simp [hworkspace]
  intro hsame
  have hbytes := hsame "first"
  rw [hcharged, Database.writtenBy, hrecord, hfilter, totalBytes, List.map_singleton, List.sum_singleton,
    hmeasured record (by rw [hrecord]; exact List.mem_singleton_self _)] at hbytes
  exact absurd hbytes record.document.byteLength_pos.ne

/-- The deleted conversation has a record again; and already after the first
conversion the workspace is charged for nothing. -/
theorem conversationDocuments_revived :
    (¬∀ {init : Database}, init.Fresh → ∀ {operations : List Operation} {db : Database},
      Run Transacts init operations db →
        (∀ document ∈ db.conversations.rows,
          Consistent document (db.recordsOf document.id) (db.insertedOf document.id)) ∧
        db.Cleared) ∧
      ∃ operation db, Run Transacts Legacy.init [operation] db ∧ ¬db.Charged := by
  refine ⟨fun h => ?_, .convertLegacyConversations (fun _ => "document") "first", _,
    .single rfl, Legacy.converted_uncharged⟩
  obtain ⟨-, hcleared⟩ := h Legacy.init_fresh Legacy.run
  have hrevived : ((Legacy.operations.foldl Database.step Legacy.init).conversations.rows.any
      fun document => document.status = .deleted &&
        ((Legacy.operations.foldl Database.step Legacy.init).recordsOf document.id).length = 1) =
      true := by
    decide +kernel
  obtain ⟨document, hmem, hrecords⟩ := List.any_eq_true.mp hrevived
  rw [Bool.and_eq_true, decide_eq_true_eq, decide_eq_true_eq] at hrecords
  rw [hcleared document hmem (by rw [hrecords.1]; exact ConversationStatus.noConfusion)] at hrecords
  exact absurd hrecords.2 (by decide)

/-- The first workspace is converted and its conversation deleted; another run
writes one message. -/
theorem conversationDocuments_deleted :
    (∀ document ∈ (Legacy.operations.foldl Database.step Legacy.init).conversations.rows,
      Consistent document
        ((Legacy.operations.foldl Database.step Legacy.init).recordsOf document.id)
        ((Legacy.operations.foldl Database.step Legacy.init).insertedOf document.id)) ∧
    (∀ document ∈ ((Legacy.operations.take 2).foldl Database.step Legacy.init).conversations.rows,
      document.status ≠ .retained →
        ((Legacy.operations.take 2).foldl Database.step Legacy.init).recordsOf document.id = []) ∧
    (Legacy.init.step (.appendWorkspaceMessage "document" "first"
      (Legacy.row "first" "").toMessageInput)).Charged := by
  obtain ⟨hrun, hunrevived, hconverted⟩ := conversationDocuments_consistent Legacy.init_fresh
  refine ⟨(hrun Legacy.run (.nil _)).1, fun document hmem hstatus => ?_,
    hconverted (.single ⟨rfl, nofun⟩)⟩
  have hfirst : Run UnrevivedSteps Legacy.init (Legacy.operations.take 2)
      ((Legacy.operations.take 2).foldl Database.step Legacy.init) := by
    refine .cons ⟨rfl, ?_⟩ (.cons ⟨rfl, nofun⟩ (.nil _))
    intro uuids workspaceId _ group _ document htarget
    exact (nomatch target_mem htarget)
  exact (hunrevived hfirst (.nil _) document hmem hstatus).1

end PocketCoder.Conversations
