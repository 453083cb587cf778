import PocketCoder.Conversations.Effects

/-!
The records of a document along every run: their positions continue each other,
the totals on the document count them, and what clearing leaves.

`Follows start records stop` says that the messages of the records have the
positions from `start + 1` to `stop`. The records that were ever inserted into
a document follow from 0 to its `lastSeq`, and the stored ones are the last of
them.
-/

namespace PocketCoder.Conversations

open PocketCoder.Foundation PocketCoder.Foundation.Transaction PocketCoder.Executions

/-! ### Positions -/

/-- The positions of the messages of a record. -/
def ConversationRecord.seqs (record : ConversationRecord) : List Nat :=
  record.document.messages.map (·.seq)

def Follows : Nat → List ConversationRecord → Nat → Prop
  | start, [], stop => start = stop
  | start, record :: records, stop =>
      record.firstSeq = start + 1 ∧ record.lastSeq = start + record.document.messages.length ∧
        record.seqs = List.range' (start + 1) record.document.messages.length ∧
        Follows record.lastSeq records stop

theorem follows_append {before after : List ConversationRecord} {start stop : Nat} :
    Follows start (before ++ after) stop ↔
      ∃ middle, Follows start before middle ∧ Follows middle after stop := by
  induction before generalizing start with
  | nil => simp [Follows]
  | cons record before ih =>
      rw [List.cons_append, Follows, ih]
      constructor
      · rintro ⟨hfirst, hlast, hseqs, middle, hbefore, hafter⟩
        exact ⟨middle, ⟨hfirst, hlast, hseqs, hbefore⟩, hafter⟩
      · rintro ⟨middle, ⟨hfirst, hlast, hseqs, hbefore⟩, hafter⟩
        exact ⟨hfirst, hlast, hseqs, middle, hbefore, hafter⟩

theorem follows_recordOf (document : Conversation) (write : RecordWrite) :
    Follows document.lastSeq [recordOf document write] (recordOf document write).lastSeq := by
  refine ⟨rfl, rfl, ?_, rfl⟩
  show (buildRecordDocument write.toRecordInput (document.lastSeq + 1)).messages.map (·.seq) =
    List.range' _ (buildRecordDocument write.toRecordInput (document.lastSeq + 1)).messages.length
  rw [seq_buildRecordDocument, length_buildRecordDocument]

theorem Follows.le {records : List ConversationRecord} {start stop : Nat}
    (h : Follows start records stop) : start ≤ stop := by
  induction records generalizing start with
  | nil => exact Nat.le_of_eq h
  | cons record records ih =>
      obtain ⟨-, hlast, -, hrest⟩ := h
      have hle := ih hrest
      omega

theorem Follows.seqs {records : List ConversationRecord} {start stop : Nat}
    (h : Follows start records stop) :
    records.flatMap (·.seqs) = List.range' (start + 1) (stop - start) := by
  induction records generalizing start with
  | nil =>
      obtain rfl : start = stop := h
      rw [Nat.sub_self]
      rfl
  | cons record records ih =>
      obtain ⟨-, hlast, hseqs, hrest⟩ := h
      have hle := hrest.le
      have hsplit : stop - start =
          record.document.messages.length + (stop - record.lastSeq) := by omega
      have hnext : record.lastSeq + 1 = start + 1 + record.document.messages.length := by omega
      rw [List.flatMap_cons, hseqs, ih hrest, hsplit, hnext, List.range'_append_1]

/-- Every record lies between the ends. -/
theorem Follows.between {records : List ConversationRecord} {start stop : Nat}
    (h : Follows start records stop) :
    ∀ record ∈ records, start < record.firstSeq ∧ record.lastSeq ≤ stop ∧
      record.lastSeq + 1 = record.firstSeq + record.document.messages.length ∧
      record.seqs = List.range' record.firstSeq record.document.messages.length := by
  induction records generalizing start with
  | nil => exact fun _ hmem => (nomatch hmem)
  | cons record records ih =>
      obtain ⟨hfirst, hlast, hseqs, hrest⟩ := h
      have hle := hrest.le
      intro other hmem
      rcases List.mem_cons.mp hmem with rfl | hmem
      · refine ⟨by omega, hle, by omega, ?_⟩
        rw [hfirst]
        exact hseqs
      · obtain ⟨hstart, hother⟩ := ih hrest other hmem
        exact ⟨by omega, hother⟩

theorem Follows.chain {records : List ConversationRecord} {start stop : Nat}
    (h : Follows start records stop) :
    records.IsChain fun record next => next.firstSeq = record.lastSeq + 1 := by
  induction records generalizing start with
  | nil => exact .nil
  | cons record records ih =>
      obtain ⟨-, -, -, hrest⟩ := h
      cases records with
      | nil => exact .singleton record
      | cons next records => exact .cons_cons hrest.1 (ih hrest)

theorem Follows.pairwise {records : List ConversationRecord} {start stop : Nat}
    (h : Follows start records stop) :
    records.Pairwise fun record later => record.lastSeq < later.firstSeq := by
  induction records generalizing start with
  | nil => exact .nil
  | cons record records ih =>
      obtain ⟨-, -, -, hrest⟩ := h
      exact .cons (fun later hlater => (hrest.between later hlater).1) (ih hrest)

theorem Follows.getLast {records : List ConversationRecord} {start stop : Nat}
    (h : Follows start records stop) {record : ConversationRecord}
    (hlast : records.getLast? = some record) : record.lastSeq = stop := by
  obtain ⟨before, rfl⟩ := List.getLast?_eq_some_iff.mp hlast
  obtain ⟨middle, -, -, -, -, hstop⟩ := follows_append.mp h
  exact hstop

/-! ### A document and its records -/

def totalMessages (records : List ConversationRecord) : Nat :=
  (records.map fun record => record.document.messages.length).sum

/-- The invariant of a document, its stored records, and all that were ever
inserted into it. -/
structure Kept (document : Conversation) (records inserted : List ConversationRecord) : Prop where
  follows : Follows 0 inserted document.lastSeq
  stored : records <:+ inserted
  recordCount : document.recordCount = records.length
  messageCount : document.messageCount = totalMessages records
  bytes : document.bytes = totalBytes records
  recordSeq : records.map (·.recordSeq) = List.range' 1 records.length
  keys : (records.map (·.recordKey)).Nodup

variable {document document' : Conversation} {records inserted : List ConversationRecord}

/-- The invariant reads the totals and the last position of the document. -/
theorem Kept.of_totals (h : Kept document records inserted)
    (hlast : document'.lastSeq = document.lastSeq)
    (hcount : document'.recordCount = document.recordCount)
    (hmessages : document'.messageCount = document.messageCount)
    (hbytes : document'.bytes = document.bytes) : Kept document' records inserted where
  follows := by
    rw [hlast]
    exact h.follows
  stored := h.stored
  recordCount := hcount.trans h.recordCount
  messageCount := hmessages.trans h.messageCount
  bytes := hbytes.trans h.bytes
  recordSeq := h.recordSeq
  keys := h.keys

theorem Kept.blank (h : document.Blank) : Kept document [] [] := by
  obtain ⟨_, _, _, _, _, rfl⟩ := h
  exact ⟨rfl, List.suffix_rfl, rfl, rfl, rfl, rfl, List.nodup_nil⟩

theorem Kept.record (h : Kept document records inserted) (write : RecordWrite)
    (hfree : ∀ other ∈ records, other.recordKey ≠ write.recordKey) :
    Kept (countRecord document (recordOf document write) document)
      (records ++ [recordOf document write]) (inserted ++ [recordOf document write]) where
  follows := follows_append.mpr ⟨_, h.follows, follows_recordOf document write⟩
  stored := List.suffix_append_inj_of_length_eq rfl |>.mpr ⟨h.stored, rfl⟩
  recordCount := by
    rw [List.length_append, ← h.recordCount]
    rfl
  messageCount := by
    rw [totalMessages, List.map_append, List.sum_append, ← totalMessages, ← h.messageCount,
      List.map_singleton, List.sum_singleton]
    rfl
  bytes := by
    rw [totalBytes, List.map_append, List.sum_append, ← totalBytes, ← h.bytes, List.map_singleton,
      List.sum_singleton]
    rfl
  recordSeq := by
    rw [List.map_append, h.recordSeq, List.length_append, ← h.recordCount, List.length_singleton,
      List.range'_concat, Nat.one_mul]
    show _ ++ [document.recordCount + 1] = _
    rw [Nat.add_comm 1]
  keys := by
    rw [List.map_append, List.nodup_append]
    refine ⟨h.keys, List.nodup_singleton _, fun key hkey other hother => ?_⟩
    obtain ⟨record, hrecord, rfl⟩ := List.mem_map.mp hkey
    rw [List.mem_singleton.mp hother]
    exact hfree record hrecord

theorem Kept.clear (h : Kept document records inserted) (clearing : Clearing) (now : Nat) :
    Kept (clearDocument clearing now document) [] inserted where
  follows := h.follows
  stored := List.nil_suffix
  recordCount := rfl
  messageCount := rfl
  bytes := rfl
  recordSeq := rfl
  keys := List.nodup_nil

/-! ### All documents -/

def Database.recordsOf (db : Database) (id : String) : List ConversationRecord :=
  db.records.filter (·.conversationRef = id)

def Database.insertedOf (db : Database) (id : String) : List ConversationRecord :=
  db.inserted.filter (·.conversationRef = id)

structure Database.Kept (db : Database) : Prop where
  documents : ∀ document ∈ db.conversations.rows,
    Conversations.Kept document (db.recordsOf document.id) (db.insertedOf document.id)
  refs : ∀ record ∈ db.inserted, ∃ document ∈ db.conversations.rows,
    document.id = record.conversationRef
  stored : ∀ record ∈ db.records, record ∈ db.inserted

variable {db db' : Database}

/-- The row of a document after a record, before and after. -/
theorem mem_withRecord {document row' : Conversation} {write : RecordWrite}
    (hmem : document ∈ db.conversations.rows)
    (h : row' ∈ (db.withRecord document (recordOf document write)).conversations.rows) :
    row' = countRecord document (recordOf document write) document ∨
      row' ∈ db.conversations.rows ∧ row'.id ≠ document.id := by
  rw [rows_withRecord, List.mem_map] at h
  obtain ⟨row, hrow, rfl⟩ := h
  split
  case isTrue hid =>
    rw [eq_of_id hmem hrow hid]
    exact .inl rfl
  case isFalse hid => exact .inr ⟨hrow, hid⟩

theorem filter_recordOf (document : Conversation) (write : RecordWrite) (id : String) :
    [recordOf document write].filter (·.conversationRef = id) =
      if document.id = id then [recordOf document write] else [] := by
  have href : (recordOf document write).conversationRef = document.id := rfl
  rw [List.filter_cons, List.filter_nil, href]
  simp only [decide_eq_true_eq]

theorem recordsOf_withRecord (db : Database) (document : Conversation) (write : RecordWrite)
    (id : String) :
    (db.withRecord document (recordOf document write)).recordsOf id =
      db.recordsOf id ++ if document.id = id then [recordOf document write] else [] := by
  rw [Database.recordsOf, Database.withRecord, List.filter_append, filter_recordOf]
  rfl

theorem insertedOf_withRecord (db : Database) (document : Conversation) (write : RecordWrite)
    (id : String) :
    (db.withRecord document (recordOf document write)).insertedOf id =
      db.insertedOf id ++ if document.id = id then [recordOf document write] else [] := by
  rw [Database.insertedOf, Database.withRecord, List.filter_append, filter_recordOf]
  rfl

theorem Database.Kept.record (h : db.Kept) {document : Conversation} {write : RecordWrite}
    (hmem : document ∈ db.conversations.rows) (hfree : db.Free (recordOf document write)) :
    (db.withRecord document (recordOf document write)).Kept where
  documents row' hrow' := by
    rw [recordsOf_withRecord, insertedOf_withRecord]
    rcases mem_withRecord hmem hrow' with rfl | ⟨hrow, hid⟩
    · rw [if_pos (show document.id = (countRecord document _ document).id from rfl)]
      refine (h.documents document hmem).record write fun other hother => ?_
      obtain ⟨hother, href⟩ := List.mem_filter.mp hother
      exact (hfree other hother (of_decide_eq_true href)).2
    · rw [if_neg (Ne.symm hid), List.append_nil, List.append_nil]
      exact h.documents row' hrow
  refs record hrecord := by
    have hkeep : ∀ row ∈ db.conversations.rows,
        ∃ row' ∈ (db.withRecord document (recordOf document write)).conversations.rows,
          row'.id = row.id := by
      intro row hrow
      rw [rows_withRecord]
      refine ⟨_, List.mem_map_of_mem hrow, ?_⟩
      split <;> rfl
    rcases List.mem_append.mp hrecord with hold | hnew
    · obtain ⟨row, hrow, hid⟩ := h.refs record hold
      obtain ⟨row', hrow', hid'⟩ := hkeep row hrow
      exact ⟨row', hrow', hid'.trans hid⟩
    · obtain ⟨row', hrow', hid'⟩ := hkeep document hmem
      rw [List.mem_singleton.mp hnew]
      exact ⟨row', hrow', hid'⟩
  stored record hrecord := by
    rcases List.mem_append.mp hrecord with hold | hnew
    · exact List.mem_append_left _ (h.stored record hold)
    · exact List.mem_append_right _ hnew

/-- No record names a document that does not exist. -/
theorem Database.Kept.none_of_new (h : db.Kept) {id : String}
    (hid : id ∉ db.conversations.rows.map (·.id)) : db.recordsOf id = [] ∧ db.insertedOf id = [] := by
  have hnone : ∀ record ∈ db.inserted, record.conversationRef ≠ id := by
    intro record hrecord href
    obtain ⟨document, hmem, hdocument⟩ := h.refs record hrecord
    exact hid (List.mem_map.mpr ⟨document, hmem, hdocument.trans href⟩)
  constructor
  · refine List.filter_eq_nil_iff.mpr fun record hrecord => ?_
    simpa using hnone record (h.stored record hrecord)
  · refine List.filter_eq_nil_iff.mpr fun record hrecord => ?_
    simpa using hnone record hrecord

theorem Database.Kept.created (h : db.Kept) {row : Conversation} (hblank : row.Blank) :
    (db.withDocument row).Kept := by
  rcases rows_insertDocument db.conversations row with hrows | ⟨hid, hrows⟩
  · refine ⟨fun document hmem => ?_, fun record hrecord => ?_, h.stored⟩
    · exact h.documents document (hrows ▸ hmem)
    · obtain ⟨document, hmem, hdocument⟩ := h.refs record hrecord
      exact ⟨document, hrows.symm ▸ hmem, hdocument⟩
  · refine ⟨fun document hmem => ?_, fun record hrecord => ?_, h.stored⟩
    · rw [Database.withDocument, hrows, List.mem_append, List.mem_singleton] at hmem
      rcases hmem with hmem | rfl
      · exact h.documents document hmem
      · obtain ⟨hrecords, hinserted⟩ := h.none_of_new hid
        show Conversations.Kept document (db.recordsOf document.id) (db.insertedOf document.id)
        rw [hrecords, hinserted]
        exact .blank hblank
    · obtain ⟨document, hmem, hdocument⟩ := h.refs record hrecord
      exact ⟨document, hrows.symm ▸ List.mem_append_left _ hmem, hdocument⟩

theorem Effect.kept {writable : Conversation → Prop} (h : Effect writable db db') (hkept : db.Kept) :
    db'.Kept := by
  cases h with
  | document hblank => exact hkept.created hblank
  | charge => exact ⟨hkept.documents, hkept.refs, hkept.stored⟩
  | record write hmem hfree => exact hkept.record hmem hfree
  | legacy => exact ⟨hkept.documents, hkept.refs, hkept.stored⟩

end PocketCoder.Conversations
