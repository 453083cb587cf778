import PocketCoder.Recovery.Deletions

/-!
What committed operations took away is not brought back by a restore.

While the controller runs, whatever was taken away is named by an event of
the journal, or the tables themselves still show that it is gone. From a
backup on, the tables of the backup take the place of the second. A
conversation that several workspaces share is the exception: the event of a
deletion names the workspace alone, and the backup may not know yet that this
workspace wrote to it.
-/

namespace PocketCoder.Recovery.Deletions

open PocketCoder.Foundation PocketCoder.Journal PocketCoder.Auth

/-! ### Clearing conversations -/

theorem Keeps.refl (tables : RecoveryTables) : Keeps tables tables where
  workspaces _ h := h
  identity row h := ⟨row, h, rfl, rfl, rfl⟩
  erased _ _ h := h
  references h := h

theorem Keeps.trans {tables tables' tables'' : RecoveryTables} (h : Keeps tables tables')
    (h' : Keeps tables' tables'') : Keeps tables tables'' where
  workspaces workspaceId hmem := h'.workspaces workspaceId (h.workspaces workspaceId hmem)
  identity row hrow := by
    obtain ⟨row', hrow', hid, hprincipal, hconversation⟩ := h.identity row hrow
    obtain ⟨row'', hrow'', hid', hprincipal', hconversation'⟩ := h'.identity row' hrow'
    exact ⟨row'', hrow'', hid'.trans hid, hprincipal'.trans hprincipal,
      hconversation'.trans hconversation⟩
  erased row hrow herased := by
    obtain ⟨row', hrow', hid, -⟩ := h.identity row hrow
    rw [← hid]
    refine h'.erased row' hrow' ?_
    rw [hid]
    exact h.erased row hrow herased
  references href := h'.references (h.references href)

/-- A write that touches neither workspaces nor conversations. -/
theorem Keeps.of_eq {tables tables' : RecoveryTables}
    (hworkspaces : tables'.workspaces = tables.workspaces)
    (hconversations : tables'.conversations = tables.conversations)
    (hrecords : tables'.conversationRecords = tables.conversationRecords) :
    Keeps tables tables' where
  workspaces workspaceId h := hworkspaces ▸ h
  identity row h := ⟨row, hconversations ▸ h, rfl, rfl, rfl⟩
  erased row _ h := by
    rw [Erased, hconversations, hrecords]
    exact h
  references h := by
    rw [References, hconversations, hrecords]
    exact h

section Clear

variable {tables : RecoveryTables} {selected : ConversationRow → Bool} {time : Nat}

theorem mem_clearConversations {row' : ConversationRow}
    (h : row' ∈ (clearConversations tables selected .deleted time).conversations.rows) :
    ∃ row ∈ tables.conversations.rows, clearRow selected .deleted time row = row' :=
  List.mem_map.mp h

theorem record_of_clearConversations {record : ConversationRecordRow}
    (h : record ∈ (clearConversations tables selected .deleted time).conversationRecords) :
    record ∈ tables.conversationRecords ∧
      ∀ row ∈ tables.conversations.rows, row.id = record.conversationRef →
        selected row = false := by
  obtain ⟨hmem, hnot⟩ := List.mem_filter.mp h
  refine ⟨hmem, fun row hrow hid => ?_⟩
  rw [← hid, selected_contains selected hrow] at hnot
  simpa using hnot

theorem clearRow_status (selected : ConversationRow → Bool) (time : Nat) (row : ConversationRow) :
    (clearRow selected .deleted time row).status = .deleted ∨
      clearRow selected .deleted time row = row := by
  unfold clearRow
  split_ifs
  · exact .inl rfl
  · exact .inr rfl

theorem clearConversations_keeps (tables : RecoveryTables) (selected : ConversationRow → Bool)
    (time : Nat) : Keeps tables (clearConversations tables selected .deleted time) where
  workspaces _ h := h
  identity row hrow := by
    refine ⟨clearRow selected .deleted time row, List.mem_map_of_mem hrow, clearRow_id _ _ _ _, ?_⟩
    unfold clearRow
    split_ifs <;> exact ⟨rfl, rfl⟩
  erased row hrow herased := by
    refine ⟨fun row' hrow' hid => ?_, fun record hrecord =>
      herased.2 record (record_of_clearConversations hrecord).1⟩
    obtain ⟨old, hold, rfl⟩ := mem_clearConversations hrow'
    rcases clearRow_status selected time old with h | h
    · exact h
    · rw [h]
      exact herased.1 old hold (by rwa [clearRow_id] at hid)
  references href record hrecord := by
    obtain ⟨row, hrow, hid⟩ := href record (record_of_clearConversations hrecord).1
    exact ⟨clearRow selected .deleted time row, List.mem_map_of_mem hrow,
      (clearRow_id _ _ _ _).trans hid⟩

/-- A selected conversation is erased. -/
theorem clearConversations_erased {row : ConversationRow} (hrow : row ∈ tables.conversations.rows)
    (hselected : selected row = true) :
    Erased (clearConversations tables selected .deleted time) row.id := by
  constructor
  · intro row' hrow' hid
    obtain ⟨old, hold, rfl⟩ := mem_clearConversations hrow'
    rw [clearRow_id] at hid
    rw [List.inj_on_of_nodup_map tables.conversations.nodup hold hrow hid, clearRow,
      if_pos hselected]
    rfl
  · intro record hrecord hid
    have hnot := (record_of_clearConversations hrecord).2 row hrow hid.symm
    rw [hselected] at hnot
    exact Bool.false_ne_true hnot.symm

end Clear

/-- A commit keeps workspaces, identities and tombstones. -/
theorem Intent.write_keeps {intent : Intent} {tables tables' : RecoveryTables}
    (h : intent.write tables = some tables') : Keeps tables tables' := by
  cases intent with
  | deleteConversation workspaceId time =>
      rw [Intent.write] at h
      split_ifs at h
      cases h
      have hkeeps := clearConversations_keeps tables (wroteTo tables workspaceId) time
      exact ⟨hkeeps.workspaces, hkeeps.identity, hkeeps.erased, hkeeps.references⟩
  | purgeContent workspaceId time =>
      rw [Intent.write] at h
      split_ifs at h
      cases h
      have hkeeps := clearConversations_keeps tables (wroteTo tables workspaceId) time
      exact ⟨hkeeps.workspaces, hkeeps.identity, hkeeps.erased, hkeeps.references⟩
  | deleteConversationById id workspaceId principalId conversationId time =>
      cases h
      exact clearConversations_keeps _ _ _
  | writeSecret name versionId replaced time =>
      rw [Intent.write] at h
      split_ifs at h
      cases h
      exact Keeps.of_eq rfl rfl rfl
  | _ =>
      cases h
      exact Keeps.of_eq rfl rfl rfl

/-! ### Secrets -/

/-- A commit adds secret versions and removes none. -/
theorem Intent.write_secretVersions {intent : Intent} {tables tables' : RecoveryTables}
    (h : intent.write tables = some tables') :
    tables'.secretVersions = intent.version ++ tables.secretVersions := by
  cases intent with
  | deleteConversation workspaceId time | purgeContent workspaceId time
  | writeSecret name versionId replaced time =>
      rw [Intent.write] at h
      split_ifs at h
      cases h
      rfl
  | _ =>
      cases h
      rfl

/-- A commit writes no secret but the one it locked. -/
theorem Intent.write_secrets {intent : Intent} {tables tables' : RecoveryTables} {name : String}
    (h : intent.write tables = some tables') (hname : intent.secretName ≠ some name) :
    tables'.secrets.get? name = tables.secrets.get? name := by
  cases intent with
  | writeSecret locked versionId replaced time =>
      have hne : name ≠ locked := fun heq => hname (congrArg some heq.symm)
      rw [Intent.write] at h
      split_ifs at h
      cases h
      rw [Table.get?_insert, Table.get?_updateAt, if_neg hne, if_neg (Ne.symm hne), Option.or_none]
  | retireSecret locked versionId time =>
      have hne : name ≠ locked := fun heq => hname (congrArg some heq.symm)
      cases h
      rw [Table.get?_updateAt, if_neg hne]
  | deleteConversation workspaceId time | purgeContent workspaceId time =>
      rw [Intent.write] at h
      split_ifs at h
      cases h
      rfl
  | _ =>
      cases h
      rfl

/-- The row of the secret that a write leaves. -/
theorem Intent.writeSecret_get? {tables tables' : RecoveryTables} {name versionId : String}
    {replaced : Option String} {time : Nat}
    (h : (Intent.writeSecret name versionId replaced time).write tables = some tables') :
    versionId ∉ tables.secretVersions ∧
      tables'.secrets.get? name = some ⟨name, versionId, none⟩ := by
  rw [Intent.write] at h
  split_ifs at h with hcontains
  cases h
  refine ⟨fun hmem => hcontains (List.contains_iff_mem.mpr hmem), ?_⟩
  rw [Table.get?_insert, Table.get?_updateAt, if_pos rfl, if_pos rfl]
  cases hrow : tables.secrets.get? name with
  | none => rfl
  | some row =>
      rw [Option.map_some, Option.some_or, Table.key_of_get? hrow]

/-! ### Flights -/

/-- The secret version that an event retires. -/
def versionOf : JournalEvent → Option String
  | .secretRetired _ versionId _ => some versionId
  | _ => none

/-- The version and the workspace that an event names are in the tables. -/
def Known (tables : RecoveryTables) (event : JournalEvent) : Prop :=
  (∀ versionId, versionOf event = some versionId → versionId ∈ tables.secretVersions) ∧
    ∀ workspaceId, historyOf event = some workspaceId → workspaceId ∈ tables.workspaces

theorem Known.of_none {tables : RecoveryTables} {event : JournalEvent}
    (hversion : versionOf event = none) (hhistory : historyOf event = none) :
    Known tables event := by
  rw [Known, hversion, hhistory]
  exact ⟨fun _ h => (nomatch h), fun _ h => (nomatch h)⟩

theorem Known.of_principal {tables : RecoveryTables} {change : PrincipalChange}
    {event : JournalEvent}
    (h : event ∈ (principalEvents change).1 ++ (principalEvents change).2) :
    Known tables event := by
  rcases mem_principalEvents h with rfl | ⟨rfl, -⟩ | ⟨rfl, -⟩ <;> exact .of_none rfl rfl

/-- What an operation on secrets read under its lock. -/
def Reads (tables : RecoveryTables) : Intent → Prop
  | .writeSecret name _ replaced _ => replacedVersion tables name = replaced
  | .retireSecret name versionId _ =>
      (tables.secrets.get? name).map SecretRow.versionId = some versionId
  | _ => True

def events : Phase → List JournalEvent
  | .locked early => early
  | .written late => late

structure Flight.Sound (tables : RecoveryTables) (journal : List JournalEvent)
    (flight : Flight) : Prop where
  known : ∀ event ∈ flight.intent.early ++ flight.intent.late, Known tables event
  remaining : ∀ event ∈ events flight.phase, event ∈ flight.intent.early ++ flight.intent.late
  appended : ∀ early, flight.phase = .locked early → ∀ event ∈ flight.intent.early,
    event ∈ journal ∨ event ∈ early
  reads : ∀ early, flight.phase = .locked early → Reads tables flight.intent
  named : ∀ id workspaceId principalId conversationId time,
    flight.intent = .deleteConversationById id workspaceId principalId conversationId time →
      ∃ row ∈ tables.conversations.rows, row.id = id ∧
        hasIdentity principalId conversationId row = true
  admitted : ∀ workspaceId time, flight.intent = .purgeContent workspaceId time →
    ∃ principalId time', JournalEvent.workspacePurged principalId workspaceId time' ∈ journal
  keyIds : ∀ change, flight.intent = .changePrincipal change →
    change.patch.disabled ≠ some true → change.keyIds = []

theorem Reads.congr {tables tables' : RecoveryTables} {intent : Intent} (h : Reads tables intent)
    (hsecret : ∀ name, intent.secretName = some name →
      tables'.secrets.get? name = tables.secrets.get? name) : Reads tables' intent := by
  cases intent with
  | writeSecret name versionId replaced time =>
      rw [Reads, replacedVersion, hsecret name rfl]
      exact h
  | retireSecret name versionId time =>
      rw [Reads, hsecret name rfl]
      exact h
  | _ => trivial

/-- A flight stays sound while the tables and the journal move on. -/
theorem Flight.Sound.mono {tables tables' : RecoveryTables} {journal journal' : List JournalEvent}
    {flight : Flight} (h : flight.Sound tables journal) (hkeeps : Keeps tables tables')
    (hversions : ∀ versionId ∈ tables.secretVersions, versionId ∈ tables'.secretVersions)
    (hjournal : ∀ event ∈ journal, event ∈ journal')
    (hsecret : ∀ early name, flight.phase = .locked early → flight.intent.secretName = some name →
      tables'.secrets.get? name = tables.secrets.get? name) : flight.Sound tables' journal' where
  known event hevent :=
    ⟨fun versionId hversion => hversions _ ((h.known event hevent).1 versionId hversion),
      fun workspaceId hhistory => hkeeps.workspaces _ ((h.known event hevent).2 _ hhistory)⟩
  remaining := h.remaining
  appended early hphase event hevent :=
    (h.appended early hphase event hevent).imp_left (hjournal event)
  reads early hphase := (h.reads early hphase).congr fun name => hsecret early name hphase
  named id workspaceId principalId conversationId time hintent := by
    obtain ⟨row, hrow, hid, hidentity⟩ := h.named _ _ _ _ _ hintent
    obtain ⟨row', hrow', hid', hprincipal, hconversation⟩ := hkeeps.identity row hrow
    refine ⟨row', hrow', hid'.trans hid, ?_⟩
    rw [hasIdentity, hprincipal, hconversation]
    exact hidentity
  admitted workspaceId time hintent := by
    obtain ⟨principalId, time', hmem⟩ := h.admitted workspaceId time hintent
    exact ⟨principalId, time', hjournal _ hmem⟩
  keyIds := h.keyIds

/-- A flight whose transaction has ended. -/
theorem Flight.Sound.written {tables : RecoveryTables} {journal : List JournalEvent}
    {flight : Flight} (h : flight.Sound tables journal) {late : List JournalEvent}
    (hlate : ∀ event ∈ late, event ∈ flight.intent.early ++ flight.intent.late) :
    Flight.Sound tables journal ⟨flight.intent, .written late⟩ where
  known := h.known
  remaining := hlate
  appended _ hphase := (nomatch hphase)
  reads _ hphase := (nomatch hphase)
  named := h.named
  admitted := h.admitted
  keyIds := h.keyIds

/-- What the checks of an operation establish about its intent. -/
def Intended (tables : RecoveryTables) (purges : List String) : Intent → Prop
  | .changePrincipal change => change.patch.disabled ≠ some true → change.keyIds = []
  | .record event _ => ∃ principalId keyIds time, event = .principalDisabled principalId keyIds time
  | .deleteConversation workspaceId _ | .admitPurge _ workspaceId _ =>
      workspaceId ∈ tables.workspaces
  | .deleteConversationById id _ principalId conversationId _ =>
      ∃ row ∈ tables.conversations.rows, row.id = id ∧
        hasIdentity principalId conversationId row = true
  | .purgeContent workspaceId _ => workspaceId ∈ purges
  | intent => Reads tables intent

theorem intend_intended {tables : RecoveryTables} {purges : List String} {now : Nat}
    {operation : Operation} {intent : Intent}
    (h : intend tables purges now operation = .ok (some intent)) :
    Intended tables purges intent := by
  -- every operation reads what its intent repeats, or throws before there is one
  cases operation with
  | revokeMachineKey keyId actorKeyId =>
      simp only [intend] at h
      cases hkey : tables.auth.machineKeys.get? keyId with
      | none =>
          rw [hkey] at h
          cases h
      | some key =>
          rw [hkey] at h
          obtain ⟨_, -, h⟩ := Except.bind_eq_ok.mp h
          obtain rfl := Option.some.inj (Except.ok.inj h)
          trivial
  | updatePrincipal request =>
      simp only [intend] at h
      obtain ⟨planned, hplan, h⟩ := Except.bind_eq_ok.mp h
      cases planned with
      | change change =>
          obtain rfl := Option.some.inj (Except.ok.inj h)
          exact (plan_change hplan).keyIds
      | create row =>
          obtain rfl := Option.some.inj (Except.ok.inj h)
          trivial
      | record event =>
          obtain rfl := Option.some.inj (Except.ok.inj h)
          obtain ⟨principalId, keyIds, rfl⟩ := plan_record hplan
          exact ⟨_, _, _, rfl⟩
  | writeSecret actorKeyId name versionId =>
      simp only [intend] at h
      obtain ⟨_, -, h⟩ := Except.bind_eq_ok.mp h
      obtain rfl := Option.some.inj (Except.ok.inj h)
      exact rfl
  | retireSecret actorKeyId name =>
      simp only [intend] at h
      obtain ⟨_, -, h⟩ := Except.bind_eq_ok.mp h
      cases hrow : tables.secrets.get? name with
      | none =>
          rw [hrow] at h
          cases h
      | some row =>
          rw [hrow] at h
          obtain rfl := Option.some.inj (Except.ok.inj h)
          show (tables.secrets.get? name).map SecretRow.versionId = some row.versionId
          rw [hrow]
          rfl
  | retireTemplate actorKeyId name version =>
      simp only [intend] at h
      obtain ⟨_, -, h⟩ := Except.bind_eq_ok.mp h
      cases hrow : tables.templates.get? (name, version) with
      | none =>
          rw [hrow] at h
          cases h
      | some row =>
          rw [hrow] at h
          obtain rfl := Option.some.inj (Except.ok.inj h)
          trivial
  | deleteConversation workspaceId =>
      simp only [intend] at h
      split_ifs at h with hcontains
      · obtain rfl := Option.some.inj (Except.ok.inj h)
        exact List.contains_iff_mem.mp hcontains
      · cases h
  | deleteConversationById principalId conversationId =>
      simp only [intend] at h
      cases hrow : tables.conversations.rows.find? (hasIdentity principalId conversationId) with
      | none =>
          rw [hrow] at h
          cases h
      | some row =>
          rw [hrow] at h
          obtain rfl := Option.some.inj (Except.ok.inj h)
          exact ⟨row, List.mem_of_find?_eq_some hrow, rfl, List.find?_some hrow⟩
  | admitPurge principalId workspaceId =>
      simp only [intend] at h
      split_ifs at h with hcontains
      · obtain rfl := Option.some.inj (Except.ok.inj h)
        exact List.contains_iff_mem.mp hcontains
      · cases h
  | purgeWorkspaceContent workspaceId =>
      simp only [intend] at h
      split_ifs at h with hcontains
      · obtain rfl := Option.some.inj (Except.ok.inj h)
        exact List.contains_iff_mem.mp hcontains
      · cases h
  | admitDelete principalId checkpointId =>
      obtain rfl := Option.some.inj (Except.ok.inj h)
      trivial

/-- The events of a planned operation name what the tables have. -/
theorem Intended.known {tables : RecoveryTables} {purges : List String} {intent : Intent}
    (h : Intended tables purges intent)
    (hversions : ∀ name row, tables.secrets.get? name = some row →
      row.versionId ∈ tables.secretVersions) :
    ∀ event ∈ intent.early ++ intent.late, Known tables event := by
  intro event hevent
  cases intent with
  | changePrincipal change => exact .of_principal hevent
  | record planned time =>
      obtain ⟨principalId, keyIds, time', rfl⟩ := h
      obtain rfl := List.mem_singleton.mp hevent
      exact .of_none rfl rfl
  | writeSecret name versionId replaced time =>
      have hreplaced : replacedVersion tables name = replaced := h
      -- the early event of a write retires the version that was read as active
      have hearly : event ∈ (replaced.map fun versionId =>
          JournalEvent.secretRetired name versionId time).toList := by
        rwa [← List.append_nil (Option.toList _)]
      obtain ⟨old, hold, rfl⟩ := Option.map_eq_some_iff.mp (Option.mem_toList.mp hearly)
      rw [hold] at hreplaced
      obtain ⟨row, hrow, hactive⟩ := Option.bind_eq_some_iff.mp hreplaced
      split_ifs at hactive
      obtain rfl := Option.some.inj hactive
      refine ⟨fun other hother => ?_, fun _ hhistory => (nomatch hhistory)⟩
      obtain rfl := Option.some.inj hother
      exact hversions name row hrow
  | retireSecret name versionId time =>
      obtain ⟨row, hrow, rfl⟩ := Option.map_eq_some_iff.mp h
      obtain rfl := List.mem_singleton.mp hevent
      refine ⟨fun other hother => ?_, fun _ hhistory => (nomatch hhistory)⟩
      obtain rfl := Option.some.inj hother
      exact hversions name row hrow
  | deleteConversation workspaceId time =>
      obtain rfl := List.mem_singleton.mp hevent
      refine ⟨fun _ hversion => (nomatch hversion), fun other hother => ?_⟩
      obtain rfl := Option.some.inj hother
      exact h
  | admitPurge principalId workspaceId time =>
      obtain rfl := List.mem_singleton.mp hevent
      refine ⟨fun _ hversion => (nomatch hversion), fun other hother => ?_⟩
      obtain rfl := Option.some.inj hother
      exact h
  | createPrincipal row => exact absurd hevent List.not_mem_nil
  | purgeContent workspaceId time => exact absurd hevent List.not_mem_nil
  | _ =>
      obtain rfl := List.mem_singleton.mp hevent
      exact .of_none rfl rfl

theorem Intended.reads {tables : RecoveryTables} {purges : List String} {intent : Intent}
    (h : Intended tables purges intent) : Reads tables intent := by
  cases intent <;> first | exact h | trivial

/-- A flight starts out sound. -/
theorem Intended.sound {tables : RecoveryTables} {purges : List String} {intent : Intent}
    {journal : List JournalEvent} (h : Intended tables purges intent)
    (hversions : ∀ name row, tables.secrets.get? name = some row →
      row.versionId ∈ tables.secretVersions)
    (hpurges : ∀ workspaceId ∈ purges, ∃ principalId time,
      JournalEvent.workspacePurged principalId workspaceId time ∈ journal) :
    Flight.Sound tables journal ⟨intent, .locked intent.early⟩ where
  known := h.known hversions
  remaining _ hevent := List.mem_append_left _ hevent
  appended early hphase event hevent := by
    cases hphase
    exact .inr hevent
  reads _ _ := h.reads
  named id workspaceId principalId conversationId time hintent := by
    cases hintent
    exact h
  admitted workspaceId time hintent := by
    cases hintent
    exact hpurges workspaceId h
  keyIds change hintent := by
    cases hintent
    exact h

/-! ### The system -/

structure System.Sound (system : System) : Prop where
  references : References system.tables
  versions : ∀ name row, system.tables.secrets.get? name = some row →
    row.versionId ∈ system.tables.secretVersions
  journal : ∀ event ∈ system.journal, Known system.tables event
  flights : ∀ flight ∈ system.flights, flight.Sound system.tables system.journal
  locks : ∀ {i j : Nat} {intent intent' : Intent} {early early' : List JournalEvent},
    system.flights[i]? = some ⟨intent, .locked early⟩ →
    system.flights[j]? = some ⟨intent', .locked early'⟩ →
    intent.secretName.isSome = true → intent.secretName = intent'.secretName → i = j
  written : ∀ entry ∈ system.written, entry.1 ∈ system.tables.secretVersions ∧
    entry.2 ≤ system.journal.length ∧
      ∀ event ∈ system.journal.take entry.2, versionOf event ≠ some entry.1
  purges : ∀ workspaceId ∈ system.purges, ∃ principalId time,
    JournalEvent.workspacePurged principalId workspaceId time ∈ system.journal

variable {system system' : System}

theorem System.initial_sound {tables : RecoveryTables} (href : References tables)
    (hversions : ∀ name row, tables.secrets.get? name = some row →
      row.versionId ∈ tables.secretVersions) : (System.initial tables).Sound where
  references := href
  versions := hversions
  journal _ h := absurd h List.not_mem_nil
  flights _ h := absurd h List.not_mem_nil
  locks h := (nomatch h)
  written _ h := absurd h List.not_mem_nil
  purges _ h := absurd h List.not_mem_nil

/-- The entries of a journal stay what they were when it grows. -/
theorem written_concat {journal : List JournalEvent} {versions : List String}
    {entry : String × Nat} (last : JournalEvent)
    (h : entry.1 ∈ versions ∧ entry.2 ≤ journal.length ∧
      ∀ event ∈ journal.take entry.2, versionOf event ≠ some entry.1) :
    entry.1 ∈ versions ∧ entry.2 ≤ (journal ++ [last]).length ∧
      ∀ event ∈ (journal ++ [last]).take entry.2, versionOf event ≠ some entry.1 := by
  refine ⟨h.1, ?_, ?_⟩
  · rw [List.length_append]
    exact Nat.le_add_right_of_le h.2.1
  · rw [List.take_append_of_le_length h.2.1]
    exact h.2.2

theorem System.Sound.start (h : system.Sound) {intent : Intent}
    (hintended : Intended system.tables system.purges intent) (hunlocked : system.Unlocked intent) :
    System.Sound { system with
      flights := system.flights ++ [⟨intent, .locked intent.early⟩] } where
  references := h.references
  versions := h.versions
  journal := h.journal
  flights flight hflight := by
    rcases List.mem_append.mp hflight with hold | hnew
    · exact h.flights flight hold
    · rw [List.mem_singleton.mp hnew]
      exact hintended.sound h.versions h.purges
  locks {i j first second early early'} hi hj hsome heq := by
    rcases getElem?_concat_cases hi with ⟨rfl, hnew⟩ | hi'
    · rcases getElem?_concat_cases hj with ⟨rfl, -⟩ | hj'
      · rfl
      · cases hnew
        exact absurd heq.symm (hunlocked _ (List.mem_of_getElem? hj') _ rfl hsome)
    · rcases getElem?_concat_cases hj with ⟨rfl, hnew⟩ | hj'
      · cases hnew
        exact absurd heq (hunlocked _ (List.mem_of_getElem? hi') _ rfl (heq ▸ hsome))
      · exact h.locks hi' hj' hsome heq
  written := h.written
  purges := h.purges

/-- A flight appends its next event. -/
theorem System.Sound.append (h : system.Sound) {i : Nat} {intent : Intent} {event : JournalEvent}
    {phase phase' : Phase} (hi : system.flights[i]? = some ⟨intent, phase⟩)
    (hevents : events phase = event :: events phase')
    (hlocked : ∀ early', phase' = .locked early' → phase = .locked (event :: early')) :
    System.Sound { system with
      journal := system.journal ++ [event]
      flights := system.flights.set i ⟨intent, phase'⟩ } := by
  have hflight := h.flights _ (List.mem_of_getElem? hi)
  have hmono : ∀ flight : Flight, flight.Sound system.tables system.journal →
      flight.Sound system.tables (system.journal ++ [event]) := fun flight hsound =>
    hsound.mono (.refl _) (fun _ hversion => hversion)
      (fun _ hmem => List.mem_append_left _ hmem) fun _ _ _ _ => rfl
  -- a flight that still holds its lock held it before the event
  have hback : ∀ {j : Nat} {other : Intent} {early : List JournalEvent},
      (system.flights.set i ⟨intent, phase'⟩)[j]? = some ⟨other, .locked early⟩ →
        ∃ early', system.flights[j]? = some ⟨other, .locked early'⟩ := by
    intro j other early hj
    rcases getElem?_set_cases hj with ⟨rfl, hnew⟩ | ⟨-, hold⟩
    · obtain ⟨rfl, hphase⟩ := Flight.mk.inj hnew
      rw [hlocked early hphase.symm] at hi
      exact ⟨_, hi⟩
    · exact ⟨_, hold⟩
  refine ⟨h.references, h.versions, ?_, ?_, ?_, fun entry hentry =>
    written_concat event (h.written entry hentry), ?_⟩
  · intro other hother
    rcases List.mem_append.mp hother with hold | hnew
    · exact h.journal other hold
    · rw [List.mem_singleton.mp hnew]
      refine hflight.known event (hflight.remaining event ?_)
      rw [hevents]
      exact List.mem_cons_self
  · intro flight hmem
    rcases List.mem_or_eq_of_mem_set hmem with hold | rfl
    · exact hmono flight (h.flights flight hold)
    · have hsound := hmono _ hflight
      refine ⟨hsound.known, ?_, ?_, ?_, hsound.named, hsound.admitted, hsound.keyIds⟩
      · intro other hother
        refine hflight.remaining other ?_
        rw [hevents]
        exact List.mem_cons_of_mem _ hother
      · intro early' hphase other hother
        -- an early event that is not in the journal yet is one of those that remain
        rcases hflight.appended _ (hlocked early' hphase) other hother with hold | hnew
        · exact .inl (List.mem_append_left _ hold)
        · rcases List.mem_cons.mp hnew with rfl | hrest
          · exact .inl (List.mem_append_right _ List.mem_cons_self)
          · exact .inr hrest
      · intro early' hphase
        exact hflight.reads _ (hlocked early' hphase)
  · intro j k first second early early' hj hk hsome heq
    obtain ⟨_, hj'⟩ := hback hj
    obtain ⟨_, hk'⟩ := hback hk
    exact h.locks hj' hk' hsome heq
  · intro workspaceId hworkspace
    obtain ⟨principalId, time, hmem⟩ := h.purges workspaceId hworkspace
    exact ⟨principalId, time, List.mem_append_left _ hmem⟩

/-- A flight whose transaction ends holds no lock. -/
theorem locked_of_set {flights : List Flight} {i j : Nat} {intent other : Intent}
    {late early : List JournalEvent}
    (h : (flights.set i ⟨intent, .written late⟩)[j]? = some ⟨other, .locked early⟩) :
    j ≠ i ∧ flights[j]? = some ⟨other, .locked early⟩ := by
  rcases getElem?_set_cases h with ⟨-, hnew⟩ | hold
  · exact (nomatch (Flight.mk.inj hnew).2)
  · exact hold

theorem System.Sound.abandon (h : system.Sound) {i : Nat} {flight : Flight}
    (hi : system.flights[i]? = some flight) :
    System.Sound { system with
      flights := system.flights.set i { flight with phase := .written [] } } where
  references := h.references
  versions := h.versions
  journal := h.journal
  flights other hother := by
    rcases List.mem_or_eq_of_mem_set hother with hold | rfl
    · exact h.flights other hold
    · exact (h.flights flight (List.mem_of_getElem? hi)).written
        fun _ hevent => absurd hevent List.not_mem_nil
  locks hj hk := h.locks (locked_of_set hj).2 (locked_of_set hk).2
  written := h.written
  purges := h.purges

theorem System.Sound.other (h : system.Sound) {tables : RecoveryTables}
    (hkeeps : Keeps system.tables tables) (hsecrets : tables.secrets = system.tables.secrets)
    (hversions : tables.secretVersions = system.tables.secretVersions) :
    System.Sound { system with tables } where
  references := hkeeps.references h.references
  versions name row hrow := by
    rw [hversions]
    exact h.versions name row (hsecrets ▸ hrow)
  journal event hevent :=
    ⟨fun versionId hversion => hversions ▸ (h.journal event hevent).1 versionId hversion,
      fun workspaceId hhistory => hkeeps.workspaces _ ((h.journal event hevent).2 _ hhistory)⟩
  flights flight hflight := (h.flights flight hflight).mono hkeeps
    (fun _ hversion => hversions ▸ hversion) (fun _ hevent => hevent) fun _ _ _ _ => by rw [hsecrets]
  locks := h.locks
  written entry hentry := by
    rw [hversions]
    exact h.written entry hentry
  purges := h.purges

/-- The events of a flight that is about to commit are in the journal. -/
theorem System.Sound.committed (h : system.Sound) {i : Nat} {intent : Intent}
    (hi : system.flights[i]? = some ⟨intent, .locked []⟩) {event : JournalEvent}
    (hevent : event ∈ intent.early) : event ∈ system.journal :=
  ((h.flights _ (List.mem_of_getElem? hi)).appended [] rfl event hevent).elim id
    fun hnil => absurd hnil List.not_mem_nil

/-- Each secret that a commit leaves has a known version. -/
theorem Intent.write_versions {intent : Intent} {tables tables' : RecoveryTables}
    (hwrite : intent.write tables = some tables')
    (h : ∀ name row, tables.secrets.get? name = some row → row.versionId ∈ tables.secretVersions)
    (name : String) (row : SecretRow) (hrow : tables'.secrets.get? name = some row) :
    row.versionId ∈ tables'.secretVersions := by
  rw [Intent.write_secretVersions hwrite, List.mem_append]
  by_cases hname : intent.secretName = some name
  · cases intent with
    | writeSecret locked versionId replaced time =>
        obtain rfl := Option.some.inj hname
        rw [(Intent.writeSecret_get? hwrite).2] at hrow
        obtain rfl := Option.some.inj hrow
        exact .inl List.mem_cons_self
    | retireSecret locked versionId time =>
        obtain rfl := Option.some.inj hname
        cases hwrite
        rw [Table.get?_updateAt, if_pos rfl] at hrow
        obtain ⟨old, hold, rfl⟩ := Option.map_eq_some_iff.mp hrow
        exact .inr (h _ old hold)
    | _ => exact (nomatch hname)
  · rw [Intent.write_secrets hwrite hname] at hrow
    exact .inr (h name row hrow)

theorem System.Sound.commit (h : system.Sound) {i : Nat} {intent : Intent}
    {tables : RecoveryTables} (hi : system.flights[i]? = some ⟨intent, .locked []⟩)
    (hwrite : intent.write system.tables = some tables) :
    System.Sound { system with
      tables
      flights := system.flights.set i ⟨intent, .written intent.late⟩
      purges := intent.purge ++ system.purges
      done := intent.effects system.tables ++ system.done
      written := intent.version.map (fun v => (v, system.journal.length)) ++ system.written } := by
  have hkeeps := Intent.write_keeps hwrite
  have hversions : ∀ versionId ∈ system.tables.secretVersions,
      versionId ∈ tables.secretVersions := by
    intro versionId hmem
    rw [Intent.write_secretVersions hwrite]
    exact List.mem_append_right _ hmem
  refine ⟨hkeeps.references h.references, Intent.write_versions hwrite h.versions, ?_, ?_, ?_, ?_, ?_⟩
  · intro event hevent
    exact ⟨fun versionId hversion => hversions _ ((h.journal event hevent).1 _ hversion),
      fun workspaceId hhistory => hkeeps.workspaces _ ((h.journal event hevent).2 _ hhistory)⟩
  · intro flight hflight
    -- the flight that commits ends; the others read secrets that it has not locked
    obtain ⟨j, hj⟩ := List.mem_iff_getElem?.mp hflight
    rcases getElem?_set_cases hj with ⟨-, rfl⟩ | ⟨hne, hold⟩
    · have hended : Flight.Sound system.tables system.journal ⟨intent, .written intent.late⟩ :=
        (h.flights _ (List.mem_of_getElem? hi)).written
          fun event hevent => List.mem_append_right _ hevent
      exact hended.mono hkeeps hversions (fun _ hevent => hevent) fun _ _ hphase => (nomatch hphase)
    · refine (h.flights flight (List.mem_of_getElem? hold)).mono hkeeps hversions
        (fun _ hevent => hevent) fun early name hphase hname => ?_
      obtain ⟨other, phase⟩ := flight
      obtain rfl : phase = .locked early := hphase
      refine Intent.write_secrets hwrite fun hlocked => hne ?_
      exact h.locks hold hi (by rw [hname]; rfl) (hname.trans hlocked.symm)
  · exact fun hj hk => h.locks (locked_of_set hj).2 (locked_of_set hk).2
  · intro entry hentry
    rcases List.mem_append.mp hentry with hnew | hold
    · cases intent with
      | writeSecret name versionId replaced time =>
          -- a version written now is new, so no record of the journal so far names it
          obtain rfl := List.mem_singleton.mp hnew
          refine ⟨?_, Nat.le_refl _, fun event hevent hversion => ?_⟩
          · rw [Intent.write_secretVersions hwrite]
            exact List.mem_append_left _ List.mem_cons_self
          · rw [List.take_length] at hevent
            exact (Intent.writeSecret_get? hwrite).1 ((h.journal event hevent).1 _ hversion)
      | _ => exact absurd hnew List.not_mem_nil
    · obtain ⟨hmem, hrest⟩ := h.written entry hold
      exact ⟨hversions _ hmem, hrest⟩
  · intro workspaceId hworkspace
    rcases List.mem_append.mp hworkspace with hnew | hold
    · cases intent with
      | admitPurge principalId purged time =>
          obtain rfl := List.mem_singleton.mp hnew
          exact ⟨principalId, time, h.committed hi List.mem_cons_self⟩
      | _ => exact absurd hnew List.not_mem_nil
    · exact h.purges workspaceId hold

theorem System.Sound.crash (h : system.Sound) : System.Sound { system with flights := [] } where
  references := h.references
  versions := h.versions
  journal := h.journal
  flights _ hflight := absurd hflight List.not_mem_nil
  locks hi := (nomatch hi)
  written := h.written
  purges := h.purges

theorem System.Sound.step {action : Action} (h : system.Sound)
    (hstep : Step system action system') : system'.Sound := by
  cases hstep with
  | start hintend hunlocked => exact h.start (intend_intended hintend) hunlocked
  | early hi =>
      refine h.append hi rfl fun early' hphase => ?_
      cases hphase
      rfl
  | commit hi hwrite => exact h.commit hi hwrite
  | late hi => exact h.append hi rfl fun _ hphase => (nomatch hphase)
  | abandon hi => exact h.abandon hi
  | other hkeeps hsecrets hversions => exact h.other hkeeps hsecrets hversions
  | crash => exact h.crash

/-! ### What is gone -/

/-- An event of the journal names what was taken away. -/
def Journaled (journal : List JournalEvent) : Effect → Prop
  | .keyRevoked keyId => ∃ event ∈ journal, keyId ∈ revokedIds event
  | .secretRetired name versionId => ∃ time, JournalEvent.secretRetired name versionId time ∈ journal
  | .templateRetired name version => ∃ time, JournalEvent.templateRetired name version time ∈ journal
  | .checkpointDeleted checkpointId =>
      ∃ principalId time, JournalEvent.checkpointDeleted principalId checkpointId time ∈ journal
  | .conversationDeleted _ => False
  | .purged workspaceId =>
      ∃ principalId time, JournalEvent.workspacePurged principalId workspaceId time ∈ journal

theorem Journaled.mono {journal journal' : List JournalEvent} {effect : Effect}
    (h : Journaled journal effect) (hjournal : ∀ event ∈ journal, event ∈ journal') :
    Journaled journal' effect := by
  cases effect with
  | keyRevoked keyId =>
      obtain ⟨event, hevent, hid⟩ := h
      exact ⟨event, hjournal event hevent, hid⟩
  | secretRetired name versionId =>
      obtain ⟨time, hevent⟩ := h
      exact ⟨time, hjournal _ hevent⟩
  | templateRetired name version =>
      obtain ⟨time, hevent⟩ := h
      exact ⟨time, hjournal _ hevent⟩
  | checkpointDeleted checkpointId =>
      obtain ⟨principalId, time, hevent⟩ := h
      exact ⟨principalId, time, hjournal _ hevent⟩
  | conversationDeleted id => exact h
  | purged workspaceId =>
      obtain ⟨principalId, time, hevent⟩ := h
      exact ⟨principalId, time, hjournal _ hevent⟩

/-- The workspace whose history an operation clears. -/
def Intent.history : Intent → Option String
  | .deleteConversation workspaceId _ | .purgeContent workspaceId _ => some workspaceId
  | _ => none

/-- The conversations that an operation clears. -/
def Intent.clears (tables : RecoveryTables) : Intent → ConversationRow → Bool
  | .deleteConversation workspaceId _ | .purgeContent workspaceId _ => wroteTo tables workspaceId
  | .deleteConversationById id _ _ _ _ => fun row => row.id = id
  | _ => fun _ => false

/-- What a commit takes away is in the journal, but for conversations and
for a version that was retired before it was replaced. -/
theorem System.Sound.effects (h : system.Sound) {i : Nat} {intent : Intent}
    (hi : system.flights[i]? = some ⟨intent, .locked []⟩) {effect : Effect}
    (heffect : effect ∈ intent.effects system.tables) :
    Journaled system.journal effect ∨
      (∃ name row, effect = .secretRetired name row.versionId ∧
        system.tables.secrets.get? name = some row ∧ row.retiredAt.isSome = true ∧
          ∃ versionId replaced time, intent = .writeSecret name versionId replaced time) ∨
      ∃ row ∈ system.tables.conversations.rows, effect = .conversationDeleted row.id ∧
        intent.clears system.tables row = true := by
  have hflight := h.flights _ (List.mem_of_getElem? hi)
  have hreads := hflight.reads [] rfl
  cases intent with
  | revokeKey keyId time =>
      obtain rfl := List.mem_singleton.mp heffect
      exact .inl ⟨_, h.committed hi List.mem_cons_self, List.mem_cons_self⟩
  | changePrincipal change =>
      obtain ⟨keyId, hkeyId, rfl⟩ := List.mem_map.mp heffect
      -- keys are revoked by a disabling change only, and that one is journaled early
      have hdisabled : change.patch.disabled = some true := by
        by_contra hnot
        rw [hflight.keyIds change rfl hnot] at hkeyId
        exact List.not_mem_nil hkeyId
      have hevent : JournalEvent.principalDisabled change.target.id change.keyIds change.time ∈
          (Intent.changePrincipal change).early := by
        show _ ∈ (principalEvents change).1
        rw [principalEvents, if_pos hdisabled]
        exact List.mem_append_right _ List.mem_cons_self
      exact .inl ⟨_, h.committed hi hevent, hkeyId⟩
  | createPrincipal row => exact absurd heffect List.not_mem_nil
  | record event time =>
      obtain ⟨keyId, hkeyId, rfl⟩ := List.mem_map.mp heffect
      exact .inl ⟨event, h.committed hi List.mem_cons_self, hkeyId⟩
  | writeSecret name versionId replaced time =>
      obtain ⟨row, hrow, rfl⟩ := Option.map_eq_some_iff.mp (Option.mem_toList.mp heffect)
      -- an active version is retired in the journal; a retired one may not be
      cases hretired : row.retiredAt with
      | some retiredAt =>
          exact .inr (.inl ⟨name, row, rfl, hrow, by rw [hretired]; rfl, _, _, _, rfl⟩)
      | none =>
          have hreplaced : replaced = some row.versionId := by
            have hold : replacedVersion system.tables name = replaced := hreads
            rw [← hold, replacedVersion, hrow, Option.bind_some, hretired]
            rfl
          refine .inl ⟨time, h.committed hi ?_⟩
          show _ ∈ (Option.map _ replaced).toList
          rw [hreplaced]
          exact List.mem_cons_self
  | retireSecret name versionId time =>
      obtain ⟨row, hrow, rfl⟩ := Option.map_eq_some_iff.mp (Option.mem_toList.mp heffect)
      have hversion : (system.tables.secrets.get? name).map SecretRow.versionId = some versionId :=
        hreads
      rw [hrow] at hversion
      rw [Option.some.inj hversion]
      exact .inl ⟨time, h.committed hi List.mem_cons_self⟩
  | retireTemplate name version time =>
      obtain rfl := List.mem_singleton.mp heffect
      exact .inl ⟨time, h.committed hi List.mem_cons_self⟩
  | deleteConversation workspaceId time | purgeContent workspaceId time =>
      obtain ⟨row, hrow, rfl⟩ := List.mem_map.mp heffect
      obtain ⟨hmem, hwrote⟩ := List.mem_filter.mp hrow
      exact .inr (.inr ⟨row, hmem, rfl, hwrote⟩)
  | deleteConversationById id workspaceId principalId conversationId time =>
      obtain rfl := List.mem_singleton.mp heffect
      obtain ⟨row, hrow, hid, -⟩ := hflight.named _ _ _ _ _ rfl
      exact .inr (.inr ⟨row, hrow, by rw [hid], decide_eq_true hid⟩)
  | admitPurge principalId workspaceId time =>
      obtain rfl := List.mem_singleton.mp heffect
      exact .inl ⟨principalId, time, h.committed hi List.mem_cons_self⟩
  | admitDelete principalId checkpointId time =>
      obtain rfl := List.mem_singleton.mp heffect
      exact .inl ⟨principalId, time, h.committed hi List.mem_cons_self⟩

/-- A conversation that a commit clears is erased. -/
theorem Intent.write_erased {intent : Intent} {tables tables' : RecoveryTables}
    {row : ConversationRow} (h : intent.write tables = some tables')
    (hrow : row ∈ tables.conversations.rows) (hclears : intent.clears tables row = true) :
    Erased tables' row.id := by
  cases intent with
  | deleteConversation workspaceId time | purgeContent workspaceId time =>
      rw [Intent.write] at h
      split_ifs at h
      cases h
      exact clearConversations_erased hrow hclears
  | deleteConversationById id workspaceId principalId conversationId time =>
      cases h
      exact clearConversations_erased hrow hclears
  | _ => exact absurd hclears Bool.false_ne_true

/-- The tables show that it is gone, and will go on to. -/
def Lasting (tables : RecoveryTables) : Effect → Prop
  | .secretRetired name versionId => versionId ∈ tables.secretVersions ∧
      ∀ row, tables.secrets.get? name = some row → row.versionId = versionId →
        row.retiredAt.isSome = true
  | .conversationDeleted id => ∃ row ∈ tables.conversations.rows, row.id = id ∧ Erased tables id
  | _ => False

/-- A backup shows that it is gone. -/
def Shown (backup : RecoveryTables) : Effect → Prop
  | .secretRetired name versionId => (Effect.secretRetired name versionId).Holds backup
  | .conversationDeleted id => Erased backup id
  | _ => False

theorem Lasting.shown {tables : RecoveryTables} {effect : Effect} (h : Lasting tables effect) :
    Shown tables effect := by
  cases effect with
  | secretRetired name versionId =>
      intro row hrow hname hversion
      exact h.2 row (Table.get?_eq_some.mpr ⟨hrow, hname⟩) hversion
  | conversationDeleted id =>
      obtain ⟨row, hrow, rfl, herased⟩ := h
      exact herased
  | _ => exact h.elim

theorem Lasting.mono {tables tables' : RecoveryTables} {effect : Effect}
    (h : Lasting tables effect) (hkeeps : Keeps tables tables')
    (hversions : ∀ versionId ∈ tables.secretVersions, versionId ∈ tables'.secretVersions)
    (hsecrets : ∀ name row', tables'.secrets.get? name = some row' →
      row'.versionId ∉ tables.secretVersions ∨
        ∃ row, tables.secrets.get? name = some row ∧ row'.versionId = row.versionId ∧
          (row.retiredAt.isSome = true → row'.retiredAt.isSome = true)) :
    Lasting tables' effect := by
  cases effect with
  | secretRetired name versionId =>
      refine ⟨hversions _ h.1, fun row' hrow' hversion => ?_⟩
      rcases hsecrets name row' hrow' with hnew | ⟨row, hrow, hsame, hretired⟩
      · exact absurd (hversion ▸ h.1) hnew
      · exact hretired (h.2 row hrow (hsame.symm.trans hversion))
  | conversationDeleted id =>
      obtain ⟨row, hrow, rfl, herased⟩ := h
      obtain ⟨row', hrow', hid, -⟩ := hkeeps.identity row hrow
      exact ⟨row', hrow', hid, hkeeps.erased row hrow herased⟩
  | _ => exact h.elim

/-- A secret after a commit has a new version, or the one it had. -/
theorem Intent.write_secret_cases {intent : Intent} {tables tables' : RecoveryTables}
    (hwrite : intent.write tables = some tables') (name : String) (row' : SecretRow)
    (hrow' : tables'.secrets.get? name = some row') :
    row'.versionId ∉ tables.secretVersions ∨
      ∃ row, tables.secrets.get? name = some row ∧ row'.versionId = row.versionId ∧
        (row.retiredAt.isSome = true → row'.retiredAt.isSome = true) := by
  by_cases hname : intent.secretName = some name
  · cases intent with
    | writeSecret locked versionId replaced time =>
        obtain rfl := Option.some.inj hname
        obtain ⟨hnew, hget⟩ := Intent.writeSecret_get? hwrite
        rw [hget] at hrow'
        obtain rfl := Option.some.inj hrow'
        exact .inl hnew
    | retireSecret locked versionId time =>
        obtain rfl := Option.some.inj hname
        cases hwrite
        rw [Table.get?_updateAt, if_pos rfl] at hrow'
        obtain ⟨row, hrow, rfl⟩ := Option.map_eq_some_iff.mp hrow'
        exact .inr ⟨row, hrow, rfl, fun _ => isSome_or_some _ _⟩
    | _ => exact (nomatch hname)
  · rw [Intent.write_secrets hwrite hname] at hrow'
    exact .inr ⟨row', hrow', rfl, id⟩

/-- Until the backup: what was taken away is journaled, or the tables show
it. -/
structure System.Settled (system : System) : Prop extends system.Sound where
  done : ∀ effect ∈ system.done, Journaled system.journal effect ∨ Lasting system.tables effect

theorem System.Settled.step {action : Action} (h : system.Settled)
    (hstep : Step system action system') : system'.Settled := by
  refine ⟨h.toSound.step hstep, ?_⟩
  cases hstep with
  | start | abandon | crash => exact h.done
  | early | late =>
      intro effect heffect
      exact (h.done effect heffect).imp_left fun hjournaled =>
        hjournaled.mono fun _ hevent => List.mem_append_left _ hevent
  | other hkeeps hsecrets hversions =>
      intro effect heffect
      refine (h.done effect heffect).imp_right fun hlasting => hlasting.mono hkeeps ?_ ?_
      · exact fun _ hmem => hversions ▸ hmem
      · exact fun name row hrow => .inr ⟨row, hsecrets ▸ hrow, rfl, id⟩
  | commit hi hwrite =>
      have hkeeps := Intent.write_keeps hwrite
      have hversions : ∀ versionId ∈ system.tables.secretVersions, _ := fun versionId hmem =>
        (Intent.write_secretVersions hwrite).symm ▸ List.mem_append_right _ hmem
      intro effect heffect
      rcases List.mem_append.mp heffect with hnew | hold
      · rcases h.effects hi hnew with hjournaled | ⟨name, row, rfl, hrow, -, _, _, _, rfl⟩ |
          ⟨row, hrow, rfl, hclears⟩
        · exact .inl hjournaled
        -- the replaced version is in no row any more, as the new one is fresh
        · obtain ⟨hfresh, hget⟩ := Intent.writeSecret_get? hwrite
          have hversion := h.versions name row hrow
          refine .inr ⟨hversions _ hversion, fun row' hrow' hsame => ?_⟩
          rw [hget] at hrow'
          obtain rfl := Option.some.inj hrow'
          rw [← hsame] at hversion
          exact absurd hversion hfresh
        · obtain ⟨row', hrow', hid, -⟩ := hkeeps.identity row hrow
          exact .inr ⟨row', hrow', hid, Intent.write_erased hwrite hrow hclears⟩
      · exact (h.done effect hold).imp_right fun hlasting =>
          hlasting.mono hkeeps hversions (Intent.write_secret_cases hwrite)

/-! ### From a backup on -/

/-- An event selects a conversation of the backup. -/
def Selects (backup : RecoveryTables) (event : JournalEvent) (row : ConversationRow) : Prop :=
  (selectsRow event row || selectsRecords event
    (backup.conversationRecords.filter fun record => record.conversationRef = row.id)) = true

theorem selects_of_history {backup : RecoveryTables} {event : JournalEvent} {workspaceId : String}
    {row : ConversationRow} (h : historyOf event = some workspaceId)
    (hwrote : wroteTo backup workspaceId row = true) : Selects backup event row := by
  rw [wroteTo_eq] at hwrote
  cases event with
  | conversationDeleted other principalId conversationId time =>
      cases principalId with
      | none =>
          cases h
          exact hwrote
      | some principalId =>
          cases conversationId with
          | none =>
              cases h
              exact hwrote
          | some conversationId => exact (nomatch h)
  | workspacePurged principalId other time =>
      cases h
      exact hwrote
  | _ => exact (nomatch h)

/-- A replay of the journal on the backup takes it away. -/
def Covered (backup : RecoveryTables) (journal : List JournalEvent) (effect : Effect) : Prop :=
  Journaled journal effect ∨ Shown backup effect ∨
    ∃ id, effect = .conversationDeleted id ∧ ∀ old ∈ backup.conversations.rows, old.id = id →
      ∃ event ∈ journal, Selects backup event old

theorem Covered.mono {backup : RecoveryTables} {journal journal' : List JournalEvent}
    {effect : Effect} (h : Covered backup journal effect)
    (hjournal : ∀ event ∈ journal, event ∈ journal') : Covered backup journal' effect := by
  rcases h with hjournaled | hshown | ⟨id, rfl, hselected⟩
  · exact .inl (hjournaled.mono hjournal)
  · exact .inr (.inl hshown)
  · refine .inr (.inr ⟨id, rfl, fun old hold hid => ?_⟩)
    obtain ⟨event, hevent, hselects⟩ := hselected old hold hid
    exact ⟨event, hjournal event hevent, hselects⟩

/-- The events name workspaces that the backup has. -/
def InBackup (backup : RecoveryTables) (event : JournalEvent) : Prop :=
  ∀ workspaceId, historyOf event = some workspaceId → workspaceId ∈ backup.workspaces

structure System.Restorable (backup : RecoveryTables) (system : System) : Prop
    extends system.Sound where
  keeps : Keeps backup system.tables
  covered : ∀ effect ∈ system.done, Covered backup system.journal effect
  retired : ∀ name row, system.tables.secrets.get? name = some row → row.retiredAt.isSome = true →
    Covered backup system.journal (.secretRetired name row.versionId)
  history : ∀ event ∈ system.journal, InBackup backup event
  flightHistory : ∀ flight ∈ system.flights, ∀ event ∈ flight.intent.early ++ flight.intent.late,
    InBackup backup event

/-- A backup of a running controller. -/
theorem System.Settled.backup (h : system.Settled) : system.Restorable system.tables where
  toSound := h.toSound
  keeps := .refl _
  covered effect heffect := (h.done effect heffect).imp_right fun hlasting => .inl hlasting.shown
  retired name row hrow hretired := by
    refine .inr (.inl fun other hother hname _ => ?_)
    rw [Table.get?_eq_some.mpr ⟨hother, hname⟩] at hrow
    rw [Option.some.inj hrow]
    exact hretired
  history event hevent := (h.journal event hevent).2
  flightHistory flight hflight event hevent := ((h.flights flight hflight).known event hevent).2

/-- The condition on a step after the backup. A deletion of history is for a
workspace that the backup has, and a conversation of the backup that it
clears is one that the workspace had written to by then, or one that was
deleted. -/
def Within (backup : RecoveryTables) (system : System) : Action → Prop
  | .start operation now => ∀ intent,
      intend system.tables system.purges now operation = .ok (some intent) →
        ∀ event ∈ intent.early, InBackup backup event
  | .commit i => ∀ flight, system.flights[i]? = some flight → ∀ workspaceId,
      flight.intent.history = some workspaceId → ∀ row ∈ system.tables.conversations.rows,
        wroteTo system.tables workspaceId row = true → ∀ old ∈ backup.conversations.rows,
          old.id = row.id → wroteTo backup workspaceId old = true ∨ Erased backup old.id
  | _ => True

theorem Intent.late_inBackup {intent : Intent} {event : JournalEvent} (h : event ∈ intent.late)
    (backup : RecoveryTables) : InBackup backup event := by
  cases intent with
  | changePrincipal change =>
      have hknown : Known backup event := .of_principal (List.mem_append_right _ h)
      exact hknown.2
  | _ => exact absurd h List.not_mem_nil

/-- A history that a commit clears is named by the journal. -/
theorem System.Sound.history_event (h : system.Sound) {i : Nat} {intent : Intent}
    (hi : system.flights[i]? = some ⟨intent, .locked []⟩) {workspaceId : String}
    (hhistory : intent.history = some workspaceId) :
    ∃ event ∈ system.journal, historyOf event = some workspaceId := by
  cases intent with
  | deleteConversation other time =>
      obtain rfl := Option.some.inj hhistory
      exact ⟨_, h.committed hi List.mem_cons_self, rfl⟩
  | purgeContent other time =>
      obtain rfl := Option.some.inj hhistory
      obtain ⟨principalId, time', hmem⟩ :=
        (h.flights _ (List.mem_of_getElem? hi)).admitted other time rfl
      exact ⟨_, hmem, rfl⟩
  | _ => exact (nomatch hhistory)

/-- The conversations that a commit clears after the backup. -/
theorem System.Restorable.cleared {backup : RecoveryTables} (h : system.Restorable backup)
    {i : Nat} {intent : Intent} (hi : system.flights[i]? = some ⟨intent, .locked []⟩)
    (hwithin : Within backup system (.commit i)) {row : ConversationRow}
    (hrow : row ∈ system.tables.conversations.rows)
    (hclears : intent.clears system.tables row = true) :
    Covered backup system.journal (.conversationDeleted row.id) := by
  by_cases herased : Erased backup row.id
  · exact .inr (.inl herased)
  refine .inr (.inr ⟨row.id, rfl, fun old hold hid => ?_⟩)
  -- a deletion by workspace replays over the rows that the workspace wrote in the backup
  have hhistory : ∀ workspaceId, intent.history = some workspaceId →
      wroteTo system.tables workspaceId row = true →
        ∃ event ∈ system.journal, Selects backup event old := by
    intro workspaceId hworkspace hwrote
    obtain ⟨event, hevent, hnames⟩ := h.history_event hi hworkspace
    refine ⟨event, hevent, selects_of_history hnames ?_⟩
    exact (hwithin _ hi workspaceId hworkspace row hrow hwrote old hold hid).resolve_right
      fun hold' => herased (hid ▸ hold')
  cases intent with
  | deleteConversation workspaceId time => exact hhistory workspaceId rfl hclears
  | purgeContent workspaceId time => exact hhistory workspaceId rfl hclears
  | deleteConversationById id workspaceId principalId conversationId time =>
      -- the row that was found keeps its identity, and so does the one of the backup
      obtain ⟨found, hfound, hfoundId, hidentity⟩ :=
        (h.flights _ (List.mem_of_getElem? hi)).named _ _ _ _ _ rfl
      obtain ⟨now, hnow, hnowId, hprincipal, hconversation⟩ := h.keeps.identity old hold
      have hrowId : row.id = id := of_decide_eq_true hclears
      have hsame : now = found := List.inj_on_of_nodup_map system.tables.conversations.nodup hnow
        hfound (by rw [hnowId, hid, hrowId, hfoundId])
      refine ⟨_, h.committed hi List.mem_cons_self, ?_⟩
      have hold' : hasIdentity principalId conversationId old = true := by
        rw [hasIdentity, ← hprincipal, ← hconversation, hsame]
        exact hidentity
      show (hasIdentity principalId conversationId old || _) = true
      rw [hold']
      rfl
  | _ => exact absurd hclears Bool.false_ne_true

/-- The secrets that are retired after a commit. -/
theorem System.Restorable.retired_commit {backup : RecoveryTables} (h : system.Restorable backup)
    {i : Nat} {intent : Intent} (hi : system.flights[i]? = some ⟨intent, .locked []⟩)
    {tables : RecoveryTables} (hwrite : intent.write system.tables = some tables) (name : String)
    (row : SecretRow) (hrow : tables.secrets.get? name = some row)
    (hretired : row.retiredAt.isSome = true) :
    Covered backup system.journal (.secretRetired name row.versionId) := by
  -- only the secret of the intent changes, and the lock keeps its version as it was read
  by_cases hname : intent.secretName = some name
  · cases intent with
    | writeSecret locked versionId replaced time =>
        obtain rfl := Option.some.inj hname
        rw [(Intent.writeSecret_get? hwrite).2] at hrow
        obtain rfl := Option.some.inj hrow
        exact absurd hretired Bool.false_ne_true
    | retireSecret locked versionId time =>
        obtain rfl := Option.some.inj hname
        have hreads : (system.tables.secrets.get? locked).map SecretRow.versionId =
            some versionId := (h.flights _ (List.mem_of_getElem? hi)).reads [] rfl
        cases hwrite
        rw [Table.get?_updateAt, if_pos rfl] at hrow
        obtain ⟨old, hold, rfl⟩ := Option.map_eq_some_iff.mp hrow
        rw [hold] at hreads
        obtain rfl := Option.some.inj hreads
        exact .inl ⟨time, h.committed hi List.mem_cons_self⟩
    | _ => exact (nomatch hname)
  · rw [Intent.write_secrets hwrite hname] at hrow
    exact h.retired name row hrow hretired

theorem System.Restorable.step {backup : RecoveryTables} {action : Action}
    (h : system.Restorable backup) (hstep : Step system action system')
    (hwithin : Within backup system action) : system'.Restorable backup := by
  have hsound := h.toSound.step hstep
  cases hstep with
  | start hintend hunlocked =>
      refine ⟨hsound, h.keeps, h.covered, h.retired, h.history, fun flight hflight => ?_⟩
      rcases List.mem_append.mp hflight with hold | hnew
      · exact h.flightHistory flight hold
      · rw [List.mem_singleton.mp hnew]
        intro event hevent
        rcases List.mem_append.mp hevent with hearly | hlate
        -- the condition is asked of an operation that starts: its events name what the backup has
        · exact hwithin _ hintend event hearly
        · exact Intent.late_inBackup hlate backup
  | early hi | late hi =>
      have hmem := List.mem_of_getElem? hi
      refine ⟨hsound, h.keeps,
        fun effect heffect => (h.covered effect heffect).mono fun _ => List.mem_append_left _,
        fun name row hrow hretired =>
          (h.retired name row hrow hretired).mono fun _ => List.mem_append_left _, ?_, ?_⟩
      · intro other hother
        rcases List.mem_append.mp hother with hold | hnew
        · exact h.history other hold
        · rw [List.mem_singleton.mp hnew]
          exact h.flightHistory _ hmem _ ((h.flights _ hmem).remaining _ List.mem_cons_self)
      · intro flight hflight
        rcases List.mem_or_eq_of_mem_set hflight with hold | rfl
        · exact h.flightHistory flight hold
        · have hflight' := h.flightHistory _ hmem
          exact hflight'
  | abandon hi =>
      refine ⟨hsound, h.keeps, h.covered, h.retired, h.history, fun flight hflight => ?_⟩
      rcases List.mem_or_eq_of_mem_set hflight with hold | rfl
      · exact h.flightHistory flight hold
      · have hflight' := h.flightHistory _ (List.mem_of_getElem? hi)
        exact hflight'
  | other hkeeps hsecrets hversions =>
      refine ⟨hsound, h.keeps.trans hkeeps, h.covered, fun name row hrow => ?_, h.history,
        h.flightHistory⟩
      exact h.retired name row (hsecrets ▸ hrow)
  | crash =>
      exact ⟨hsound, h.keeps, h.covered, h.retired, h.history,
        fun _ hflight => absurd hflight List.not_mem_nil⟩
  | commit hi hwrite =>
      refine ⟨hsound, h.keeps.trans (Intent.write_keeps hwrite), ?_, ?_, h.history, ?_⟩
      · intro effect heffect
        rcases List.mem_append.mp heffect with hnew | hold
        -- what the commit takes away is journaled, was retired before, or is a cleared conversation
        · rcases h.effects hi hnew with hjournaled | ⟨name, row, rfl, hrow, hretired, -⟩ |
            ⟨row, hrow, rfl, hclears⟩
          · exact .inl hjournaled
          · exact h.retired name row hrow hretired
          · exact h.cleared hi hwithin hrow hclears
        · exact h.covered effect hold
      · exact h.retired_commit hi hwrite
      · intro flight hflight
        rcases List.mem_or_eq_of_mem_set hflight with hold | rfl
        · exact h.flightHistory flight hold
        · have hflight' := h.flightHistory _ (List.mem_of_getElem? hi)
          exact hflight'

/-! ### The restored tables -/

/-- A row that the journal names is closed in the restored tables. -/
theorem closed_restored {ρ : Type} (closing : Closing ρ) (rows : RecoveryTables → List ρ)
    (hrows : ∀ tables event, rows (applied tables event) =
      (rows tables).map fun row => closing.act row event)
    {backup : RecoveryTables} {journal : List JournalEvent} {event : JournalEvent} {row : ρ}
    (hevent : event ∈ journal) (hrow : row ∈ rows (journal.foldl applied backup))
    (hnames : closing.names event row = true) : closing.closed row := by
  rw [foldl_rows rows hrows] at hrow
  obtain ⟨old, -, rfl⟩ := List.mem_map.mp hrow
  rw [closing.names_foldl] at hnames
  exact closing.closed_of_mem hevent hnames

theorem applied_keeps (tables : RecoveryTables) (event : JournalEvent) :
    Keeps tables (applied tables event) := by
  have hhistory : ∀ workspaceId time, Keeps tables (removeHistory tables workspaceId time) := by
    intro workspaceId time
    have hkeeps := clearConversations_keeps tables (wroteTo tables workspaceId) time
    exact ⟨hkeeps.workspaces, hkeeps.identity, hkeeps.erased, hkeeps.references⟩
  have hcontent : Keeps tables (replayContent tables event) := by
    unfold replayContent
    split
    · exact clearConversations_keeps _ _ _
    · exact hhistory _ _
    · rename_i workspaceId time
      have hkeeps := hhistory workspaceId time
      exact ⟨hkeeps.workspaces, hkeeps.identity, hkeeps.erased, hkeeps.references⟩
    · exact .refl _
  exact ⟨hcontent.workspaces, hcontent.identity, hcontent.erased, hcontent.references⟩

theorem foldl_applied_keeps (tables : RecoveryTables) (journal : List JournalEvent) :
    Keeps tables (journal.foldl applied tables) := by
  induction journal generalizing tables with
  | nil => exact .refl _
  | cons event journal ih => exact (applied_keeps tables event).trans (ih _)

/-- A restored conversation comes from one of the backup. -/
theorem restored_document {backup : RecoveryTables} {journal : List JournalEvent}
    {row : ConversationRow} (hrow : row ∈ (journal.foldl applied backup).conversations.rows) :
    ∃ old ∈ backup.conversations.rows, old.id = row.id ∧
      (⟨row, (journal.foldl applied backup).conversationRecords.filter
          fun record => record.conversationRef = row.id⟩ : Document) =
        journal.foldl Document.replay ⟨old, backup.conversationRecords.filter
          fun record => record.conversationRef = old.id⟩ := by
  have hdocument : (⟨row, (journal.foldl applied backup).conversationRecords.filter
      fun record => record.conversationRef = row.id⟩ : Document) ∈
        documents (journal.foldl applied backup) := List.mem_map_of_mem hrow
  rw [foldl_rows documents documents_applied] at hdocument
  obtain ⟨document, hmem, heq⟩ := List.mem_map.mp hdocument
  obtain ⟨old, hold, rfl⟩ := List.mem_map.mp hmem
  refine ⟨old, hold, ?_, heq.symm⟩
  have hid := congrArg (fun document => document.row.id) heq
  rw [← hid, Document.foldl_id]

section Restored

variable {backup : RecoveryTables} {journal : List JournalEvent}

/-- A conversation is erased when the replay of its document says so. -/
theorem erased_restored {id : String} (href : References backup)
    (h : ∀ old ∈ backup.conversations.rows, old.id = id →
      (journal.foldl Document.replay ⟨old, backup.conversationRecords.filter
        fun record => record.conversationRef = old.id⟩).Erased) :
    Erased (journal.foldl applied backup) id := by
  have hdocument : ∀ row ∈ (journal.foldl applied backup).conversations.rows, row.id = id →
      Document.Erased ⟨row, (journal.foldl applied backup).conversationRecords.filter
        fun record => record.conversationRef = row.id⟩ := by
    intro row hrow hid
    obtain ⟨old, hold, hsame, heq⟩ := restored_document hrow
    rw [heq]
    exact h old hold (hsame.trans hid)
  refine ⟨fun row hrow hid => (hdocument row hrow hid).1, fun record hrecord hid => ?_⟩
  obtain ⟨row, hrow, hrowId⟩ := (foldl_applied_keeps backup journal).references href record hrecord
  have hnil := (hdocument row hrow (hrowId.trans hid)).2
  exact List.filter_eq_nil_iff.mp hnil record hrecord (decide_eq_true hrowId.symm)

theorem erased_document {id : String} {old : ConversationRow} (h : Erased backup id)
    (hold : old ∈ backup.conversations.rows) (hid : old.id = id) :
    Document.Erased ⟨old, backup.conversationRecords.filter
      fun record => record.conversationRef = old.id⟩ := by
  refine ⟨h.1 old hold hid, List.filter_eq_nil_iff.mpr fun record hrecord => ?_⟩
  rw [decide_eq_true_eq, hid]
  exact h.2 record hrecord

/-- The log lines, outputs, network events and outbox of a workspace. -/
def content (tables : RecoveryTables) : List ContentRow :=
  tables.workspaceLogs ++ tables.workspaceOutputs ++ tables.workspaceNetworkEvents ++
    tables.eventOutbox

theorem mem_content {tables : RecoveryTables} {row : ContentRow} :
    row ∈ content tables ↔ row ∈ tables.workspaceLogs ∨ row ∈ tables.workspaceOutputs ∨
      row ∈ tables.workspaceNetworkEvents ∨ row ∈ tables.eventOutbox := by
  simp only [content, List.mem_append, or_assoc]

/-- An event removes content of the workspace it purges, and no other. -/
theorem content_applied (tables : RecoveryTables) (event : JournalEvent) :
    content (applied tables event) = (content tables).filter fun row =>
      match event with
      | .workspacePurged _ workspaceId _ => row.workspaceId ≠ workspaceId
      | _ => true := by
  show content (replayContent tables event) = _
  cases event with
  | workspacePurged principalId workspaceId time =>
      simp only [content, List.filter_append]
      rfl
  | conversationDeleted workspaceId principalId conversationId time =>
      rw [List.filter_true]
      cases principalId <;> cases conversationId <;> rfl
  | _ => exact (List.filter_true _).symm

theorem content_restored {principalId workspaceId : String} {time : Nat}
    (hevent : JournalEvent.workspacePurged principalId workspaceId time ∈ journal)
    {row : ContentRow} (hrow : row ∈ content (journal.foldl applied backup)) :
    row.workspaceId ≠ workspaceId := by
  induction journal using List.reverseRecOn with
  | nil => exact absurd hevent List.not_mem_nil
  | append_singleton journal event ih =>
      rw [List.foldl_append, List.foldl_cons, List.foldl_nil, content_applied] at hrow
      obtain ⟨hold, hkept⟩ := List.mem_filter.mp hrow
      rcases List.mem_append.mp hevent with hmem | hmem
      · exact ih hmem hold
      · rw [← List.mem_singleton.mp hmem] at hkept
        exact of_decide_eq_true hkept

/-- No record of a purged workspace comes back. -/
theorem records_restored {principalId workspaceId : String} {time : Nat} (href : References backup)
    (hevent : JournalEvent.workspacePurged principalId workspaceId time ∈ journal)
    {record : ConversationRecordRow}
    (hrecord : record ∈ (journal.foldl applied backup).conversationRecords) :
    record.workspaceId ≠ workspaceId := by
  intro hworkspace
  obtain ⟨row, hrow, hid⟩ := (foldl_applied_keeps backup journal).references href record hrecord
  obtain ⟨old, hold, hsame, heq⟩ := restored_document hrow
  have hmem : record ∈ (journal.foldl Document.replay ⟨old, backup.conversationRecords.filter
      fun record => record.conversationRef = old.id⟩).records := by
    rw [← heq]
    exact List.mem_filter.mpr ⟨hrecord, decide_eq_true hid.symm⟩
  rcases Document.foldl_replay journal _ with ⟨hkept, -⟩ | ⟨cleared, hcleared, -⟩
  · -- its own record would select the document
    have hselects : selectsRecords (.workspacePurged principalId workspaceId time)
        (backup.conversationRecords.filter fun record => record.conversationRef = old.id) =
          true := by
      rw [hkept] at hmem
      exact List.any_eq_true.mpr ⟨record, hmem, decide_eq_true hworkspace⟩
    have herased : Document.Erased (journal.foldl Document.replay
        ⟨old, backup.conversationRecords.filter fun record => record.conversationRef = old.id⟩) :=
      Document.erased_of_mem hevent (Bool.or_eq_true_iff.mpr (.inr hselects))
    rw [herased.2] at hmem
    exact List.not_mem_nil hmem
  · rw [hcleared] at hmem
    exact List.not_mem_nil hmem

/-- What the journal and the backup cover is gone from the restored tables. -/
theorem Covered.holds {effect : Effect} (h : Covered backup journal effect)
    (href : References backup) : effect.Holds (journal.foldl applied backup) := by
  -- covered by a record of the journal, by the backup itself, or row by row
  rcases h with hjournaled | hshown | ⟨id, rfl, hselected⟩
  · cases effect with
    | keyRevoked keyId =>
        obtain ⟨event, hevent, hid⟩ := hjournaled
        intro key hkey hkeyId
        refine closed_restored keyClosing (fun tables => tables.auth.machineKeys.rows)
          (fun _ _ => rfl) hevent hkey ?_
        exact List.contains_iff_mem.mpr (hkeyId ▸ hid)
    | secretRetired name versionId =>
        obtain ⟨time, hevent⟩ := hjournaled
        intro row hrow hname hversion
        refine closed_restored secretClosing (fun tables => tables.secrets.rows) (fun _ _ => rfl)
          hevent hrow ?_
        show (decide (row.name = name) && decide (row.versionId = versionId)) = true
        rw [decide_eq_true hname, decide_eq_true hversion]
        rfl
    | templateRetired name version =>
        obtain ⟨time, hevent⟩ := hjournaled
        intro row hrow hkey
        exact (closed_restored templateClosing (fun tables => tables.templates.rows)
          (fun _ _ => rfl) hevent hrow (decide_eq_true hkey)).1
    | checkpointDeleted checkpointId =>
        obtain ⟨principalId, time, hevent⟩ := hjournaled
        intro row hrow hid
        exact (closed_restored checkpointClosing (fun tables => tables.checkpoints.rows)
          (fun _ _ => rfl) hevent hrow (decide_eq_true hid)).1
    | conversationDeleted id => exact hjournaled.elim
    | purged workspaceId =>
        obtain ⟨principalId, time, hevent⟩ := hjournaled
        refine ⟨fun record => records_restored href hevent, fun row hrow => ?_⟩
        exact content_restored hevent (mem_content.mpr hrow)
  · cases effect with
    | secretRetired name versionId =>
        intro row hrow hname hversion
        have hrows : (journal.foldl applied backup).secrets.rows =
            backup.secrets.rows.map fun row => journal.foldl secretClosing.act row :=
          foldl_rows (fun tables : RecoveryTables => tables.secrets.rows) (fun _ _ => rfl) journal
            backup
        rw [hrows] at hrow
        obtain ⟨old, hold, rfl⟩ := List.mem_map.mp hrow
        -- the replay changes neither the name nor the version of a row
        have hnames := secretClosing.names_foldl (.secretRetired name versionId 0) old journal
        simp only [secretClosing, retiresSecret] at hnames hname hversion
        rw [hname, hversion, decide_eq_true rfl, decide_eq_true rfl, Bool.and_self, eq_comm,
          Bool.and_eq_true, decide_eq_true_eq, decide_eq_true_eq] at hnames
        have hclosed : secretClosing.closed old := hshown old hold hnames.1 hnames.2
        rw [secretClosing.foldl_of_closed hclosed]
        exact hclosed
    | conversationDeleted id =>
        exact erased_restored href fun old hold hid =>
          (erased_document hshown hold hid).foldl journal
    | _ => exact hshown.elim
  · refine erased_restored href fun old hold hid => ?_
    obtain ⟨event, hevent, hselects⟩ := hselected old hold hid
    exact Document.erased_of_mem hevent hselects

end Restored

/-- A record does not retire a version that it does not name. -/
theorem replaySecret_of_versionOf {event : JournalEvent} {row : SecretRow}
    (h : versionOf event ≠ some row.versionId) : replaySecret event row = row := by
  cases event with
  | secretRetired name versionId time =>
      exact if_neg fun hnamed => h (congrArg some hnamed.2.symm)
  | _ => rfl

/-- Deletions survive a restore, on the condition that the backup knows the
workspaces and what they wrote to. A replay of the journal then reaches its
end, what committed operations took away is gone, and no record retires a
secret version that was written after it. On any tables, a replay may be
interrupted and started again. -/
theorem deletions_survive_restore {tables : RecoveryTables} {backup system : System}
    {before after : List Action} (hreferences : References tables)
    (hversions : ∀ name row, tables.secrets.get? name = some row →
      row.versionId ∈ tables.secretVersions)
    (hbefore : Run Step (System.initial tables) before backup)
    (hafter : Run (fun system action system' =>
      Step system action system' ∧ Within backup.tables system action) backup after system) :
    ((replay backup.tables system.journal).2 = true ∧
      (∀ effect ∈ system.done, effect.Holds (replay backup.tables system.journal).1) ∧
      ∀ entry ∈ system.written, ∀ event ∈ system.journal.take entry.2,
        ∀ row : SecretRow, row.versionId = entry.1 → replaySecret event row = row) ∧
    ∀ (restored : RecoveryTables) (done log : List JournalEvent), done <+: log →
      SameRows (replay (replay restored done).1 log).1 (replay restored log).1 := by
  have hsettled : backup.Settled := hbefore.invariant (fun hstep h => h.step hstep)
    ⟨System.initial_sound hreferences hversions, fun _ h => absurd h List.not_mem_nil⟩
  have hrestorable : system.Restorable backup.tables :=
    hafter.invariant (fun hstep h => h.step hstep.1 hstep.2) hsettled.backup
  -- what a record names is in the backup, so no step of the replay fails
  have happlies : ∀ event ∈ system.journal, applies backup.tables event = true := by
    intro event hevent
    rw [applies]
    cases hhistory : historyOf event with
    | none => rfl
    | some workspaceId =>
        exact List.contains_iff_mem.mpr (hrestorable.history event hevent workspaceId hhistory)
  rw [replay_of_applies happlies]
  refine ⟨⟨rfl, ?_, ?_⟩, fun restored done log hdone => replay_restart hdone restored⟩
  · intro effect heffect
    exact (hrestorable.covered effect heffect).holds hsettled.references
  · intro entry hentry event hevent row hrow
    refine replaySecret_of_versionOf ?_
    rw [hrow]
    exact (hrestorable.written entry hentry).2.2 event hevent

/-- A conversation of the workspace `first`, with one record. -/
def sampleConversation : ConversationRow where
  id := "document"
  principalId := "caller"
  conversationId := some "chat"
  workspaceId := "first"
  status := .retained
  recordCount := 1
  messageCount := 1
  bytes := 1
  expiresAt := none
  deletedAt := none

def sampleTables : RecoveryTables where
  auth := ⟨Table.empty, Table.empty⟩
  workspaces := ["first", "second"]
  secrets := Table.empty
  secretVersions := []
  templates := Table.empty
  checkpoints := Table.empty
  conversations := Table.empty.insert sampleConversation
  conversationRecords := [⟨"document", "first", 1⟩]
  workspaceConversations := Table.empty
  workspaceLogs := []
  workspaceOutputs := []
  workspaceNetworkEvents := []
  eventOutbox := []

/-- The workspace `second` writes to the conversation as well. -/
def sharedTables : RecoveryTables :=
  { sampleTables with
    conversations := Table.empty.insert
      { sampleConversation with workspaceId := "second", recordCount := 2, messageCount := 2,
                                bytes := 2 }
    conversationRecords := [⟨"document", "first", 1⟩, ⟨"document", "second", 1⟩] }

theorem sampleTables_references : References sampleTables := by
  intro record hrecord
  obtain rfl := List.mem_singleton.mp hrecord
  exact ⟨sampleConversation, List.mem_cons_self, rfl⟩

theorem sharedTables_keeps : Keeps sampleTables sharedTables where
  workspaces _ h := h
  identity row hrow := by
    obtain rfl := List.mem_singleton.mp hrow
    exact ⟨_, List.mem_cons_self, rfl, rfl, rfl⟩
  erased row hrow herased := by
    obtain rfl := List.mem_singleton.mp hrow
    exact (nomatch herased.1 sampleConversation List.mem_cons_self rfl)
  references _ record hrecord := by
    rcases List.mem_cons.mp hrecord with rfl | hrecord
    · exact ⟨_, List.mem_cons_self, rfl⟩
    · obtain rfl := List.mem_singleton.mp hrecord
      exact ⟨_, List.mem_cons_self, rfl⟩

/-- The deletion of a history that was the same at the backup. -/
theorem deletions_survive_restore_sample :
    ∃ system : System, Run Step (System.initial sampleTables)
        [.start (.deleteConversation "first") 5, .append 0, .commit 0] system ∧
      Effect.conversationDeleted "document" ∈ system.done ∧
      Erased (replay sampleTables system.journal).1 "document" := by
  have hrun : ∃ system : System, Run (fun system action system' =>
      Step system action system' ∧ Within sampleTables system action) (System.initial sampleTables)
        [.start (.deleteConversation "first") 5, .append 0, .commit 0] system ∧
      Effect.conversationDeleted "document" ∈ system.done := by
    refine ⟨_, .cons ⟨.start rfl fun _ h => absurd h List.not_mem_nil, ?_⟩
      (.cons ⟨.early rfl, trivial⟩ (.cons ⟨.commit rfl rfl, ?_⟩ (.nil _))), List.mem_cons_self⟩
    · intro intent hintent event hevent workspaceId hhistory
      cases hintent
      obtain rfl := List.mem_singleton.mp hevent
      obtain rfl := Option.some.inj hhistory
      exact List.mem_cons_self
    · intro flight hflight workspaceId hworkspace row hrow hwrote old hold hid
      cases hflight
      obtain rfl := Option.some.inj hworkspace
      obtain rfl := List.mem_singleton.mp hold
      exact .inl rfl
  obtain ⟨system, hrun, hdone⟩ := hrun
  refine ⟨system, hrun.mono And.left, hdone, ?_⟩
  have hbefore : Run Step (System.initial sampleTables) [] (System.initial sampleTables) := .nil _
  exact (deletions_survive_restore sampleTables_references (fun _ _ h => (nomatch h)) hbefore
    hrun).1.2.1 _ hdone

/-- A deletion of the history of `second` also erases the conversation that
it shares with `first`. The backup from before its first record does not
know that it is shared, so the restore brings the conversation back. -/
theorem deletion_undone_by_restore :
    ∃ system : System, Run Step (System.initial sampleTables)
        [.other, .start (.deleteConversation "second") 5, .append 0, .commit 0] system ∧
      (replay sampleTables system.journal).2 = true ∧
      ∃ effect ∈ system.done, ¬ effect.Holds (replay sampleTables system.journal).1 := by
  refine ⟨_, .cons (.other sharedTables_keeps rfl rfl)
    (.cons (.start rfl fun _ h => absurd h List.not_mem_nil)
      (.cons (.early rfl) (.cons (.commit rfl rfl) (.nil _)))), rfl,
    .conversationDeleted "document", List.mem_cons_self, fun h => ?_⟩
  exact (nomatch h.1 sampleConversation List.mem_cons_self rfl)

end PocketCoder.Recovery.Deletions
