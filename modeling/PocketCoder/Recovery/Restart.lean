import PocketCoder.Recovery.Replay
import PocketCoder.Foundation.Replays

/-!
A replay that is interrupted starts again from the first event of the
journal, and leaves the same rows as a replay without the interruption.

Keys, secrets, templates and checkpoints keep the first time they get, so an
event has nothing left to do after it was applied. The lists and the
disabling of a principal are last-wins, and a replay of several events is
one overwrite. A conversation is replayed with its records: the first event
that selects it removes the records, and from then on only its row counts.
-/

namespace PocketCoder.Recovery

open PocketCoder.Foundation PocketCoder.Journal PocketCoder.Auth

/-! ### Rows that events close for good -/

/-- A kind of row that some events name, and that is closed from the first
of them on. -/
structure Closing (ρ : Type) where
  act : ρ → JournalEvent → ρ
  names : JournalEvent → ρ → Bool
  closed : ρ → Prop
  closes : ∀ {event row}, names event row = true → closed (act row event)
  skips : ∀ {event row}, names event row = false → act row event = row
  stays : ∀ {event row}, closed row → act row event = row
  names_act : ∀ {event other row}, names event (act row other) = names event row

namespace Closing

variable {ρ : Type} (closing : Closing ρ)

/-- A closed row stays as it is. -/
theorem foldl_of_closed {row : ρ} (h : closing.closed row) (log : List JournalEvent) :
    log.foldl closing.act row = row := by
  induction log with
  | nil => rfl
  | cons event log ih => rw [List.foldl_cons, closing.stays h, ih]

/-- A row that the log names is closed at its end. -/
theorem closed_of_mem {event : JournalEvent} {row : ρ} {log : List JournalEvent}
    (hmem : event ∈ log) (hnames : closing.names event row = true) :
    closing.closed (log.foldl closing.act row) := by
  induction log generalizing row with
  | nil => exact absurd hmem List.not_mem_nil
  | cons other log ih =>
      rw [List.foldl_cons]
      rcases List.mem_cons.mp hmem with rfl | hmem
      · rw [closing.foldl_of_closed (closing.closes hnames)]
        exact closing.closes hnames
      · exact ih hmem (closing.names_act.trans hnames)

theorem names_foldl (event : JournalEvent) (row : ρ) (log : List JournalEvent) :
    closing.names event (log.foldl closing.act row) = closing.names event row := by
  induction log generalizing row with
  | nil => rfl
  | cons other log ih => rw [List.foldl_cons, ih, closing.names_act]

theorem replaysOnce : ReplaysOnce closing.act := by
  refine replaysOnce_of_settled
    (fun event row => closing.names event row = true → closing.closed row) ?_ ?_ ?_
  · intro event row h
    exact closing.closes (closing.names_act.symm.trans h)
  · intro event other row h hnames
    have hclosed := h (closing.names_act.symm.trans hnames)
    rw [closing.stays hclosed]
    exact hclosed
  · intro event row h
    cases hnames : closing.names event row with
    | false => exact closing.skips hnames
    | true => exact closing.stays (h hnames)

end Closing

/-- The first time wins. -/
theorem isSome_or_some (first : Option Nat) (time : Nat) :
    (first.or (some time)).isSome = true := by
  cases first <;> rfl

theorem or_of_isSome {first : Option Nat} (h : first.isSome = true) (time : Option Nat) :
    first.or time = first := by
  cases first with
  | none => exact absurd h Bool.false_ne_true
  | some _ => rfl

/-- The keys that an event revokes. -/
def revokedIds : JournalEvent → List String
  | .keyRevoked keyId _ => [keyId]
  | .keysRevoked _ keyIds _ | .principalDisabled _ keyIds _ => keyIds
  | _ => []

theorem replayKey_eq (event : JournalEvent) :
    ∃ time, ∀ key, replayKey event key = revokedKey (revokedIds event) time key := by
  cases event with
  | keyRevoked keyId time => exact ⟨time, fun _ => rfl⟩
  | keysRevoked principalId keyIds time => exact ⟨time, fun _ => rfl⟩
  | principalDisabled principalId keyIds time => exact ⟨time, fun _ => rfl⟩
  | _ => exact ⟨0, fun _ => rfl⟩

def keyClosing : Closing MachineKeyRow where
  act key event := replayKey event key
  names event key := (revokedIds event).contains key.id
  closed key := key.revokedAt.isSome = true
  closes {event key} h := by
    obtain ⟨time, heq⟩ := replayKey_eq event
    rw [heq, revokedKey, if_pos h]
    exact isSome_or_some _ _
  skips {event key} h := by
    obtain ⟨time, heq⟩ := replayKey_eq event
    rw [heq, revokedKey, h]
    rfl
  stays {event key} h := by
    obtain ⟨time, heq⟩ := replayKey_eq event
    rw [heq, revokedKey, or_of_isSome h]
    split_ifs <;> rfl
  names_act {event other key} := by rw [replayKey_id]

/-- The secret version that an event retires. -/
def retiresSecret (event : JournalEvent) (row : SecretRow) : Bool :=
  match event with
  | .secretRetired name versionId _ => row.name = name && row.versionId = versionId
  | _ => false

theorem replaySecret_versionId (event : JournalEvent) (row : SecretRow) :
    (replaySecret event row).versionId = row.versionId := by
  unfold replaySecret
  split
  · split_ifs <;> rfl
  · rfl

def secretClosing : Closing SecretRow where
  act row event := replaySecret event row
  names := retiresSecret
  closed row := row.retiredAt.isSome = true
  closes {event row} h := by
    cases event with
    | secretRetired name versionId time =>
        rw [retiresSecret, Bool.and_eq_true, decide_eq_true_eq, decide_eq_true_eq] at h
        rw [replaySecret, if_pos h]
        exact isSome_or_some _ _
    | _ => exact absurd h Bool.false_ne_true
  skips {event row} h := by
    cases event with
    | secretRetired name versionId time =>
        rw [retiresSecret, Bool.and_eq_false_iff, decide_eq_false_iff_not,
          decide_eq_false_iff_not] at h
        exact if_neg fun hnamed => h.elim (fun hname => hname hnamed.1) fun hv => hv hnamed.2
    | _ => rfl
  stays {event row} h := by
    unfold replaySecret
    split
    · rw [or_of_isSome h]
      split_ifs <;> rfl
    · rfl
  names_act {event other row} := by
    cases event with
    | secretRetired name versionId time =>
        rw [retiresSecret, replaySecret_name, replaySecret_versionId]
        rfl
    | _ => rfl

/-- The template version that an event retires. -/
def retiresTemplate (event : JournalEvent) (row : TemplateRow) : Bool :=
  match event with
  | .templateRetired name version _ => row.key = (name, version)
  | _ => false

def templateClosing : Closing TemplateRow where
  act row event := replayTemplate event row
  names := retiresTemplate
  closed row := row.status = .retired ∧ row.retiredAt.isSome = true
  closes {event row} h := by
    cases event with
    | templateRetired name version time =>
        rw [retiresTemplate, decide_eq_true_eq, Prod.mk.injEq] at h
        rw [replayTemplate, if_pos h]
        exact ⟨rfl, isSome_or_some _ _⟩
    | _ => exact absurd h Bool.false_ne_true
  skips {event row} h := by
    cases event with
    | templateRetired name version time =>
        rw [retiresTemplate, decide_eq_false_iff_not, Prod.mk.injEq] at h
        exact if_neg h
    | _ => rfl
  stays {event row} h := by
    unfold replayTemplate
    split
    · rw [or_of_isSome h.2, ← h.1]
      split_ifs <;> rfl
    · rfl
  names_act {event other row} := by
    cases event with
    | templateRetired name version time =>
        rw [retiresTemplate, replayTemplate_key]
        rfl
    | _ => rfl

/-- The checkpoint that an event deletes. -/
def deletesCheckpoint (event : JournalEvent) (row : CheckpointRow) : Bool :=
  match event with
  | .checkpointDeleted _ checkpointId _ => row.id = checkpointId
  | _ => false

def checkpointClosing : Closing CheckpointRow where
  act row event := replayCheckpoint event row
  names := deletesCheckpoint
  closed row := row.state = .deleted ∧ row.deletedAt.isSome = true
  closes {event row} h := by
    cases event with
    | checkpointDeleted principalId checkpointId time =>
        rw [deletesCheckpoint, decide_eq_true_eq] at h
        rw [replayCheckpoint, if_pos h]
        exact ⟨rfl, isSome_or_some _ _⟩
    | _ => exact absurd h Bool.false_ne_true
  skips {event row} h := by
    cases event with
    | checkpointDeleted principalId checkpointId time =>
        rw [deletesCheckpoint, decide_eq_false_iff_not] at h
        exact if_neg h
    | _ => rfl
  stays {event row} h := by
    unfold replayCheckpoint
    split
    · rw [or_of_isSome h.2, ← h.1]
      split_ifs <;> rfl
    · rfl
  names_act {event other row} := by
    cases event with
    | checkpointDeleted principalId checkpointId time =>
        rw [deletesCheckpoint, replayCheckpoint_id]
        rfl
    | _ => rfl

/-! ### Principals -/

/-- What a replay of several events does to one principal. -/
structure PrincipalReplay where
  lists : Option Grants
  enabled : Bool
  disabledAt : Option Nat

def PrincipalReplay.apply (replay : PrincipalReplay) (row : PrincipalRow) : PrincipalRow :=
  { row with
    scopes := (replay.lists.map Grants.scopes).getD row.scopes
    templateNames := (replay.lists.map Grants.templateNames).getD row.templateNames
    disabledAt := (if replay.enabled then none else row.disabledAt).or replay.disabledAt }

theorem PrincipalReplay.apply_apply (replay : PrincipalReplay) (row : PrincipalRow) :
    replay.apply (replay.apply row) = replay.apply row := by
  obtain ⟨lists, enabled, disabledAt⟩ := replay
  unfold PrincipalReplay.apply
  have hdisabled : (row.disabledAt.or disabledAt).or disabledAt = row.disabledAt.or disabledAt := by
    cases row.disabledAt <;> cases disabledAt <;> rfl
  cases lists <;> cases enabled <;> simp [hdisabled]

/-- One more event. -/
theorem PrincipalReplay.exists_concat (replay : PrincipalReplay) (event : JournalEvent)
    (id : String) : ∃ longer : PrincipalReplay, ∀ row : PrincipalRow, row.id = id →
      replayPrincipal event (replay.apply row) = longer.apply row := by
  by_cases hnamed : ∃ row : PrincipalRow, row.id = id ∧ replayPrincipal event row ≠ row
  -- an event that changes no row of the principal adds nothing
  swap
  · refine ⟨replay, fun row hid => ?_⟩
    by_contra hne
    exact hnamed ⟨replay.apply row, hid, hne⟩
  obtain ⟨witness, hwitness, hne⟩ := hnamed
  cases event with
  | principalDisabled principalId keyIds time =>
      have hid : id = principalId := by
        by_contra h
        exact hne (if_neg (hwitness ▸ h))
      refine ⟨{ replay with disabledAt := replay.disabledAt.or (some time) }, fun row hrow => ?_⟩
      have happly : (replay.apply row).id = principalId := hrow.trans hid
      rw [replayPrincipal, if_pos happly, PrincipalReplay.apply, PrincipalReplay.apply,
        Option.or_assoc]
  | principalEnabled principalId time =>
      have hid : id = principalId := by
        by_contra h
        exact hne (if_neg (hwitness ▸ h))
      refine ⟨{ replay with enabled := true, disabledAt := none }, fun row hrow => ?_⟩
      have happly : (replay.apply row).id = principalId := hrow.trans hid
      rw [replayPrincipal, if_pos happly]
      rfl
  | principalAccess principalId scopes templateNames time =>
      have hid : id = principalId := by
        by_contra h
        exact hne (if_neg (hwitness ▸ h))
      refine ⟨{ replay with lists := some ⟨scopes, templateNames⟩ }, fun row hrow => ?_⟩
      have happly : (replay.apply row).id = principalId := hrow.trans hid
      rw [replayPrincipal, if_pos happly]
      rfl
  | _ => exact absurd rfl hne

theorem foldl_replayPrincipal (log : List JournalEvent) (id : String) :
    ∃ replay : PrincipalReplay, ∀ row : PrincipalRow, row.id = id →
      log.foldl (fun row event => replayPrincipal event row) row = replay.apply row := by
  induction log using List.reverseRecOn with
  | nil => exact ⟨⟨none, false, none⟩, fun row _ => by simp [PrincipalReplay.apply]⟩
  | append_singleton log event ih =>
      obtain ⟨replay, hreplay⟩ := ih
      obtain ⟨longer, hlonger⟩ := replay.exists_concat event id
      refine ⟨longer, fun row hid => ?_⟩
      rw [List.foldl_append, hreplay row hid]
      exact hlonger row hid

theorem replayPrincipal_replaysOnce :
    ReplaysOnce fun row event => replayPrincipal event row := by
  intro log row
  obtain ⟨replay, hreplay⟩ := foldl_replayPrincipal log row.id
  rw [hreplay row rfl, hreplay (replay.apply row) rfl, replay.apply_apply]

/-! ### Conversations -/

/-- A conversation and its records. -/
structure Document where
  row : ConversationRow
  records : List ConversationRecordRow

def documents (tables : RecoveryTables) : List Document :=
  tables.conversations.rows.map fun row =>
    ⟨row, tables.conversationRecords.filter fun record => record.conversationRef = row.id⟩

/-- The time and the conversations of a deletion: by identity, or by what
the row and the records say about a workspace. -/
def selection : JournalEvent → Option (Nat × (ConversationRow → Bool) × Option String)
  | .conversationDeleted _ (some principalId) (some conversationId) time =>
      some (time, hasIdentity principalId conversationId, none)
  | .conversationDeleted workspaceId _ _ time | .workspacePurged _ workspaceId time =>
      some (time, fun row => row.workspaceId = workspaceId, some workspaceId)
  | _ => none

def Document.cleared (time : Nat) (document : Document) : Document :=
  ⟨clearedRow .deleted time document.row, []⟩

/-- An event names the document by its row. -/
def selectsRow (event : JournalEvent) (row : ConversationRow) : Bool :=
  (selection event).any fun chosen => chosen.2.1 row

/-- An event names the document by its records. -/
def selectsRecords (event : JournalEvent) (records : List ConversationRecordRow) : Bool :=
  (selection event).any fun chosen => chosen.2.2.any fun workspaceId =>
    records.any fun record => record.workspaceId = workspaceId

def Document.replay (document : Document) (event : JournalEvent) : Document :=
  if selectsRow event document.row || selectsRecords event document.records then
    document.cleared (((selection event).map Prod.fst).getD 0)
  else document

theorem selectsRow_cleared (event : JournalEvent) (time : Nat) (row : ConversationRow) :
    selectsRow event (clearedRow .deleted time row) = selectsRow event row := by
  unfold selectsRow selection
  split <;> rfl

theorem selectsRecords_nil (event : JournalEvent) : selectsRecords event [] = false := by
  unfold selectsRecords selection
  split <;> rfl

/-- A cleared document is cleared again by the events that name its row. -/
theorem Document.replay_cleared (document : Document) (time : Nat) (event : JournalEvent) :
    (document.cleared time).replay event =
      if selectsRow event document.row then
        document.cleared (((selection event).map Prod.fst).getD 0)
      else document.cleared time := by
  rw [Document.replay, Document.cleared, selectsRow_cleared, selectsRecords_nil, Bool.or_false]
  rfl

theorem Document.foldl_cleared (log : List JournalEvent) (document : Document) (time : Nat) :
    ∃ time', log.foldl Document.replay (document.cleared time) = document.cleared time' := by
  induction log generalizing time with
  | nil => exact ⟨time, rfl⟩
  | cons event log ih =>
      rw [List.foldl_cons, Document.replay_cleared]
      split_ifs
      · exact ih _
      · exact ih _

/-- Nothing clears again a document whose row is not named. -/
theorem Document.foldl_cleared_of_not {log : List JournalEvent} {document : Document}
    (h : ∀ event ∈ log, selectsRow event document.row = false) (time : Nat) :
    log.foldl Document.replay (document.cleared time) = document.cleared time := by
  induction log with
  | nil => rfl
  | cons event log ih =>
      rw [List.foldl_cons, Document.replay_cleared, h event List.mem_cons_self]
      exact ih fun other hother => h other (List.mem_cons_of_mem _ hother)

/-- A document is left as it was, or cleared at a time that a second replay
gives as well. -/
theorem Document.foldl_replay (log : List JournalEvent) (document : Document) :
    (log.foldl Document.replay document = document ∧
        ∀ event ∈ log, selectsRow event document.row = false) ∨
      ∃ time, log.foldl Document.replay document = document.cleared time ∧
        log.foldl Document.replay (document.cleared time) = document.cleared time := by
  induction log using List.reverseRecOn with
  | nil => exact .inl ⟨rfl, fun _ h => absurd h List.not_mem_nil⟩
  | append_singleton log event ih =>
      -- by the row, the last time is the one of this event in both replays
      have hrow : selectsRow event document.row = true → ∀ time,
          (log ++ [event]).foldl Document.replay (document.cleared time) =
            document.cleared (((selection event).map Prod.fst).getD 0) := by
        intro hselects time
        obtain ⟨time', htime'⟩ := document.foldl_cleared log time
        rw [List.foldl_append, htime', List.foldl_cons, List.foldl_nil, Document.replay_cleared,
          if_pos hselects]
      simp only [List.foldl_append, List.foldl_cons, List.foldl_nil] at hrow ⊢
      cases hselects : selectsRow event document.row with
      | true =>
          refine .inr ⟨((selection event).map Prod.fst).getD 0, ?_, hrow hselects _⟩
          -- cleared by its row: a second replay clears it at the same time, whatever came before
          rcases ih with ⟨hsame, -⟩ | ⟨time, htime, -⟩
          · rw [hsame, Document.replay, hselects]
            rfl
          · rw [htime, Document.replay_cleared, if_pos hselects]
      | false =>
          rcases ih with ⟨hsame, hnot⟩ | ⟨time, htime, hagain⟩
          · have hnot' : ∀ other ∈ log ++ [event], selectsRow other document.row = false := by
              intro other hother
              rcases List.mem_append.mp hother with hmem | hmem
              · exact hnot other hmem
              · rw [List.mem_singleton.mp hmem, hselects]
            rw [hsame, Document.replay, hselects, Bool.false_or]
            -- cleared by its records, which are gone in a second replay: the row keeps the time
            cases hrecords : selectsRecords event document.records with
            | false => exact .inl ⟨rfl, hnot'⟩
            | true =>
                refine .inr ⟨((selection event).map Prod.fst).getD 0, rfl, ?_⟩
                rw [Document.foldl_cleared_of_not hnot, Document.replay_cleared, hselects]
                rfl
          · refine .inr ⟨time, ?_, ?_⟩
            · rw [htime, Document.replay_cleared, hselects]
              rfl
            · rw [hagain, Document.replay_cleared, hselects]
              rfl

theorem Document.replay_replaysOnce : ReplaysOnce Document.replay := by
  intro log document
  rcases document.foldl_replay log with ⟨hsame, -⟩ | ⟨time, htime, hagain⟩
  · rw [hsame, hsame]
  · rw [htime, hagain]

/-- A document is erased when only its tombstone is left. -/
def Document.Erased (document : Document) : Prop :=
  document.row.status = .deleted ∧ document.records = []

theorem Document.replay_cases (document : Document) (event : JournalEvent) :
    document.replay event = document ∨ ∃ time, document.replay event = document.cleared time := by
  unfold Document.replay
  split_ifs
  · exact .inr ⟨_, rfl⟩
  · exact .inl rfl

theorem Document.foldl_id (log : List JournalEvent) (document : Document) :
    (log.foldl Document.replay document).row.id = document.row.id := by
  induction log generalizing document with
  | nil => rfl
  | cons event log ih =>
      rw [List.foldl_cons, ih]
      rcases document.replay_cases event with heq | ⟨time, heq⟩ <;> rw [heq]
      rfl

theorem Document.Erased.foldl {document : Document} (h : document.Erased)
    (log : List JournalEvent) : (log.foldl Document.replay document).Erased := by
  induction log generalizing document with
  | nil => exact h
  | cons event log ih =>
      refine ih ?_
      rcases document.replay_cases event with heq | ⟨time, heq⟩ <;> rw [heq]
      · exact h
      · exact ⟨rfl, rfl⟩

/-- A document that an event of the log selects is erased at its end. -/
theorem Document.erased_of_mem {document : Document} {event : JournalEvent}
    {log : List JournalEvent} (hmem : event ∈ log)
    (hselects : (selectsRow event document.row || selectsRecords event document.records) = true) :
    (log.foldl Document.replay document).Erased := by
  induction log with
  | nil => exact absurd hmem List.not_mem_nil
  | cons other log ih =>
      rw [List.foldl_cons, Document.replay]
      split_ifs with hother
      · exact Document.Erased.foldl ⟨rfl, rfl⟩ log
      · rcases List.mem_cons.mp hmem with rfl | hmem
        · exact absurd hselects hother
        · exact ih hmem

/-- The identifier of a selected conversation. -/
theorem selected_contains {table : Table ConversationRow.id} (selected : ConversationRow → Bool)
    {row : ConversationRow} (hrow : row ∈ table.rows) :
    ((table.rows.filter selected).map ConversationRow.id).contains row.id = selected row := by
  rw [Bool.eq_iff_iff, List.contains_iff_mem]
  constructor
  · intro h
    obtain ⟨other, hother, hid⟩ := List.mem_map.mp h
    obtain ⟨hmem, hselected⟩ := List.mem_filter.mp hother
    rwa [List.inj_on_of_nodup_map table.nodup hmem hrow hid] at hselected
  · intro h
    exact List.mem_map_of_mem (List.mem_filter.mpr ⟨hrow, h⟩)

theorem documents_clearConversations (tables : RecoveryTables) (selected : ConversationRow → Bool)
    (time : Nat) :
    documents (clearConversations tables selected .deleted time) =
      (documents tables).map fun document =>
        if selected document.row then document.cleared time else document := by
  unfold documents clearConversations Table.update
  rw [List.map_map, List.map_map]
  refine List.map_congr_left fun row hrow => ?_
  -- identifiers are unique, so the row is selected by its identifier exactly when it is selected
  have hcontains := selected_contains selected hrow
  simp only [Function.comp_apply, clearRow_id, List.filter_filter]
  cases hselected : selected row with
  | true =>
      rw [hselected] at hcontains
      have hrecords : tables.conversationRecords.filter (fun record =>
          decide (record.conversationRef = row.id) &&
            !((tables.conversations.rows.filter selected).map ConversationRow.id).contains
              record.conversationRef) = [] := by
        refine List.filter_eq_nil_iff.mpr fun record _ => ?_
        rw [Bool.and_eq_true, decide_eq_true_eq, not_and]
        intro href
        rw [href, hcontains]
        exact Bool.false_ne_true
      rw [hrecords, clearRow, if_pos hselected, if_pos rfl]
      rfl
  | false =>
      rw [hselected] at hcontains
      rw [clearRow, if_neg (by rw [hselected]; exact Bool.false_ne_true), if_neg Bool.false_ne_true]
      congr 1
      refine List.filter_congr fun record _ => ?_
      by_cases href : record.conversationRef = row.id
      · rw [href, hcontains, Bool.not_false, Bool.and_true]
      · rw [decide_eq_false href]
        rfl

/-- What a workspace wrote to is decided by the row and its records. -/
theorem wroteTo_eq (tables : RecoveryTables) (workspaceId : String) (row : ConversationRow) :
    wroteTo tables workspaceId row =
      (decide (row.workspaceId = workspaceId) ||
        (tables.conversationRecords.filter fun record => record.conversationRef = row.id).any
          fun record => record.workspaceId = workspaceId) := by
  rw [wroteTo, List.any_filter]

theorem documents_removeHistory (tables : RecoveryTables) (workspaceId : String) (time : Nat) :
    documents (removeHistory tables workspaceId time) =
      (documents tables).map fun document =>
        if decide (document.row.workspaceId = workspaceId) ||
            document.records.any fun record => record.workspaceId = workspaceId then
          document.cleared time
        else document := by
  refine (documents_clearConversations tables (wroteTo tables workspaceId) time).trans ?_
  refine List.map_congr_left fun document hdocument => ?_
  obtain ⟨row, -, rfl⟩ := List.mem_map.mp hdocument
  simp only [wroteTo_eq]

/-- An event acts on each document by itself. -/
theorem documents_applied (tables : RecoveryTables) (event : JournalEvent) :
    documents (applied tables event) =
      (documents tables).map fun document => document.replay event := by
  show documents (replayContent tables event) = _
  cases event with
  | conversationDeleted workspaceId principalId conversationId time =>
      cases principalId with
      | none => exact documents_removeHistory tables workspaceId time
      | some principalId =>
          cases conversationId with
          | none => exact documents_removeHistory tables workspaceId time
          | some conversationId =>
              refine (documents_clearConversations tables
                (hasIdentity principalId conversationId) time).trans ?_
              refine List.map_congr_left fun document _ => ?_
              simp [Document.replay, selectsRow, selectsRecords, selection]
  | workspacePurged principalId workspaceId time =>
      exact documents_removeHistory tables workspaceId time
  | _ => exact (List.map_id' _).symm

/-! ### The whole replay -/

/-- The same keys, principals, secrets, templates, checkpoints and
conversations. -/
structure SameRows (tables tables' : RecoveryTables) : Prop where
  machineKeys : tables.auth.machineKeys.rows = tables'.auth.machineKeys.rows
  principals : tables.auth.principals.rows = tables'.auth.principals.rows
  secrets : tables.secrets.rows = tables'.secrets.rows
  templates : tables.templates.rows = tables'.templates.rows
  checkpoints : tables.checkpoints.rows = tables'.checkpoints.rows
  conversations : tables.conversations.rows = tables'.conversations.rows

theorem foldl_applied_restart {done log : List JournalEvent} (hdone : done <+: log)
    (tables : RecoveryTables) :
    SameRows (log.foldl applied (done.foldl applied tables)) (log.foldl applied tables) where
  machineKeys := keyClosing.replaysOnce.rows_restart (fun tables => tables.auth.machineKeys.rows)
    (fun _ _ => rfl) hdone tables
  principals := replayPrincipal_replaysOnce.rows_restart (fun tables => tables.auth.principals.rows)
    (fun _ _ => rfl) hdone tables
  secrets := secretClosing.replaysOnce.rows_restart (fun tables => tables.secrets.rows)
    (fun _ _ => rfl) hdone tables
  templates := templateClosing.replaysOnce.rows_restart (fun tables => tables.templates.rows)
    (fun _ _ => rfl) hdone tables
  checkpoints := checkpointClosing.replaysOnce.rows_restart (fun tables => tables.checkpoints.rows)
    (fun _ _ => rfl) hdone tables
  conversations := by
    have hrows : ∀ tables : RecoveryTables,
        tables.conversations.rows = (documents tables).map Document.row := by
      intro tables
      rw [documents, List.map_map]
      exact (List.map_id _).symm
    rw [hrows, hrows, Document.replay_replaysOnce.rows_restart documents documents_applied hdone]

/-- A replay after an interrupted one gives the rows of a single replay. -/
theorem replay_restart {done log : List JournalEvent} (hdone : done <+: log)
    (tables : RecoveryTables) :
    SameRows (replay (replay tables done).1 log).1 (replay tables log).1 := by
  have happlies : applies (replay tables done).1 = applies tables := by
    funext event
    rw [applies, applies, replay_fst, foldl_applied_workspaces]
  rw [replay_fst (replay tables done).1, happlies, replay_fst, replay_fst]
  refine foldl_applied_restart ?_ tables
  obtain ⟨rest, rfl⟩ := hdone
  rw [List.takeWhile_append]
  split_ifs with hlength
  · rw [(List.takeWhile_prefix _).eq_of_length hlength]
    exact List.prefix_append _ _
  · exact List.prefix_refl _

end PocketCoder.Recovery
