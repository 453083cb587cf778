import Mathlib.Data.List.ReduceOption
import PocketCoder.Conversations.LegacyRecords
import PocketCoder.Conversations.Runs

/-!
Runs of `convertLegacyConversations`: one transaction for each workspace that has
rows, with a stop and a new start between any two of them.

`Underway` is the invariant of such a run. From it follows what the records hold
of the rows: those without identity in their order, the latest revisions of each
turn, and records in the order of their first rows.
-/

namespace PocketCoder.Conversations

open PocketCoder.Foundation PocketCoder.Foundation.Transaction PocketCoder.Executions

variable {db db' : Database} {workspaceId : String} {group : LegacyGroup}
  {entry : String × LegacyGroup} {record : ConversationRecord}

/-! ### Runs -/

/-- A transaction of `convertLegacyConversations` for a workspace that has rows:
for any of them, where the code takes the one with the oldest row. Without a
workspace it is a stop: a transaction that does not commit, and a new start. -/
def ConversionSteps (db : Database) (event : Option String) (db' : Database) : Prop :=
  match event with
  | none => db' = db
  | some workspaceId => (∃ row ∈ db.legacy, row.workspaceId = workspaceId) ∧
      ∃ randomUUID, convertWorkspace randomUUID workspaceId db = .ok ((), db')

def Database.groupsOf (db : Database) (order : List String) : List (String × LegacyGroup) :=
  order.flatMap fun workspaceId => (db.groups workspaceId).map (workspaceId, ·)

/-- What the conversion of some workspaces has made of a database. -/
structure Underway (start : Database) (order : List String) (db : Database) : Prop where
  workspaces : db.workspaces = start.workspaces
  legacy : db.legacy = start.legacy.filter (·.workspaceId ∉ order)
  rebuilt : Rebuilt db (start.groupsOf order)
  nodup : order.Nodup
  present : ∀ workspaceId ∈ order, ∃ row ∈ start.legacy, row.workspaceId = workspaceId

variable {start : Database} {order : List String}

theorem Underway.groups (h : Underway start order db) (hrow : workspaceId ∉ order) :
    db.groups workspaceId = start.groups workspaceId := by
  rw [Database.groups, Database.groups, h.legacy, List.filter_filter]
  refine congrArg (fun rows => groupsInOrder (bySeq rows)) (List.filter_congr fun row _ => ?_)
  by_cases hsame : row.workspaceId = workspaceId
  · simp [hsame, hrow]
  · simp [hsame]

theorem Underway.step {event : Option String} (h : Underway start order db)
    (hstep : ConversionSteps db event db') : Underway start (order ++ event.toList) db' := by
  cases event with
  | none =>
      obtain rfl : db' = db := hstep
      rw [Option.toList_none, List.append_nil]
      exact h
  | some workspaceId =>
      obtain ⟨⟨row, hrow, rfl⟩, uuids, hconvert⟩ := hstep
      obtain ⟨hrebuilt, hworkspaces, hlegacy⟩ := h.rebuilt.convertWorkspace hconvert
      rw [h.legacy, List.mem_filter, decide_eq_true_eq] at hrow
      refine ⟨hworkspaces.trans h.workspaces, ?_, ?_, ?_, ?_⟩
      · rw [hlegacy, h.legacy, List.filter_filter]
        refine List.filter_congr fun other _ => ?_
        simp [and_comm]
      · rw [Option.toList_some, Database.groupsOf, List.flatMap_append, ← Database.groupsOf,
          List.flatMap_singleton, ← h.groups hrow.2]
        exact hrebuilt
      · exact List.nodup_append.mpr ⟨h.nodup, List.nodup_singleton _, fun other hother name hname =>
          fun hsame => hrow.2 (by rw [← List.mem_singleton.mp hname, ← hsame]; exact hother)⟩
      · intro name hname
        rcases List.mem_append.mp hname with hname | hname
        · exact h.present name hname
        · exact ⟨row, hrow.1, (List.mem_singleton.mp hname).symm⟩

theorem Underway.run {events : List (Option String)} (h : Underway start order db)
    (hrun : Run ConversionSteps db events db') :
    Underway start (order ++ events.reduceOption) db' := by
  induction hrun generalizing order with
  | nil =>
      rw [List.reduceOption_nil, List.append_nil]
      exact h
  | @cons db db₁ db' event events hstep _ ih =>
      have hnext := ih (h.step hstep)
      rw [List.append_assoc] at hnext
      cases event with
      | none =>
          rw [List.reduceOption_cons_of_none]
          exact hnext
      | some workspaceId =>
          rw [List.reduceOption_cons_of_some]
          exact hnext

theorem Database.Fresh.underway (h : start.Fresh) : Underway start [] start where
  workspaces := rfl
  legacy := by simp
  rebuilt := by
    refine ⟨h.kept, ?_⟩
    rw [h.records]
    exact .nil
  nodup := List.nodup_nil
  present _ hmem := absurd hmem List.not_mem_nil

/-! ### Tables of earlier releases -/

def Database.rowsOf (db : Database) (workspaceId : String) : List LegacyRow :=
  bySeq (db.legacy.filter (·.workspaceId = workspaceId))

/-- What the database says of the rows: their primary key, the reference to the
workspace, and identities that were checked when they were written. -/
structure Database.LegacyTable (db : Database) : Prop where
  keys : db.legacy.Pairwise fun row other =>
    row.workspaceId = other.workspaceId → row.seq ≠ other.seq
  workspaces : ∀ row ∈ db.legacy, (db.workspaces.get? row.workspaceId).isSome = true
  identities : ∀ row ∈ db.legacy, ∀ identity, row.identity = some identity →
    identity.toConversationRequestIdentity.conforms = true

def LegacyRow.conversation (row : LegacyRow) : Option String :=
  row.identity.map (·.conversation_id)

/-- In a workspace, the rows of one turn are of one conversation. -/
def Database.OneConversation (db : Database) : Prop :=
  ∀ row ∈ db.legacy, ∀ other ∈ db.legacy, row.workspaceId = other.workspaceId →
    row.turnId = other.turnId → row.conversation = other.conversation

theorem Database.grouped (db : Database) (workspaceId : String) :
    Grouped (db.rowsOf workspaceId) (db.groups workspaceId) :=
  grouped_groupsInOrder _

theorem mem_rowsOf {row : LegacyRow} :
    row ∈ db.rowsOf workspaceId ↔ row ∈ db.legacy ∧ row.workspaceId = workspaceId := by
  rw [Database.rowsOf, bySeq, List.mem_insertionSort, List.mem_filter, decide_eq_true_eq]

theorem Database.LegacyTable.inOrder (h : db.LegacyTable) (workspaceId : String) :
    InOrder (db.rowsOf workspaceId) := by
  have hdistinct : (db.legacy.filter (·.workspaceId = workspaceId)).Pairwise
      fun row other => row.seq ≠ other.seq := by
    refine (h.keys.filter _).imp_of_mem fun hrow hother hkeys => hkeys ?_
    rw [of_decide_eq_true (List.mem_filter.mp hrow).2,
      of_decide_eq_true (List.mem_filter.mp hother).2]
  have hsorted : (db.rowsOf workspaceId).Pairwise fun row other => row.seq ≤ other.seq :=
    List.pairwise_insertionSort _ _
  have hperm : (db.rowsOf workspaceId).Perm (db.legacy.filter (·.workspaceId = workspaceId)) :=
    List.perm_insertionSort _ _
  exact hsorted.imp₂ (fun _ _ hle hne => Nat.lt_of_le_of_ne hle hne)
    ((hperm.pairwise_iff fun hne => Ne.symm hne).mpr hdistinct)

theorem Database.LegacyTable.turn (h : db.LegacyTable) {turnId : String}
    (hgroup : group ∈ db.groups workspaceId) (hturn : group.turnId = some turnId) :
    group.turn = some turnId ∧
      group.rows = (db.rowsOf workspaceId).filter (·.turnId = some turnId) ∧
      ∃ row identity, group.rows.head? = some row ∧ row ∈ db.rowsOf workspaceId ∧
        row.identity = some identity ∧ identity.turn_id = turnId ∧
        parseRequest (group.rows.head?.bind (·.identity)) =
          .ok identity.toConversationRequestIdentity := by
  have hgrouped := db.grouped workspaceId
  have hrows := hgrouped.turn group hgroup turnId hturn
  obtain ⟨row, rest, hrest⟩ := List.exists_cons_of_ne_nil (hgrouped.nonempty group hgroup)
  have hrow : row ∈ (db.rowsOf workspaceId).filter (·.turnId = some turnId) := by
    rw [← hrows, hrest]
    exact List.mem_cons_self
  obtain ⟨hrow, hnamed⟩ := List.mem_filter.mp hrow
  rw [decide_eq_true_eq, LegacyRow.turnId, Option.map_eq_some_iff] at hnamed
  obtain ⟨identity, hidentity, hname⟩ := hnamed
  have hconforms := h.identities row (mem_rowsOf.mp hrow).1 identity hidentity
  have hhead : group.rows.head? = some row := by rw [hrest]; rfl
  refine ⟨?_, hrows, row, identity, hhead, hrow, hidentity, hname, ?_⟩
  · rw [LegacyGroup.turn, hturn, Option.filter_some, if_pos]
    refine decide_eq_true fun hempty => ?_
    rw [ConversationRequestIdentity.conforms, hname, hempty, show isUuid "" = false by decide,
      Bool.and_false, Bool.false_and, Bool.false_and] at hconforms
    cases hconforms
  · rw [hhead, Option.bind_some, hidentity, parseRequest, if_pos hconforms]

theorem turn_of_turnId_none (hturn : group.turnId = none) : group.turn = none := by
  rw [LegacyGroup.turn, hturn]
  rfl

/-! ### Rows without identity -/

theorem filter_groupsOf (hnodup : order.Nodup) (workspaceId : String) :
    (start.groupsOf order).filter (·.1 = workspaceId) =
      if workspaceId ∈ order then (start.groups workspaceId).map (workspaceId, ·) else [] := by
  induction order with
  | nil => rfl
  | cons name order ih =>
      obtain ⟨hnew, hnodup⟩ := List.nodup_cons.mp hnodup
      rw [Database.groupsOf, List.flatMap_cons, List.filter_append, ← Database.groupsOf, ih hnodup,
        List.filter_map]
      by_cases hname : name = workspaceId
      · subst hname
        rw [if_neg hnew, if_pos List.mem_cons_self, List.append_nil,
          List.filter_eq_self.mpr (by simp)]
      · rw [List.filter_eq_nil_iff.mpr fun _ _ => by simpa using hname, List.map_nil, List.nil_append]
        simp [Ne.symm hname]

theorem mem_groupsOf : entry ∈ start.groupsOf order ↔
    entry.1 ∈ order ∧ entry.2 ∈ start.groups entry.1 := by
  rw [Database.groupsOf, List.mem_flatMap]
  constructor
  · rintro ⟨workspaceId, horder, hmem⟩
    obtain ⟨group, hgroup, rfl⟩ := List.mem_map.mp hmem
    exact ⟨horder, hgroup⟩
  · rintro ⟨horder, hgroup⟩
    exact ⟨entry.1, horder, List.mem_map.mpr ⟨entry.2, hgroup, rfl⟩⟩

theorem turn_eq_none (htable : start.LegacyTable) (hgroup : group ∈ start.groups workspaceId) :
    group.turn = none ↔ group.turnId = none := by
  cases hturn : group.turnId with
  | none => exact iff_of_true (turn_of_turnId_none hturn) rfl
  | some turnId =>
      rw [(htable.turn hgroup hturn).1]

theorem turnKey_eq_none (htable : start.LegacyTable) (hentry : entry ∈ start.groupsOf order) :
    turnKey start.workspaces entry = none ↔ entry.2.turn = none := by
  obtain ⟨-, hgroup⟩ := mem_groupsOf.mp hentry
  cases hturn : entry.2.turnId with
  | none =>
      rw [turnKey.eq_def, turn_of_turnId_none hturn]
      refine iff_of_true ?_ rfl
      split
      case h_1 hnone => cases hnone
      case h_2 => rfl
  | some turnId =>
      obtain ⟨hnamed, -, row, identity, -, hrow, -, -, hparse⟩ := htable.turn hgroup hturn
      obtain ⟨hmem, hworkspace⟩ := mem_rowsOf.mp hrow
      obtain ⟨workspace, hstored⟩ := Option.isSome_iff_exists.mp (htable.workspaces row hmem)
      rw [hworkspace] at hstored
      have hkey : turnKey start.workspaces entry =
          some (workspace.principalId, identity.conversation_id, turnId) := by
        refine turnKey_eq_some.mpr ⟨⟨workspace, hstored, rfl⟩, ?_, hnamed⟩
        rw [LegacyGroup.conversation, hnamed, hparse]
      rw [hkey, hnamed]
      simp

/-- The rows without identity are in the records of their workspace, in their
order. -/
theorem Underway.plain (h : Underway start order db) (htable : start.LegacyTable)
    (horder : workspaceId ∈ order) :
    (db.records.filter fun record =>
        record.workspaceId = workspaceId && record.document.request.isNone).flatMap (·.contents) =
      ((start.rowsOf workspaceId).filter (·.turnId = none)).map (·.toMessageInput) := by
  -- no group without a turn is left out as a repetition
  have hgroups : (firsts (turnKey db.workspaces) (start.groupsOf order)).filter
      (fun entry => entry.1 = workspaceId && entry.2.turn.isNone) =
      ((start.groups workspaceId).filter (·.turnId = none)).map (workspaceId, ·) := by
    have hplain : ∀ {items : List (String × LegacyGroup)}, (∀ entry ∈ items,
        entry ∈ start.groupsOf order) → items.filter (fun entry =>
          entry.1 = workspaceId && entry.2.turn.isNone) =
        (items.filter (turnKey start.workspaces · = none)).filter (·.1 = workspaceId) := by
      intro items hitems
      rw [List.filter_filter]
      refine List.filter_congr fun entry hentry => ?_
      rw [Bool.eq_iff_iff, Bool.and_eq_true, Bool.and_eq_true, decide_eq_true_eq, decide_eq_true_eq,
        Option.isNone_iff_eq_none, turnKey_eq_none htable (hitems entry hentry)]
    rw [h.workspaces, hplain fun _ hentry => (firsts_sublist _).subset hentry, filter_firsts_none,
      ← hplain fun _ hentry => hentry, ← List.filter_filter, List.filter_comm,
      filter_groupsOf h.nodup, if_pos horder, List.filter_map]
    refine congrArg _ (List.filter_congr fun group hgroup => ?_)
    rw [Function.comp_apply, Bool.eq_iff_iff, Option.isNone_iff_eq_none, decide_eq_true_eq,
      turn_eq_none htable hgroup]
  have hmade : List.Forall₂ (Made db)
      (((start.groups workspaceId).filter (·.turnId = none)).map (workspaceId, ·))
      (db.records.filter fun record =>
        record.workspaceId = workspaceId && record.document.request.isNone) := by
    rw [← hgroups]
    refine List.rel_filter (fun entry record hmade => ?_) h.rebuilt.records
    show (_ && _) = true ↔ (_ && _) = true
    rw [Bool.and_eq_true, Bool.and_eq_true, decide_eq_true_eq, decide_eq_true_eq, hmade.workspace,
      Option.isNone_iff_eq_none, Option.isNone_iff_eq_none, hmade.request_isNone]
  rw [List.forall₂_map_left_iff] at hmade
  -- record by record, as each has the rows of its group
  have hcontents : ∀ {groups : List LegacyGroup} {records : List ConversationRecord},
      (∀ group ∈ groups, group.turnId = none) →
        List.Forall₂ (fun group record => Made db (workspaceId, group) record) groups records →
          records.flatMap (·.contents) = (groups.flatMap (·.rows)).map (·.toMessageInput) := by
    intro groups records hnone hmade
    induction hmade with
    | nil => rfl
    | @cons group record groups records hfirst _ ih =>
        rw [List.flatMap_cons, List.flatMap_cons, List.map_append,
          ih fun other hother => hnone other (List.mem_cons_of_mem _ hother),
          (hfirst.plain (turn_of_turnId_none (hnone group List.mem_cons_self))).2.2]
  rw [hcontents (fun group hgroup => of_decide_eq_true (List.mem_filter.mp hgroup).2) hmade,
    (start.grouped workspaceId).plain]

/-! ### Turns -/

def Database.turnRows (db : Database) (conversationId turnId workspaceId : String) :
    List LegacyRow :=
  (db.rowsOf workspaceId).filter fun row =>
    row.conversation = some conversationId && row.turnId = some turnId

/-- The workspace is one of the principal and has rows of the turn. -/
def Database.hasTurn (db : Database) (principalId conversationId turnId workspaceId : String) :
    Bool :=
  (db.workspaces.get? workspaceId).any (·.principalId = principalId) &&
    !(db.turnRows conversationId turnId workspaceId).isEmpty

def Database.recordsOfTurn (db : Database) (principalId conversationId turnId : String) :
    List ConversationRecord :=
  db.records.filter fun record => record.recordKey = turnId &&
    db.conversations.rows.any fun document => document.id = record.conversationRef &&
      document.principalId = principalId && document.conversationId = some conversationId

variable {principalId turnId : String} {conversation : String}

/-- The records of a turn are made from its groups. -/
theorem Underway.recordsOfTurn (h : Underway start order db)
    (principalId conversation turnId : String) :
    List.Forall₂ (Made db)
      (((start.groupsOf order).filter
        (turnKey start.workspaces · = some (principalId, conversation, turnId))).take 1)
      (db.recordsOfTurn principalId conversation turnId) := by
  rw [← filter_firsts_some, ← h.workspaces]
  refine List.rel_filter (fun entry record hmade => ?_) h.rebuilt.records
  obtain ⟨document, htarget, href⟩ := hmade.placed
  have hmem := target_mem htarget
  have hany : (∃ other ∈ db.conversations.rows, other.id = record.conversationRef ∧
      other.principalId = principalId ∧ other.conversationId = some conversation) ↔
      document.principalId = principalId ∧ document.conversationId = some conversation := by
    constructor
    · rintro ⟨other, hother, hid, hsame⟩
      rw [← eq_of_id hmem hother (hid.trans href)]
      exact hsame
    · exact fun hsame => ⟨document, hmem, href.symm, hsame⟩
  show decide _ = true ↔ (_ && _) = true
  simp only [Bool.and_eq_true, decide_eq_true_eq, List.any_eq_true, and_assoc, hany]
  rcases turnKey_of_target htarget with ⟨-, hdocument, hkey⟩ |
    ⟨name, conversationId, hturn, hdocument, hkey⟩
  · rw [show turnKey db.workspaces entry = none from hkey, hdocument]
    simp
  · rw [show turnKey db.workspaces entry = _ from hkey, hdocument, (hmade.turn hturn).2.1]
    simp only [Option.some.injEq, Prod.mk.injEq]
    constructor
    · rintro ⟨hprincipal, hconversation, hname⟩
      exact ⟨hname, hprincipal, hconversation⟩
    · rintro ⟨hname, hprincipal, hconversation⟩
      exact ⟨hprincipal, hconversation, hname⟩

theorem mem_turnRows {row : LegacyRow} : row ∈ db.turnRows conversation turnId workspaceId ↔
    row ∈ db.rowsOf workspaceId ∧ row.conversation = some conversation ∧
      row.turnId = some turnId := by
  simp only [Database.turnRows, List.mem_filter, Bool.and_eq_true, decide_eq_true_eq]

theorem hasTurn_eq_true : db.hasTurn principalId conversation turnId workspaceId = true ↔
    (∃ workspace, db.workspaces.get? workspaceId = some workspace ∧
      workspace.principalId = principalId) ∧
    ∃ row, row ∈ db.turnRows conversation turnId workspaceId := by
  rw [Database.hasTurn, Bool.and_eq_true, Option.any_eq_true, Bool.not_eq_true',
    List.isEmpty_eq_false_iff_exists_mem]
  simp only [decide_eq_true_eq]

theorem turnKey_of_head (htable : start.LegacyTable) (hgroup : group ∈ start.groups workspaceId)
    (hturn : group.turnId = some turnId) : ∃ row, row ∈ start.rowsOf workspaceId ∧
      row.turnId = some turnId ∧ group.turn = some turnId ∧
      group.conversation = some row.conversation := by
  obtain ⟨hnamed, -, row, identity, -, hrow, hidentity, hname, hparse⟩ := htable.turn hgroup hturn
  refine ⟨row, hrow, ?_, hnamed, ?_⟩
  · rw [LegacyRow.turnId, hidentity, Option.map_some, hname]
  · rw [LegacyGroup.conversation, hnamed, hparse, LegacyRow.conversation, hidentity]
    rfl

/-- A workspace that has rows of a turn has one group of it. -/
theorem filter_groups_of_hasTurn (htable : start.LegacyTable) (hone : start.OneConversation)
    (h : start.hasTurn principalId conversation turnId workspaceId = true) :
    ∃ group, group.turn = some turnId ∧
      group.rows = start.turnRows conversation turnId workspaceId ∧
      (start.groups workspaceId).filter (fun group => turnKey start.workspaces (workspaceId, group) =
        some (principalId, conversation, turnId)) = [group] := by
  obtain ⟨hworkspace, row, hrow⟩ := hasTurn_eq_true.mp h
  obtain ⟨hmem, hconversation, hturn⟩ := mem_turnRows.mp hrow
  have hgrouped := start.grouped workspaceId
  obtain ⟨group, hgroup, hnamed⟩ := hgrouped.covered row hmem turnId hturn
  obtain ⟨first, hfirst, hfirstTurn, hown, hfirstConversation⟩ := turnKey_of_head htable hgroup hnamed
  have hsame : ∀ other ∈ start.rowsOf workspaceId, other.turnId = some turnId →
      other.conversation = some conversation := by
    intro other hother hotherTurn
    rw [← hconversation]
    exact hone other (mem_rowsOf.mp hother).1 row (mem_rowsOf.mp hmem).1
      ((mem_rowsOf.mp hother).2.trans (mem_rowsOf.mp hmem).2.symm) (hotherTurn.trans hturn.symm)
  refine ⟨group, hown, ?_, ?_⟩
  · rw [hgrouped.turn group hgroup turnId hnamed, Database.turnRows]
    refine List.filter_congr fun other hother => ?_
    by_cases hother' : other.turnId = some turnId
    · simp [hother', hsame other hother hother']
    · simp [hother']
  · obtain ⟨before, after, hsplit⟩ := List.append_of_mem hgroup
    have hturns := hgrouped.turns
    rw [hsplit, List.filterMap_append, List.filterMap_cons, hnamed, List.nodup_append,
      List.nodup_cons] at hturns
    obtain ⟨-, ⟨hafter, -⟩, hbefore⟩ := hturns
    -- any other group with the key would be a second one of the turn
    have hothers : ∀ other : LegacyGroup, turnKey start.workspaces (workspaceId, other) =
        some (principalId, conversation, turnId) → other.turnId = some turnId := by
      intro other hkey
      obtain ⟨-, -, hother⟩ := turnKey_eq_some.mp hkey
      exact (Option.filter_eq_some_iff.mp hother).1
    have hkey : turnKey start.workspaces (workspaceId, group) =
        some (principalId, conversation, turnId) := by
      refine turnKey_eq_some.mpr ⟨hworkspace, ?_, hown⟩
      rw [hfirstConversation, hsame first hfirst hfirstTurn]
    rw [hsplit, List.filter_append, List.filter_cons_of_pos (by simpa using hkey)]
    rw [List.filter_eq_nil_iff.mpr, List.filter_eq_nil_iff.mpr, List.nil_append]
    · intro other hother hotherKey
      exact hafter (List.mem_filterMap.mpr ⟨other, hother, hothers other (of_decide_eq_true hotherKey)⟩)
    · intro other hother hotherKey
      exact hbefore turnId (List.mem_filterMap.mpr ⟨other, hother,
        hothers other (of_decide_eq_true hotherKey)⟩) turnId List.mem_cons_self rfl

theorem filter_groups_of_not (htable : start.LegacyTable)
    (h : ¬start.hasTurn principalId conversation turnId workspaceId = true) :
    (start.groups workspaceId).filter (fun group => turnKey start.workspaces (workspaceId, group) =
      some (principalId, conversation, turnId)) = [] := by
  refine List.filter_eq_nil_iff.mpr fun group hgroup hkey => h ?_
  obtain ⟨hworkspace, hconversation, hturn⟩ := turnKey_eq_some.mp (of_decide_eq_true hkey)
  obtain ⟨row, hrow, hrowTurn, -, hrowConversation⟩ :=
    turnKey_of_head htable hgroup (Option.filter_eq_some_iff.mp hturn).1
  refine hasTurn_eq_true.mpr ⟨hworkspace, row, mem_turnRows.mpr ⟨hrow, ?_, hrowTurn⟩⟩
  exact (Option.some.inj (hconversation.symm.trans hrowConversation)).symm

/-- The first group of a turn is in the first workspace that has it. -/
theorem take_groupsOf (htable : start.LegacyTable) (hone : start.OneConversation)
    (principalId conversation turnId : String) (order : List String) :
    match order.find? (start.hasTurn principalId conversation turnId) with
    | none => ((start.groupsOf order).filter
        (turnKey start.workspaces · = some (principalId, conversation, turnId))).take 1 = []
    | some workspaceId => ∃ group, group.turn = some turnId ∧
        group.rows = start.turnRows conversation turnId workspaceId ∧
        ((start.groupsOf order).filter
          (turnKey start.workspaces · = some (principalId, conversation, turnId))).take 1 =
            [(workspaceId, group)] := by
  induction order with
  | nil => rfl
  | cons workspaceId order ih =>
      rw [Database.groupsOf, List.flatMap_cons, List.filter_append, ← Database.groupsOf,
        List.filter_map, Function.comp_def]
      by_cases hhas : start.hasTurn principalId conversation turnId workspaceId = true
      · obtain ⟨group, hturn, hrows, hfilter⟩ := filter_groups_of_hasTurn htable hone hhas
        rw [List.find?_cons_of_pos hhas]
        refine ⟨group, hturn, hrows, ?_⟩
        rw [hfilter]
        rfl
      · rw [List.find?_cons_of_neg hhas, filter_groups_of_not htable hhas, List.map_nil,
          List.nil_append]
        exact ih

theorem Underway.turn (h : Underway start order db) (htable : start.LegacyTable)
    (hone : start.OneConversation) :
    match order.find? (start.hasTurn principalId conversation turnId) with
    | none => db.recordsOfTurn principalId conversation turnId = []
    | some workspaceId => ∃ record, db.recordsOfTurn principalId conversation turnId = [record] ∧
        record.workspaceId = workspaceId ∧
        Revisions (start.turnRows conversation turnId workspaceId) record.contents := by
  have hmade := h.recordsOfTurn principalId conversation turnId
  have htake := take_groupsOf htable hone principalId conversation turnId order
  cases hfind : order.find? (start.hasTurn principalId conversation turnId) with
  | none =>
      rw [hfind] at htake
      rw [htake] at hmade
      exact List.forall₂_nil_left_iff.mp hmade
  | some workspaceId =>
      rw [hfind] at htake
      obtain ⟨group, hturn, hrows, htake⟩ := htake
      rw [htake] at hmade
      obtain ⟨record, records, hfirst, hrest, hrecords⟩ := List.forall₂_cons_left_iff.mp hmade
      rw [List.forall₂_nil_left_iff.mp hrest] at hrecords
      refine ⟨record, hrecords, hfirst.workspace, ?_⟩
      rw [(hfirst.turn hturn).2.2, ← hrows]
      refine revisions_latestRevisions ?_
      rw [hrows]
      exact (htable.inOrder workspaceId).filter _

/-! ### The order of the records -/

/-- The first row of a record. -/
def Begins (rows : List LegacyRow) (record : ConversationRecord) (row : LegacyRow) : Prop :=
  if record.document.request = none then
    row ∈ rows ∧ row.turnId = none ∧ record.recordKey = "legacy:" ++ toString row.seq ∧
      record.contents.head? = some row.toMessageInput
  else rows.find? (·.turnId = some record.recordKey) = some row

theorem Made.begins (htable : start.LegacyTable) (h : Made db entry record)
    (hgroup : entry.2 ∈ start.groups entry.1) :
    ∃ row, entry.2.rows.head? = some row ∧ Begins (start.rowsOf entry.1) record row := by
  cases hturn : entry.2.turnId with
  | none =>
      have hplain := turn_of_turnId_none hturn
      obtain ⟨hrequest, hkey, hcontents⟩ := h.plain hplain
      obtain ⟨row, rest, hrows⟩ :=
        List.exists_cons_of_ne_nil ((start.grouped entry.1).nonempty entry.2 hgroup)
      have hmem : row ∈ (start.rowsOf entry.1).filter (·.turnId = none) := by
        rw [← (start.grouped entry.1).plain]
        refine List.mem_flatMap.mpr ⟨entry.2, List.mem_filter.mpr ⟨hgroup, decide_eq_true hturn⟩, ?_⟩
        rw [hrows]
        exact List.mem_cons_self
      obtain ⟨hmem, hnone⟩ := List.mem_filter.mp hmem
      refine ⟨row, by rw [hrows]; rfl, ?_⟩
      rw [Begins, if_pos hrequest]
      refine ⟨hmem, of_decide_eq_true hnone, ?_, ?_⟩
      · rw [hkey, legacyWrite, hrows]
        rfl
      · rw [hcontents, hrows]
        rfl
  | some turnId =>
      obtain ⟨hnamed, hrows, row, -, hhead, -⟩ := htable.turn hgroup hturn
      obtain ⟨hrequest, hkey, -⟩ := h.turn hnamed
      refine ⟨row, hhead, ?_⟩
      rw [Begins, if_neg (fun hnone => by rw [hnone] at hrequest; cases hrequest), hkey,
        ← List.head?_filter, ← hrows]
      exact hhead

theorem forall₂_heads (htable : start.LegacyTable) {items : List (String × LegacyGroup)}
    {records : List ConversationRecord} (h : List.Forall₂ (Made db) items records)
    (hitems : ∀ entry ∈ items, entry.1 = workspaceId ∧ entry.2 ∈ start.groups entry.1) :
    List.Forall₂ (Begins (start.rowsOf workspaceId)) records
      (items.filterMap (·.2.rows.head?)) := by
  induction h with
  | nil => exact .nil
  | @cons entry record items records hfirst _ ih =>
      obtain ⟨rfl, hgroup⟩ := hitems entry List.mem_cons_self
      obtain ⟨row, hhead, hbegins⟩ := hfirst.begins htable hgroup
      rw [List.filterMap_cons, hhead]
      exact .cons hbegins (ih fun other hother => hitems other (List.mem_cons_of_mem _ hother))

theorem Underway.heads (h : Underway start order db) (htable : start.LegacyTable)
    (workspaceId : String) :
    ∃ heads : List LegacyRow, heads.Sublist (start.rowsOf workspaceId) ∧
      List.Forall₂ (Begins (start.rowsOf workspaceId))
        (db.records.filter (·.workspaceId = workspaceId)) heads := by
  have hsublist : ((firsts (turnKey db.workspaces) (start.groupsOf order)).filter
      (·.1 = workspaceId)).Sublist ((start.groups workspaceId).map (workspaceId, ·)) := by
    refine ((firsts_sublist _).filter _).trans ?_
    rw [filter_groupsOf h.nodup]
    split
    · exact List.Sublist.refl _
    · exact List.nil_sublist _
  refine ⟨((firsts (turnKey db.workspaces) (start.groupsOf order)).filter
    (·.1 = workspaceId)).filterMap (·.2.rows.head?), ?_, ?_⟩
  · refine (hsublist.filterMap _).trans ?_
    rw [List.filterMap_map]
    exact (start.grouped workspaceId).heads
  · have hmade : List.Forall₂ (Made db)
        ((firsts (turnKey db.workspaces) (start.groupsOf order)).filter (·.1 = workspaceId))
        (db.records.filter (·.workspaceId = workspaceId)) := by
      refine List.rel_filter (fun entry record hmade => ?_) h.rebuilt.records
      show decide _ = true ↔ decide _ = true
      rw [hmade.workspace]
    refine forall₂_heads htable hmade fun entry hentry => ?_
    obtain ⟨group, hgroup, rfl⟩ := List.mem_map.mp (hsublist.subset hentry)
    exact ⟨rfl, hgroup⟩

end PocketCoder.Conversations
