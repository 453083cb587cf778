import PocketCoder.Conversations.LegacyRuns

/-!
The conversion of the rows of earlier releases as a whole: no transaction of it
fails, and what it has made of the rows at every point of a run.

The groups of a workspace have one turn each, whatever conversations their rows
are of, so rows of one turn in two conversations end in one record.
-/

namespace PocketCoder.Conversations

open PocketCoder.Foundation PocketCoder.Foundation.Transaction PocketCoder.Executions

variable {db db' start : Database} {uuid workspaceId principalId turnId conversation : String}
  {conversationId : Option String} {order : List String} {document : Conversation}
  {group : LegacyGroup} {entry : String × LegacyGroup} {entries : List (String × LegacyGroup)}
  {record : ConversationRecord}

/-! ### No conversion gets stuck -/

theorem find_newDocument (principalId workspaceId : String) (conversationId : Option String)
    (legacy : Bool) (huuid : uuid ∉ db.conversations.rows.map (·.id)) :
    ∃ document, (db.withDocument
        (newDocument uuid principalId workspaceId conversationId legacy)).find
      principalId workspaceId conversationId = some document := by
  have hnew : (newDocument uuid principalId workspaceId conversationId legacy).id ∉
      db.conversations.rows.map Conversation.id := huuid
  have hmem : ∃ document ∈ (db.withDocument
      (newDocument uuid principalId workspaceId conversationId legacy)).conversations.rows,
      identifies principalId workspaceId conversationId document = true := by
    rw [Database.withDocument, insertDocument]
    split
    case isTrue hany => exact List.any_eq_true.mp hany
    case isFalse =>
      refine ⟨newDocument uuid principalId workspaceId conversationId legacy, ?_, ?_⟩
      · rw [Table.insert, dif_neg hnew]
        exact List.mem_append_right _ List.mem_cons_self
      · cases conversationId <;> simp [identifies, newDocument]
  exact Option.isSome_iff_exists.mp (List.find?_isSome.mpr hmem)

theorem toString_injective {m n : Nat} (h : toString m = toString n) : m = n := by
  have hdigits : Nat.toDigits 10 m = Nat.toDigits 10 n := by
    rw [← Nat.toList_repr, ← Nat.toList_repr]
    exact congrArg String.toList h
  rw [← Nat.ofDigitChars_ten_toDigits (n := m), hdigits, Nat.ofDigitChars_ten_toDigits]

theorem Database.Kept.number_free (h : db.Kept) (hmem : document ∈ db.conversations.rows)
    {other : ConversationRecord} (hother : other ∈ db.records)
    (href : other.conversationRef = document.id) : other.recordSeq ≠ document.recordCount + 1 := by
  have hkept := h.documents document hmem
  have hnumber : other.recordSeq ∈ (db.recordsOf document.id).map (·.recordSeq) :=
    List.mem_map_of_mem (List.mem_filter.mpr ⟨hother, decide_eq_true href⟩)
  rw [hkept.recordSeq, List.mem_range'_1, ← hkept.recordCount] at hnumber
  omega

theorem lockDocument_of_unused {workspace : Workspace} (conversationId : Option String)
    (legacy : Bool) (hworkspace : db.workspaces.get? workspaceId = some workspace)
    (huuid : uuid ∉ db.conversations.rows.map (·.id)) :
    ∃ document, lockDocument uuid workspaceId conversationId legacy db = .ok (document,
        db.withDocument (newDocument uuid workspace.principalId workspaceId conversationId legacy)) ∧
      (db.withDocument (newDocument uuid workspace.principalId workspaceId conversationId legacy)).find
        workspace.principalId workspaceId conversationId = some document := by
  obtain ⟨document, hfind⟩ :=
    find_newDocument workspace.principalId workspaceId conversationId legacy huuid
  exact ⟨document, lockDocument_eq_ok.mpr ⟨workspace, hworkspace, rfl, hfind⟩, hfind⟩

theorem Database.Kept.free (h : db.Kept) (write : RecordWrite)
    (hmem : document ∈ db.conversations.rows)
    (hkey : ∀ other ∈ db.records, other.conversationRef = document.id →
      other.recordKey ≠ write.recordKey) : db.Free (recordOf document write) :=
  fun other hother href => ⟨h.number_free hmem hother href, hkey other hother href⟩

/-- A group is converted when the key of its record is free. -/
theorem convertGroup_of_free {write : RecordWrite} {workspace : Workspace} (hkept : db.Kept)
    (hworkspace : db.workspaces.get? workspaceId = some workspace)
    (huuid : uuid ∉ db.conversations.rows.map (·.id))
    (hwrite : group.write workspaceId = some write)
    (hplain : group.turn = none → ∀ row document, (db.withDocument row).find
      workspace.principalId workspaceId none = some document → ∀ other ∈ db.records,
        row.Blank → other.conversationRef = document.id → other.recordKey ≠ write.recordKey) :
    ∃ db', convertGroup uuid workspaceId group db = .ok ((), db') := by
  rw [LegacyGroup.write] at hwrite
  rw [convertGroup.eq_def]
  cases hturn : group.turn with
  | none =>
      rw [hturn] at hwrite
      obtain rfl := Option.some.inj hwrite
      obtain ⟨document, hlock, hfind⟩ := lockDocument_of_unused none true hworkspace huuid
      have hblank : (newDocument uuid workspace.principalId workspaceId none true).Blank :=
        ⟨_, _, _, _, _, rfl⟩
      have hfree := (hkept.created hblank).free (legacyWrite workspaceId group)
        (List.mem_of_find?_eq_some hfind)
        fun other hother href => hplain hturn _ document hfind other hother hblank href
      have hinsert := insertRecord_eq_ok.mpr ⟨rfl, hfree, rfl⟩
      exact ⟨_, (bind_of_ok hlock).trans (bind_of_ok hinsert)⟩
  | some turnId =>
      rw [hturn] at hwrite
      dsimp only at hwrite ⊢
      split at hwrite
      case h_1 => cases hwrite
      case h_2 request hrequest =>
        obtain rfl := Option.some.inj hwrite
        obtain ⟨document, hlock, hfind⟩ :=
          lockDocument_of_unused (some request.conversation_id) false hworkspace huuid
        have hblank : (newDocument uuid workspace.principalId workspaceId
          (some request.conversation_id) false).Blank := ⟨_, _, _, _, _, rfl⟩
        by_cases hrecord : ((db.withDocument (newDocument uuid workspace.principalId workspaceId
            (some request.conversation_id) false)).record? document.id turnId).isSome = true
        · -- a request replayed into a later workspace
          rw [check_bind_of_ok hrequest, bind_of_ok hlock, get_bind, if_pos hrecord]
          exact ⟨_, rfl⟩
        · have hfree := (hkept.created hblank).free
            (turnWrite workspaceId turnId request group) (List.mem_of_find?_eq_some hfind)
            fun other hother href hkey => hrecord ?_
          · have hinsert := insertRecord_eq_ok.mpr ⟨rfl, hfree, rfl⟩
            rw [check_bind_of_ok hrequest, bind_of_ok hlock, get_bind, if_neg hrecord]
            exact ⟨_, bind_of_ok hinsert⟩
          -- a record under the key would have been found
          · refine List.find?_isSome.mpr ⟨other, hother, ?_⟩
            exact Bool.and_eq_true_iff.mpr ⟨decide_eq_true href, decide_eq_true hkey⟩

theorem exists_of_mem_records {items : List (String × LegacyGroup)}
    {records : List ConversationRecord} (h : List.Forall₂ (Made db) items records)
    (hrecord : record ∈ records) : ∃ entry ∈ items, Made db entry record := by
  obtain ⟨i, hi, rfl⟩ := List.getElem_of_mem hrecord
  exact ⟨_, List.getElem_mem (h.length_eq ▸ hi), h.get (h.length_eq ▸ hi) hi⟩

/-- The records in the document that a workspace has for messages without
identity. -/
theorem Rebuilt.plain_key (h : Rebuilt db entries)
    (hfind : db.find principalId workspaceId none = some document)
    (hrecord : record ∈ db.records) (href : record.conversationRef = document.id) :
    ∃ group, (workspaceId, group) ∈ entries ∧ group.turn = none ∧
      record.recordKey = (legacyWrite workspaceId group).recordKey := by
  obtain ⟨⟨name, group⟩, hentry, hmade⟩ := exists_of_mem_records h.records hrecord
  obtain ⟨found, hfound, hplaced⟩ := hmade.placed
  have hidentifies := List.find?_some hfind
  rw [identifies, Bool.and_eq_true, decide_eq_true_eq, decide_eq_true_eq] at hidentifies
  obtain rfl : found = document :=
    eq_of_id (List.mem_of_find?_eq_some hfind) (target_mem hfound) (hplaced.symm.trans href)
  rcases turnKey_of_target hfound with ⟨hturn, -, -⟩ | ⟨_, _, -, hdocument, -⟩
  · obtain ⟨_, other, -, hconversation, hfind'⟩ := target_eq_some.mp hfound
    rw [conversation_of_plain hturn] at hconversation
    obtain rfl := Option.some.inj hconversation
    obtain rfl : found.workspaceId = name := place_of_find hfind' hidentifies.2
    obtain rfl := hidentifies.1
    exact ⟨group, (firsts_sublist _).subset hentry, hturn, (hmade.plain hturn).2.1⟩
  · rw [hidentifies.2] at hdocument
    cases hdocument

theorem recordKey_injective {other : LegacyGroup} {row first : LegacyRow}
    (hgroup : group.rows.head? = some row) (hother : other.rows.head? = some first)
    (h : (legacyWrite workspaceId group).recordKey = (legacyWrite workspaceId other).recordKey) :
    row.seq = first.seq := by
  rw [legacyWrite, legacyWrite, hgroup, hother] at h
  exact toString_injective ((String.append_right_inj _).mp h)

theorem write_of_legacyTable (htable : start.LegacyTable)
    (hgroup : group ∈ start.groups workspaceId) : ∃ write, group.write workspaceId = some write := by
  rw [LegacyGroup.write]
  cases hturn : group.turnId with
  | none =>
      rw [turn_of_turnId_none hturn]
      exact ⟨_, rfl⟩
  | some turnId =>
      obtain ⟨hnamed, -, row, identity, -, -, -, -, hparse⟩ := htable.turn hgroup hturn
      rw [hnamed, hparse]
      exact ⟨_, rfl⟩

/-- The first rows of the groups have increasing numbers. -/
theorem seq_lt_of_groups (htable : start.LegacyTable) {before after : List LegacyGroup}
    {other : LegacyGroup} (hgroups : start.groups workspaceId = before ++ group :: after)
    (hother : other ∈ before) : ∃ first row, other.rows.head? = some first ∧
      group.rows.head? = some row ∧ first.seq < row.seq := by
  have hgrouped := start.grouped workspaceId
  have hheads : InOrder ((start.groups workspaceId).filterMap (·.rows.head?)) :=
    (htable.inOrder workspaceId).sublist hgrouped.heads
  obtain ⟨row, rest, hrow⟩ :=
    List.exists_cons_of_ne_nil (hgrouped.nonempty group (by simp [hgroups]))
  obtain ⟨first, rest', hfirst⟩ :=
    List.exists_cons_of_ne_nil (hgrouped.nonempty other (by simp [hgroups, hother]))
  refine ⟨first, row, by rw [hfirst]; rfl, by rw [hrow]; rfl, ?_⟩
  rw [hgroups, InOrder, List.filterMap_append, List.pairwise_append] at hheads
  refine hheads.2.2 first (List.mem_filterMap.mpr ⟨other, hother, by rw [hfirst]; rfl⟩) row ?_
  exact List.mem_filterMap.mpr ⟨group, List.mem_cons_self, by rw [hrow]; rfl⟩

theorem forM_succeeds {α : Type} {task : α → Task Unit} {P : List α → Database → Prop}
    {items done : List α}
    (hstep : ∀ {before item after db}, done ++ items = before ++ item :: after → P before db →
      ∃ db', task item db = .ok ((), db') ∧ P (before ++ [item]) db')
    (hdb : P done db) : ∃ db', items.forM task db = .ok ((), db') := by
  induction items generalizing done db with
  | nil => exact ⟨db, rfl⟩
  | cons item items ih =>
      obtain ⟨db₁, hitem, hdone⟩ := hstep rfl hdb
      obtain ⟨db', hrest⟩ := ih
        (fun hall hbefore =>
          hstep (by rw [← hall, List.append_assoc, List.singleton_append]) hbefore)
        hdone
      refine ⟨db', ?_⟩
      rw [List.forM_eq_forM, List.forM_cons, bind_of_ok hitem]
      exact hrest

/-- Identifiers that no document has. -/
def Database.Unused (db : Database) (uuids : Nat → String) : Prop :=
  Function.Injective uuids ∧ ∀ n, uuids n ∉ db.conversations.rows.map (·.id)

theorem ids_convertGroup {u : Unit} {id : String}
    (h : convertGroup uuid workspaceId group db = .ok (u, db'))
    (hid : id ∈ db'.conversations.rows.map (·.id)) :
    id ∈ db.conversations.rows.map (·.id) ∨ id = uuid := by
  obtain ⟨row, document, -, hrow, -, hdone⟩ := convertGroup_eq_ok h
  have hcreated : id ∈ (db.withDocument row).conversations.rows.map (·.id) := by
    obtain ⟨-, rfl⟩ | ⟨write, -, -, rfl⟩ := hdone
    · exact hid
    · rw [rows_withRecord, List.map_map] at hid
      obtain ⟨other, hother, rfl⟩ := List.mem_map.mp hid
      refine List.mem_map.mpr ⟨other, hother, ?_⟩
      rw [Function.comp_apply]
      split <;> rfl
  rw [Database.withDocument] at hcreated
  rcases rows_insertDocument db.conversations row with hrows | ⟨-, hrows⟩
  · exact .inl (hrows ▸ hcreated)
  · rw [hrows, List.map_append, List.mem_append] at hcreated
    exact hcreated.imp_right fun hid => (List.mem_singleton.mp hid).trans hrow

/-- What the transaction of a workspace has done after some of its groups. -/
structure Converting (start : Database) (order : List String) (workspaceId : String)
    (uuids : Nat → String) (before : Database) (done : List (LegacyGroup × Nat)) (db : Database) :
    Prop where
  rebuilt : Rebuilt db (start.groupsOf order ++ (done.map Prod.fst).map (workspaceId, ·))
  workspaces : db.workspaces = start.workspaces
  ids : ∀ id ∈ db.conversations.rows.map (·.id), id ∈ before.conversations.rows.map (·.id) ∨
    ∃ n < done.length, id = uuids n

variable {uuids : Nat → String} {before : Database} {done todo : List (LegacyGroup × Nat)} {n : Nat}

theorem split_of_zipIdx {groups : List LegacyGroup}
    (h : groups.zipIdx = done ++ (group, n) :: todo) :
    n = done.length ∧ groups = done.map Prod.fst ++ group :: todo.map Prod.fst := by
  constructor
  · have hentry := congrArg (·[done.length]?) h
    rw [List.getElem?_append_right (Nat.le_refl _), Nat.sub_self, List.getElem?_cons_zero,
      List.getElem?_zipIdx, Nat.zero_add, Option.map_eq_some_iff] at hentry
    obtain ⟨_, -, hentry⟩ := hentry
    exact (Prod.mk.inj hentry).2.symm
  · have hfst := congrArg (List.map Prod.fst) h
    rwa [List.zipIdx_map_fst, List.map_append, List.map_cons] at hfst

theorem Converting.unused (h : Converting start order workspaceId uuids before done db)
    (huuids : before.Unused uuids) (hn : n = done.length) :
    uuids n ∉ db.conversations.rows.map (·.id) := by
  intro hid
  rcases h.ids _ hid with hid | ⟨m, hm, hid⟩
  · exact huuids.2 n hid
  · rw [← huuids.1 hid, hn] at hm
    exact absurd hm (Nat.lt_irrefl _)

/-- The key of a group without identity is new: the groups before it begin with
other rows. -/
theorem Converting.key_free (h : Converting start order workspaceId uuids before done db)
    (htable : start.LegacyTable) (horder : workspaceId ∉ order)
    (hsplit : start.groups workspaceId = done.map Prod.fst ++ group :: todo.map Prod.fst)
    {row : Conversation} (hblank : row.Blank)
    (hfind : (db.withDocument row).find principalId workspaceId none = some document)
    (hrecord : record ∈ db.records) (href : record.conversationRef = document.id) :
    record.recordKey ≠ (legacyWrite workspaceId group).recordKey := by
  intro hkey
  obtain ⟨other, hother, -, hown⟩ := (h.rebuilt.created hblank).plain_key hfind hrecord href
  rcases List.mem_append.mp hother with hother | hother
  · exact horder (mem_groupsOf.mp hother).1
  · obtain ⟨earlier, hearlier, hsame⟩ := List.mem_map.mp hother
    obtain rfl := (Prod.mk.inj hsame).2
    obtain ⟨first, next, hfirst, hnext, hlt⟩ := seq_lt_of_groups htable hsplit hearlier
    exact hlt.ne (recordKey_injective hfirst hnext (hown.symm.trans hkey))

theorem Converting.step {workspace : Workspace}
    (h : Converting start order workspaceId uuids before done db) (htable : start.LegacyTable)
    (horder : workspaceId ∉ order) (huuids : before.Unused uuids)
    (hworkspace : start.workspaces.get? workspaceId = some workspace)
    (hall : (start.groups workspaceId).zipIdx = done ++ (group, n) :: todo) :
    ∃ db', convertGroup (uuids n) workspaceId group db = .ok ((), db') ∧
      Converting start order workspaceId uuids before (done ++ [(group, n)]) db' := by
  obtain ⟨hn, hsplit⟩ := split_of_zipIdx hall
  have hgroup : group ∈ start.groups workspaceId := by
    rw [hsplit]
    exact List.mem_append_right _ List.mem_cons_self
  obtain ⟨write, hwrite⟩ := write_of_legacyTable htable hgroup
  obtain ⟨db', hconvert⟩ := convertGroup_of_free h.rebuilt.kept (h.workspaces ▸ hworkspace)
    (h.unused huuids hn) hwrite fun hturn row document hfind record hrecord hblank href => by
      rw [LegacyGroup.write, hturn] at hwrite
      rw [← Option.some.inj hwrite]
      exact h.key_free htable horder hsplit hblank hfind hrecord href
  refine ⟨db', hconvert, ?_, (convertGroup_frame hconvert).1.trans h.workspaces, fun id hid => ?_⟩
  · rw [List.map_append, List.map_append, ← List.append_assoc]
    exact h.rebuilt.convertGroup hconvert
  · rw [List.length_append]
    rcases ids_convertGroup hconvert hid with hid | rfl
    · refine (h.ids id hid).imp_right ?_
      rintro ⟨m, hm, rfl⟩
      exact ⟨m, Nat.lt_succ_of_lt hm, rfl⟩
    · exact .inr ⟨n, by simp [hn], rfl⟩

theorem Underway.goesOn (h : Underway start order db) (htable : start.LegacyTable) {row : LegacyRow}
    (hrow : row ∈ db.legacy) (huuids : db.Unused uuids) :
    ∃ db', convertWorkspace uuids row.workspaceId db = .ok ((), db') := by
  rw [h.legacy, List.mem_filter, decide_eq_true_eq] at hrow
  obtain ⟨hrow, horder⟩ := hrow
  obtain ⟨workspace, hworkspace⟩ := Option.isSome_iff_exists.mp (htable.workspaces row hrow)
  have hstart : Converting start order row.workspaceId uuids db [] db := by
    refine ⟨?_, h.workspaces, fun id hid => .inl hid⟩
    rw [List.map_nil, List.map_nil, List.append_nil]
    exact h.rebuilt
  have hloop : ∃ db₁, (db.groups row.workspaceId).zipIdx.forM
      (fun entry => convertGroup (uuids entry.2) row.workspaceId entry.1) db = .ok ((), db₁) := by
    rw [h.groups horder]
    refine forM_succeeds (fun {done entry todo db₁} hall hdone => ?_) hstart
    rw [List.nil_append] at hall
    exact hdone.step htable horder huuids hworkspace hall
  obtain ⟨db₁, hloop⟩ := hloop
  exact ⟨_, convertWorkspace_eq_ok.mpr ⟨db₁, hloop, rfl⟩⟩

/-! ### The end of a conversion -/

theorem exists_unused (db : Database) : ∃ uuids, db.Unused uuids := by
  have hbound : ∃ bound, ∀ id ∈ db.conversations.rows.map (·.id), id.length < bound := by
    generalize db.conversations.rows.map (·.id) = ids
    induction ids with
    | nil => exact ⟨0, fun _ h => absurd h List.not_mem_nil⟩
    | cons id ids ih =>
        obtain ⟨bound, hbound⟩ := ih
        refine ⟨max bound (id.length + 1), fun other hother => ?_⟩
        rcases List.mem_cons.mp hother with rfl | hother
        · exact Nat.lt_of_lt_of_le (Nat.lt_succ_self _) (Nat.le_max_right _ _)
        · exact Nat.lt_of_lt_of_le (hbound other hother) (Nat.le_max_left _ _)
  obtain ⟨bound, hbound⟩ := hbound
  have hlength : ∀ n, (String.ofList (List.replicate (bound + n) 'x')).length = bound + n := by simp
  refine ⟨fun n => String.ofList (List.replicate (bound + n) 'x'), fun m n hsame => ?_,
    fun n hid => ?_⟩
  · have hsame := congrArg String.length hsame
    dsimp only at hsame
    rw [hlength, hlength] at hsame
    exact Nat.add_left_cancel hsame
  · have hlt := hbound _ hid
    rw [hlength] at hlt
    exact absurd hlt (Nat.not_lt_of_le (Nat.le_add_right _ _))

theorem Underway.next (h : Underway start order db) (htable : start.LegacyTable) {row : LegacyRow}
    (hrow : row ∈ db.legacy) : ∃ db', ConversionSteps db (some row.workspaceId) db' := by
  obtain ⟨uuids, huuids⟩ := exists_unused db
  obtain ⟨db', hconvert⟩ := h.goesOn htable hrow huuids
  exact ⟨db', ⟨row, hrow, rfl⟩, uuids, hconvert⟩

theorem Underway.ends (h : Underway start order db) (htable : start.LegacyTable) :
    ∃ events db', Run ConversionSteps db events db' ∧ db'.legacy = [] := by
  induction hlength : db.legacy.length using Nat.strong_induction_on generalizing order db with
  | _ length ih =>
      cases hlegacy : db.legacy with
      | nil => exact ⟨[], db, .nil db, hlegacy⟩
      | cons row rows =>
          have hrow : row ∈ db.legacy := by rw [hlegacy]; exact List.mem_cons_self
          obtain ⟨db₁, hstep⟩ := h.next htable hrow
          have hshorter : db₁.legacy.length < length := by
            obtain ⟨-, uuids, hconvert⟩ := hstep
            rw [(h.rebuilt.convertWorkspace hconvert).2.2, ← hlength]
            exact List.length_filter_lt_length_iff_exists.mpr ⟨row, hrow, by simp⟩
          obtain ⟨events, db', hrun, hend⟩ := ih _ hshorter (h.step hstep) rfl
          exact ⟨_, db', .cons hstep hrun, hend⟩

/-- What a conversion has made of a database when it has converted some
workspaces, in their order. -/
structure Converted (start : Database) (order : List String) (db : Database) : Prop where
  once : order.Nodup
  rows : db.legacy = start.legacy.filter (·.workspaceId ∉ order)
  /-- The messages without identity in the records of a workspace, in the order
  of the records, are its rows without identity. -/
  plain : ∀ workspaceId ∈ order,
    ((db.records.filter (·.workspaceId = workspaceId)).flatMap (·.contents)).filter
        (·.identity = none) =
      ((start.rowsOf workspaceId).filter (·.turnId = none)).map (·.toMessageInput)
  /-- A turn has one record, from the first workspace that has rows of it. -/
  turn : ∀ principalId conversationId turnId,
    match order.find? (start.hasTurn principalId conversationId turnId) with
    | none => db.recordsOfTurn principalId conversationId turnId = []
    | some workspaceId => ∃ record, db.recordsOfTurn principalId conversationId turnId = [record] ∧
        record.workspaceId = workspaceId ∧
        Revisions (start.turnRows conversationId turnId workspaceId) record.contents
  /-- The records of a workspace are in the order of their first rows. -/
  heads : ∀ workspaceId, ∃ heads : List LegacyRow, heads.Sublist (start.rowsOf workspaceId) ∧
    List.Forall₂ (Begins (start.rowsOf workspaceId))
      (db.records.filter (·.workspaceId = workspaceId)) heads
  goesOn : ∀ row ∈ db.legacy, ∀ randomUUID, db.Unused randomUUID →
    ∃ db', convertWorkspace randomUUID row.workspaceId db = .ok ((), db')
  ends : ∃ events db', Run ConversionSteps db events db' ∧ db'.legacy = []
  rerun : db.legacy = [] → ∀ events db', Run ConversionSteps db events db' → db' = db

theorem rerun_eq {events : List (Option String)} (h : db.legacy = [])
    (hrun : Run ConversionSteps db events db') : db' = db := by
  induction hrun with
  | nil => rfl
  | @cons db db₁ db' event events hstep _ ih =>
      cases event with
      | none =>
          obtain rfl : db₁ = db := hstep
          exact ih h
      | some workspaceId =>
          obtain ⟨⟨row, hrow, -⟩, -⟩ := hstep
          rw [h] at hrow
          cases hrow

/-- The identities in a record tell whether it is of a turn. -/
theorem Made.filter_identity (htable : start.LegacyTable) (h : Made db entry record)
    (hgroup : entry.2 ∈ start.groups entry.1) :
    record.contents.filter (·.identity = none) =
      if record.document.request.isNone then record.contents else [] := by
  have hgrouped := start.grouped entry.1
  cases hturn : entry.2.turnId with
  | none =>
      obtain ⟨hrequest, -, hcontents⟩ := h.plain (turn_of_turnId_none hturn)
      rw [hrequest, Option.isNone_none, if_pos rfl, List.filter_eq_self, hcontents]
      intro message hmessage
      obtain ⟨row, hrow, rfl⟩ := List.mem_map.mp hmessage
      have hmem : row ∈ (start.rowsOf entry.1).filter (·.turnId = none) := by
        rw [← hgrouped.plain]
        exact List.mem_flatMap.mpr
          ⟨entry.2, List.mem_filter.mpr ⟨hgroup, decide_eq_true hturn⟩, hrow⟩
      have hnone := of_decide_eq_true (List.mem_filter.mp hmem).2
      exact decide_eq_true (Option.map_eq_none_iff.mp hnone)
  | some turnId =>
      obtain ⟨hnamed, hrows, -⟩ := htable.turn hgroup hturn
      obtain ⟨hrequest, -, hcontents⟩ := h.turn hnamed
      rw [Option.isNone_eq_false_iff.mpr hrequest, if_neg Bool.false_ne_true,
        List.filter_eq_nil_iff, hcontents]
      intro message hmessage hnone
      -- each message of a turn's record is one of its events
      have hrevisions : Revisions entry.2.rows
          ((latestRevisions entry.2.rows).map (·.toMessageInput)) := by
        refine revisions_latestRevisions ?_
        rw [hrows]
        exact (htable.inOrder entry.1).filter _
      obtain ⟨i, hi, rfl⟩ := List.getElem_of_mem hmessage
      obtain ⟨_, _, _, -, -, hevent, -⟩ := hrevisions.get (hrevisions.length_eq ▸ hi) hi
      rw [MessageInput.eventId, List.get_eq_getElem, of_decide_eq_true hnone] at hevent
      cases hevent

theorem flatMap_filter_isNone {records : List ConversationRecord} :
    (records.filter (·.document.request.isNone)).flatMap (·.contents) =
      records.flatMap fun record =>
        if record.document.request.isNone then record.contents else [] := by
  induction records with
  | nil => rfl
  | cons record records ih =>
      rw [List.filter_cons, List.flatMap_cons, ← ih]
      split <;> rfl

/-- Nothing without identity is lost, and nothing is there twice. -/
theorem Underway.unidentified (h : Underway start order db) (htable : start.LegacyTable)
    (horder : workspaceId ∈ order) :
    ((db.records.filter (·.workspaceId = workspaceId)).flatMap (·.contents)).filter
        (·.identity = none) =
      ((start.rowsOf workspaceId).filter (·.turnId = none)).map (·.toMessageInput) := by
  rw [← h.plain htable horder, List.filter_flatMap, ← List.filter_filter, List.filter_comm,
    flatMap_filter_isNone]
  refine List.flatMap_congr fun record hrecord => ?_
  obtain ⟨entry, hentry, hmade⟩ := exists_of_mem_records h.rebuilt.records
    (List.mem_filter.mp hrecord).1
  exact hmade.filter_identity htable (mem_groupsOf.mp ((firsts_sublist _).subset hentry)).2

theorem Underway.converted (h : Underway start order db) (htable : start.LegacyTable)
    (hone : start.OneConversation) : Converted start order db where
  once := h.nodup
  rows := h.legacy
  plain _ horder := h.unidentified htable horder
  turn _ _ _ := h.turn htable hone
  heads := h.heads htable
  goesOn _ hrow _ huuids := h.goesOn htable hrow huuids
  ends := h.ends htable
  rerun hlegacy _ _ hrun := rerun_eq hlegacy hrun

/-- One group has the rows of a turn, so the turn has a record in one
conversation only. -/
theorem Underway.conversation_eq (h : Underway start [workspaceId] db)
    {other : String} (hrecord : record ∈ db.recordsOfTurn principalId conversation turnId)
    {record' : ConversationRecord}
    (hrecord' : record' ∈ db.recordsOfTurn principalId other turnId) : conversation = other := by
  have hgroup : ∀ {conversation : String} {record : ConversationRecord},
      record ∈ db.recordsOfTurn principalId conversation turnId →
        ∃ group ∈ start.groups workspaceId, group.turnId = some turnId ∧
          group.conversation = some (some conversation) := by
    intro conversation record hrecord
    obtain ⟨entry, hentry, -⟩ := exists_of_mem_records (h.recordsOfTurn _ _ _) hrecord
    obtain ⟨hentry, hkey⟩ := List.mem_filter.mp (List.mem_of_mem_take hentry)
    obtain ⟨-, hconversation, hturn⟩ := turnKey_eq_some.mp (of_decide_eq_true hkey)
    obtain ⟨horder, hmem⟩ := mem_groupsOf.mp hentry
    rw [List.mem_singleton.mp horder] at hmem
    exact ⟨entry.2, hmem, (Option.filter_eq_some_iff.mp hturn).1, hconversation⟩
  obtain ⟨⟨_, rows⟩, hmem, hturn, hconversation⟩ := hgroup hrecord
  obtain ⟨⟨_, rows'⟩, hmem', hturn', hconversation'⟩ := hgroup hrecord'
  have hrows : rows = rows' := ((start.grouped workspaceId).turn _ hmem turnId hturn).trans
    ((start.grouped workspaceId).turn _ hmem' turnId hturn').symm
  obtain rfl : _ = some turnId := hturn
  obtain rfl : _ = some turnId := hturn'
  rw [← hrows, hconversation] at hconversation'
  exact Option.some.inj (Option.some.inj hconversation')

/-- The first workspace that is converted has a record for each of its turns. -/
theorem Converted.record_of_row {row : LegacyRow} {identity : ConversationMessageIdentity}
    {workspace : Workspace} (h : Converted start [workspaceId] db) (hrow : row ∈ start.legacy)
    (hworkspaceId : row.workspaceId = workspaceId)
    (hworkspace : start.workspaces.get? workspaceId = some workspace)
    (hidentity : row.identity = some identity) : ∃ record, record ∈
      db.recordsOfTurn workspace.principalId identity.conversation_id identity.turn_id := by
  have hhas : start.hasTurn workspace.principalId identity.conversation_id identity.turn_id
      workspaceId = true := by
    refine hasTurn_eq_true.mpr ⟨⟨workspace, hworkspace, rfl⟩, row, mem_turnRows.mpr
      ⟨mem_rowsOf.mpr ⟨hrow, hworkspaceId⟩, ?_, ?_⟩⟩
    · rw [LegacyRow.conversation, hidentity]
      rfl
    · rw [LegacyRow.turnId, hidentity]
      rfl
  have hturn := h.turn workspace.principalId identity.conversation_id identity.turn_id
  rw [List.find?_cons_of_pos hhas] at hturn
  obtain ⟨record, hrecords, -⟩ := hturn
  exact ⟨record, by rw [hrecords]; exact List.mem_cons_self⟩

/-- Rows of one turn in two conversations are converted into one record. -/
theorem oneConversation_of_converted (hfresh : start.Fresh) (htable : start.LegacyTable)
    (h : ∀ {events db}, Run ConversionSteps start events db →
      Converted start events.reduceOption db) : start.OneConversation := by
  intro row hrow other hother hworkspaceId hturn
  rw [LegacyRow.turnId, LegacyRow.turnId] at hturn
  rw [LegacyRow.conversation, LegacyRow.conversation]
  cases hidentity : row.identity with
  | none =>
      rw [hidentity, Option.map_none, eq_comm, Option.map_eq_none_iff] at hturn
      rw [hturn]
  | some identity =>
      rw [hidentity, Option.map_some, eq_comm, Option.map_eq_some_iff] at hturn
      obtain ⟨identity', hidentity', hsame⟩ := hturn
      obtain ⟨db, hstep⟩ := hfresh.underway.next htable hrow
      have hconverted : Converted start [row.workspaceId] db := h (.single hstep)
      have hunderway : Underway start [row.workspaceId] db := hfresh.underway.step hstep
      obtain ⟨workspace, hworkspace⟩ := Option.isSome_iff_exists.mp (htable.workspaces row hrow)
      obtain ⟨record, hrecord⟩ := hconverted.record_of_row hrow rfl hworkspace hidentity
      obtain ⟨record', hrecord'⟩ :=
        hconverted.record_of_row hother hworkspaceId.symm hworkspace hidentity'
      rw [hsame] at hrecord'
      rw [hidentity', Option.map_some, Option.map_some,
        hunderway.conversation_eq hrecord hrecord']

/-- Legacy conversion loses nothing, whatever interrupts it, exactly when the
rows of a turn in a workspace are of one conversation. -/
theorem legacyConversion_complete (hfresh : start.Fresh) (htable : start.LegacyTable) :
    (∀ {events db}, Run ConversionSteps start events db →
      Converted start events.reduceOption db) ↔ start.OneConversation :=
  ⟨oneConversation_of_converted hfresh htable, fun hone _ _ hrun =>
    (hfresh.underway.run hrun).converted htable hone⟩

/-! ### Two upgrades -/

namespace Legacy

def turn : String := "00000000-0000-0000-0000-000000000000"

def otherConversation : String := "ffffffff-ffff-ffff-ffff-ffffffffffff"

/-- A row between two revisions of an event, and the turn again in a later
workspace. -/
def replayed : Database :=
  { init with
    legacy := [row "first" turn,
      { row "first" turn with seq := 2, messageId := "n", identity := none },
      { row "first" turn with
        seq := 3
        messageId := "o"
        identity := some { identity turn with revision := 2 } },
      row "second" turn] }

def mixed : Database :=
  { init with
    legacy := [row "first" turn,
      { row "first" turn with
        seq := 2
        messageId := "n"
        identity := some { identity turn with conversation_id := otherConversation } }] }

theorem identities_of_all (h : (db.legacy.all fun row =>
      row.identity.all (·.toConversationRequestIdentity.conforms)) = true) :
    ∀ row ∈ db.legacy, ∀ identity, row.identity = some identity →
      identity.toConversationRequestIdentity.conforms = true := by
  intro row hrow identity hidentity
  have hconforms := List.all_eq_true.mp h row hrow
  rw [hidentity] at hconforms
  exact hconforms

theorem legacyTable_replayed : replayed.LegacyTable where
  keys := by decide
  workspaces := by decide
  identities := identities_of_all (by decide +kernel)

theorem fresh_replayed : replayed.Fresh := ⟨rfl, rfl, rfl, fun _ h => absurd h List.not_mem_nil⟩

theorem oneConversation_replayed : replayed.OneConversation := by
  unfold Database.OneConversation
  decide

theorem run_replayed :
    ∃ db, Run ConversionSteps replayed [none, some "first", none, some "second"] db := by
  have hfresh := fresh_replayed.underway
  have hrow : row "first" turn ∈ replayed.legacy := List.mem_cons_self
  obtain ⟨db, hfirst⟩ := hfresh.next legacyTable_replayed hrow
  have hdone := hfresh.step hfirst
  have hsecond : row "second" turn ∈ db.legacy := by
    rw [hdone.legacy]
    decide
  obtain ⟨db', hnext⟩ := hdone.next legacyTable_replayed hsecond
  exact ⟨db', .cons rfl (.cons hfirst (.cons rfl (.cons hnext (.nil _))))⟩

def randomUUID (n : Nat) : String := if n = 0 then "document" else "other"

end Legacy

/-- The turn of the second conversation has no record. -/
theorem legacyConversion_mixed :
    ∃ db, Run ConversionSteps Legacy.mixed [some "first"] db ∧ db.legacy = [] ∧
      Legacy.mixed.hasTurn "owner" Legacy.otherConversation Legacy.turn "first" = true ∧
      db.recordsOfTurn "owner" Legacy.otherConversation Legacy.turn = [] ∧
      ¬Converted Legacy.mixed ["first"] db := by
  have hturn : Legacy.mixed.hasTurn "owner" Legacy.otherConversation Legacy.turn "first" =
      true := by decide +kernel
  obtain ⟨hok, hrecords, hlegacy⟩ :
      (convertWorkspace Legacy.randomUUID "first" Legacy.mixed).isOk = true ∧
        ((committed (convertWorkspace Legacy.randomUUID "first") Legacy.mixed).recordsOfTurn "owner"
          Legacy.otherConversation Legacy.turn).length = 0 ∧
        (committed (convertWorkspace Legacy.randomUUID "first") Legacy.mixed).legacy.length = 0 := by
    decide +kernel
  rw [List.length_eq_zero_iff] at hrecords hlegacy
  rw [committed] at hrecords hlegacy
  cases hconvert : convertWorkspace Legacy.randomUUID "first" Legacy.mixed with
  | error failure =>
      rw [hconvert] at hok
      cases hok
  | ok result =>
      obtain ⟨_, db⟩ := result
      rw [hconvert] at hrecords hlegacy
      refine ⟨db, .single ⟨⟨_, List.mem_cons_self, rfl⟩, _, hconvert⟩, hlegacy, hturn, hrecords,
        fun h => ?_⟩
      have hrecord := h.turn "owner" Legacy.otherConversation Legacy.turn
      rw [List.find?_cons_of_pos hturn] at hrecord
      obtain ⟨record, hsome, -⟩ := hrecord
      rw [hrecords] at hsome
      cases hsome

theorem legacyConversion_replayed :
    ∃ db, Run ConversionSteps Legacy.replayed [none, some "first", none, some "second"] db ∧
      Converted Legacy.replayed ["first", "second"] db := by
  obtain ⟨db, hrun⟩ := Legacy.run_replayed
  exact ⟨db, hrun, (legacyConversion_complete Legacy.fresh_replayed Legacy.legacyTable_replayed).mpr
    Legacy.oneConversation_replayed hrun⟩

end PocketCoder.Conversations
