import PocketCoder.Conversations.FrameOrder

/-!
A finished turn is written once: in any run of an open turn and the store, at
most one record is ever inserted for the turn.

`Database.Once` is what keeps a second one out. A conversation has one document,
a retained document has all records that were ever inserted into it, and a
record is only inserted into a retained document that has none with its key.
-/

namespace PocketCoder.Conversations

open PocketCoder.Foundation PocketCoder.Executions

variable {db db' : Database}

/-! ### One record for each key -/

structure Database.Once (db : Database) : Prop where
  conversations : ∀ document ∈ db.conversations.rows, ∀ other ∈ db.conversations.rows,
    document.principalId = other.principalId → document.conversationId = other.conversationId →
      document.conversationId ≠ none → document.id = other.id
  keys : ∀ document ∈ db.conversations.rows,
    ((db.insertedOf document.id).map (·.recordKey)).Nodup
  retained : ∀ document ∈ db.conversations.rows, document.status = .retained →
    db.recordsOf document.id = db.insertedOf document.id

/-- A document is only created where none has its conversation. -/
theorem insertDocument_new (rows : Table Conversation.id) (row : Conversation) :
    (insertDocument rows row).rows = rows.rows ∨
      (∀ other ∈ rows.rows, identifies row.principalId row.workspaceId row.conversationId other = false) ∧
        row.id ∉ rows.rows.map (·.id) ∧ (insertDocument rows row).rows = rows.rows ++ [row] := by
  rw [insertDocument]
  split_ifs with hany
  · exact .inl rfl
  · rw [Bool.not_eq_true, List.any_eq_false] at hany
    refine (rows.rows_insert row).imp id fun hnew => ⟨fun other hother => ?_, hnew⟩
    exact Bool.eq_false_iff.mpr (hany other hother)

/-- Rows that come from rows with the same conversation and number. -/
theorem conversations_of_rows
    (h : ∀ document ∈ db.conversations.rows, ∀ other ∈ db.conversations.rows,
      document.principalId = other.principalId → document.conversationId = other.conversationId →
        document.conversationId ≠ none → document.id = other.id)
    (hrows : ∀ row' ∈ db'.conversations.rows, ∃ row ∈ db.conversations.rows, row.id = row'.id ∧
      row.principalId = row'.principalId ∧ row.conversationId = row'.conversationId) :
    ∀ document ∈ db'.conversations.rows, ∀ other ∈ db'.conversations.rows,
      document.principalId = other.principalId → document.conversationId = other.conversationId →
        document.conversationId ≠ none → document.id = other.id := by
  intro document hdocument other hother hprincipal hconversation hnamed
  obtain ⟨row, hrow, hid, hprincipal', hconversation'⟩ := hrows document hdocument
  obtain ⟨row', hrow', hid', hprincipal'', hconversation''⟩ := hrows other hother
  rw [← hid, ← hid']
  exact h row hrow row' hrow' (by rw [hprincipal', hprincipal, hprincipal''])
    (by rw [hconversation', hconversation, hconversation'']) (by rwa [hconversation'])

theorem Effect.once (h : Effect (·.status = .retained) db db') (hkept : db.Kept)
    (honce : db.Once) : db'.Once := by
  cases h with
  | @document row hblank =>
      rcases insertDocument_new db.conversations row with hrows | ⟨hnone, hid, hrows⟩
      · refine ⟨fun document hmem other hother => ?_, fun document hmem => ?_, fun document hmem => ?_⟩
        · exact honce.conversations document (hrows ▸ hmem) other (hrows ▸ hother)
        · exact honce.keys document (hrows ▸ hmem)
        · exact honce.retained document (hrows ▸ hmem)
      · obtain ⟨hrecords, hinserted⟩ := hkept.none_of_new hid
        have hcases : ∀ document ∈ (db.withDocument row).conversations.rows,
            document ∈ db.conversations.rows ∨ document = row := by
          intro document hmem
          rw [Database.withDocument, hrows, List.mem_append, List.mem_singleton] at hmem
          exact hmem
        -- the insert was made because no row has the identity
        have hdistinct : ∀ document ∈ db.conversations.rows,
            document.principalId = row.principalId → document.conversationId = row.conversationId →
              document.conversationId ≠ none → False := by
          intro document hmem hprincipal hconversation hnamed
          have hidentifies := hnone document hmem
          rw [← hconversation] at hidentifies
          cases hname : document.conversationId with
          | none => exact hnamed hname
          | some name =>
              rw [hname, identifies, hname, hprincipal] at hidentifies
              simp at hidentifies
        refine ⟨fun document hmem other hother => ?_, fun document hmem => ?_, fun document hmem => ?_⟩
        · rcases hcases document hmem with hold | rfl
          · rcases hcases other hother with hold' | rfl
            · exact honce.conversations document hold other hold'
            · exact fun hprincipal hconversation hnamed =>
                (hdistinct document hold hprincipal hconversation hnamed).elim
          · rcases hcases other hother with hold' | rfl
            · exact fun hprincipal hconversation hnamed =>
                (hdistinct other hold' hprincipal.symm hconversation.symm
                  (hconversation ▸ hnamed)).elim
            · exact fun _ _ _ => rfl
        · rcases hcases document hmem with hold | rfl
          · exact honce.keys document hold
          · show ((db.insertedOf document.id).map (·.recordKey)).Nodup
            rw [hinserted]
            exact List.nodup_nil
        · rcases hcases document hmem with hold | rfl
          · exact honce.retained document hold
          · intro _
            show db.recordsOf document.id = db.insertedOf document.id
            rw [hrecords, hinserted]
  | charge => exact ⟨honce.conversations, honce.keys, honce.retained⟩
  | @record document write hdocument hfree hretained =>
      have hall := honce.retained document hdocument hretained
      refine ⟨?_, fun row' hrow' => ?_, fun row' hrow' hstatus => ?_⟩
      · refine conversations_of_rows honce.conversations fun row' hrow' => ?_
        rcases mem_withRecord hdocument hrow' with rfl | ⟨hrow, -⟩
        · exact ⟨document, hdocument, rfl, rfl, rfl⟩
        · exact ⟨row', hrow, rfl, rfl, rfl⟩
      · rw [insertedOf_withRecord]
        rcases mem_withRecord hdocument hrow' with rfl | ⟨hrow, hid⟩
        · rw [if_pos (show document.id = (countRecord document _ document).id from rfl),
            List.map_append, List.nodup_append]
          -- the key is free among the stored records, which are all there ever were
          refine ⟨honce.keys document hdocument, List.nodup_singleton _, fun key hkey other hother => ?_⟩
          obtain ⟨record, hrecord, rfl⟩ := List.mem_map.mp hkey
          rw [List.mem_singleton.mp hother]
          have hstored : record ∈ db.recordsOf document.id := hall.symm ▸ hrecord
          obtain ⟨hrecords, href⟩ := List.mem_filter.mp hstored
          exact (hfree record hrecords (of_decide_eq_true href)).2
        · rw [if_neg (Ne.symm hid), List.append_nil]
          exact honce.keys row' hrow
      · rw [insertedOf_withRecord, recordsOf_withRecord]
        rcases mem_withRecord hdocument hrow' with rfl | ⟨hrow, -⟩
        · exact congrArg (· ++ _) hall
        · rw [honce.retained row' hrow hstatus]
  | legacy => exact ⟨honce.conversations, honce.keys, honce.retained⟩

theorem StepKind.once (h : StepKind (·.status = .retained) db db') (hkept : db.Kept)
    (honce : db.Once) : db'.Once := by
  cases h with
  | effects h =>
      exact (h.invariant (P := fun db => db.Kept ∧ db.Once)
        (fun hstep hbefore => ⟨hstep.kept hbefore.1, hstep.once hbefore.1 hbefore.2⟩)
        ⟨hkept, honce⟩).2
  | cleared documents clearing now =>
      refine ⟨?_, fun row' hrow' => ?_, fun row' hrow' hstatus => ?_⟩
      · refine conversations_of_rows honce.conversations fun row' hrow' => ?_
        obtain ⟨row, hrow, ⟨-, rfl⟩ | ⟨-, rfl⟩⟩ := Database.mem_cleared hrow'
        · exact ⟨row, hrow, rfl, rfl, rfl⟩
        · exact ⟨row', hrow, rfl, rfl, rfl⟩
      · obtain ⟨row, hrow, ⟨-, rfl⟩ | ⟨-, rfl⟩⟩ := Database.mem_cleared hrow'
        · exact honce.keys row hrow
        · exact honce.keys row' hrow
      · obtain ⟨row, hrow, ⟨-, rfl⟩ | ⟨hkeep, rfl⟩⟩ := Database.mem_cleared hrow'
        · cases clearing <;> exact ConversationStatus.noConfusion hstatus
        · rw [Database.recordsOf_cleared, if_neg (by rw [hkeep]; exact Bool.false_ne_true)]
          exact honce.retained row' hrow hstatus
  | workspaces => exact ⟨honce.conversations, honce.keys, honce.retained⟩
  | states => exact ⟨honce.conversations, honce.keys, honce.retained⟩
  | retention id expiresAt =>
      refine ⟨?_, fun row' hrow' => ?_, fun row' hrow' hstatus => ?_⟩
      · refine conversations_of_rows honce.conversations fun row' hrow' => ?_
        obtain ⟨row, hrow, hsame⟩ := mem_setRetention hrow'
        rw [hsame]
        exact ⟨row, hrow, rfl, rfl, rfl⟩
      · obtain ⟨row, hrow, hsame⟩ := mem_setRetention hrow'
        rw [hsame]
        exact honce.keys row hrow
      · obtain ⟨row, hrow, hsame⟩ := mem_setRetention hrow'
        rw [hsame] at hstatus ⊢
        exact honce.retained row hrow hstatus

theorem Database.Fresh.once (h : db.Fresh) : db.Once := by
  refine ⟨fun document hmem => ?_, fun document hmem => ?_, fun document hmem => ?_⟩
  all_goals
    rw [h.conversations] at hmem
    cases hmem

/-- Every record that was ever inserted for a turn. -/
def Database.turnRecords (db : Database) (principalId conversationId turnId : String) :
    List ConversationRecord :=
  db.inserted.filter fun record => record.recordKey = turnId &&
    db.conversations.rows.any fun document => document.id = record.conversationRef &&
      (document.principalId = principalId && document.conversationId = some conversationId)

theorem Database.Once.turnRecords (h : db.Once) (principalId conversationId turnId : String) :
    (db.turnRecords principalId conversationId turnId).length ≤ 1 := by
  rcases List.eq_nil_or_concat (db.turnRecords principalId conversationId turnId) with
    hnil | ⟨before, record, hrecord⟩
  · rw [hnil]
    exact Nat.zero_le _
  have hmem : record ∈ db.turnRecords principalId conversationId turnId := by
    rw [hrecord, List.concat_eq_append]
    exact List.mem_append_right _ List.mem_cons_self
  have hfields : ∀ record ∈ db.turnRecords principalId conversationId turnId,
      record ∈ db.inserted ∧ record.recordKey = turnId ∧ ∃ document ∈ db.conversations.rows,
        document.id = record.conversationRef ∧ document.principalId = principalId ∧
          document.conversationId = some conversationId := by
    intro record hrecord
    rw [Database.turnRecords, List.mem_filter, Bool.and_eq_true, List.any_eq_true] at hrecord
    simpa only [Bool.and_eq_true, decide_eq_true_eq] using hrecord
  obtain ⟨-, -, document, hdocument, hid, hprincipal, hconversation⟩ := hfields record hmem
  -- All of them belong to that document.
  have hsame : db.turnRecords principalId conversationId turnId =
      (db.insertedOf document.id).filter (fun record => record ∈
        db.turnRecords principalId conversationId turnId) := by
    rw [Database.insertedOf, List.filter_filter]
    conv_lhs => rw [Database.turnRecords]
    refine List.filter_congr fun other hother => ?_
    rw [Bool.eq_iff_iff]
    constructor
    · intro hholds
      have hmem' : other ∈ db.turnRecords principalId conversationId turnId :=
        List.mem_filter.mpr ⟨hother, hholds⟩
      refine Bool.and_eq_true_iff.mpr ⟨decide_eq_true hmem', decide_eq_true ?_⟩
      obtain ⟨-, -, row, hrow, hid', hprincipal', hconversation'⟩ := hfields other hmem'
      rw [← hid']
      exact h.conversations row hrow document hdocument (hprincipal'.trans hprincipal.symm)
        (hconversation'.trans hconversation.symm) (by rw [hconversation']; exact Option.some_ne_none _)
    · intro hholds
      have hmem' := of_decide_eq_true (Bool.and_eq_true_iff.mp hholds).1
      exact (List.mem_filter.mp hmem').2
  have hkeys : ((db.turnRecords principalId conversationId turnId).map (·.recordKey)).Nodup := by
    rw [hsame]
    exact (List.filter_sublist.map _).nodup (h.keys document hdocument)
  have hconstant : (db.turnRecords principalId conversationId turnId).map (·.recordKey) =
      List.replicate (db.turnRecords principalId conversationId turnId).length turnId := by
    rw [← List.length_map (·.recordKey)]
    refine List.eq_replicate_of_mem fun key hkey => ?_
    obtain ⟨other, hother, rfl⟩ := List.mem_map.mp hkey
    exact (hfields other hother).2.1
  rw [hconstant] at hkeys
  exact List.nodup_replicate.mp hkeys

/-! ### A turn and the store -/

variable {system system' : LiveSystem} {trace : List LiveLabel}
  {frames arrived : List IdentifiedMessage} {last : IdentifiedMessage}

theorem LiveSteps.kind {label : LiveLabel} (h : LiveSteps system label system') :
    StepKind (·.status = .retained) system.db system'.db := by
  obtain ⟨event, calls, error⟩ := label
  obtain ⟨hstep, hunrevived⟩ := h
  have hmemory : ∀ {result : Option (LiveTurn.Outcome LiveTurn)},
      result.map system.inMemory = some ⟨system', calls, error⟩ → system'.db = system.db := by
    intro result hresult
    obtain ⟨outcome, -, hsystem⟩ := Option.map_eq_some_iff.mp hresult
    obtain ⟨rfl, -, -⟩ := (LiveTurn.Outcome.mk.injEq ..).mp hsystem
    rfl
  cases event with
  | receive message =>
      obtain ⟨rfl, -, -⟩ := (LiveTurn.Outcome.mk.injEq ..).mp (Option.some.inj hstep)
      exact .effects .refl
  | apply =>
      rw [hmemory hstep]
      exact .effects .refl
  | accepted answer =>
      rw [hmemory hstep]
      exact .effects .refl
  | answer index lost =>
      rw [hmemory hstep]
      exact .effects .refl
  | close endedAt =>
      rw [hmemory hstep]
      exact .effects .refl
  | store index randomUUID =>
      obtain ⟨-, -, -, -, call, hdb⟩ := store_fields hstep
      rw [hdb]
      exact UnrevivedSteps.kind ⟨rfl, nofun⟩
  | other operation =>
      obtain ⟨rfl, -, -⟩ := (LiveTurn.Outcome.mk.injEq ..).mp (Option.some.inj hstep)
      refine UnrevivedSteps.kind ⟨rfl, fun uuids workspaceId hoperation => ?_⟩
      exact hunrevived uuids workspaceId (congrArg LiveEvent.other hoperation)

theorem FinishedTurn.congr (h : FinishedTurn frames last)
    (hsame : ∀ message, message ∈ arrived ↔ message ∈ frames) : FinishedTurn arrived last := by
  have hall : ∀ message, message ∈ arrived ++ [last] ↔ message ∈ frames ++ [last] := by
    intro message
    rw [List.mem_append, List.mem_append, hsame]
  refine ⟨fun message hmessage other hother => ?_, fun message other hmessage hother => ?_,
    fun message hmessage => ?_, h.terminal, fun message hmessage => ?_⟩
  · exact h.revisions message ((hall _).mp hmessage) other ((hall _).mp hother)
  · exact h.sequences message other ((latest_congr hall).mp hmessage) ((latest_congr hall).mp hother)
  · exact h.unfinished message ((hsame _).mp hmessage)
  · exact h.newest message ((hsame _).mp hmessage)

/-- A finished turn does not depend on the order of its frames, and is stored at
most once. The first half is for a set of frames in which a revision of an event
is one message, the latest revisions of distinct events have distinct numbers,
and the terminal fact is newer than the frames of its event: in every order
in which they arrive, the terminal fact last, and with no refusal and no failure
of the store, the one commit has the latest revision of each event, in the
order of the numbers. The second half is for every run, with late frames,
failed commits, lost answers, `close`, and other transactions. -/
theorem liveTurns_finished {workspaceId : String} :
    (∀ {frames : List IdentifiedMessage} {last : IdentifiedMessage}, FinishedTurn frames last →
      ∃ messages, Final (frames ++ [last]) messages ∧
        ∀ {arrived : List IdentifiedMessage} {db : Database} {trace : List LiveLabel}
          {system : LiveSystem}, (∀ message, message ∈ arrived ↔ message ∈ frames) →
          Run LiveSteps ⟨.idle workspaceId, db⟩ trace system → received trace = arrived ++ [last] →
          Unclosed trace → (∀ label ∈ trace, label.error = none) →
            (∀ call ∈ commitCalls trace, call.messages = messages.map (·.committed)) ∧
            (commitCalls trace).length ≤ 1 ∧
            (system.live.waiting = [] → system.live.asking = none →
              (commitCalls trace).length = 1)) ∧
    ∀ {init : Database} {trace : List LiveLabel} {system : LiveSystem}, init.Fresh →
      Run LiveSteps ⟨.idle workspaceId, init⟩ trace system →
        ∀ principalId conversationId turnId,
          (system.db.turnRecords principalId conversationId turnId).length ≤ 1 := by
  refine ⟨fun {frames last} h => ?_, fun {init trace system} hfresh hrun => ?_⟩
  -- the turn that has all frames, taken in the order of the list
  · have hcollect : Keeps ([] ++ (frames ++ [last]))
        (collect (frames ++ [last]) (.opened workspaceId last)) :=
      keeps_collect h.revisions (keeps_nil rfl)
    rw [List.nil_append] at hcollect
    refine ⟨_, hcollect.ordered h.sequences, fun {arrived db trace system} hsame hrun hreceived
      hopen herror => ?_⟩
    have harrived := h.congr hsame
    have hall : ∀ message, message ∈ arrived ++ [last] ↔ message ∈ frames ++ [last] := by
      intro message
      rw [List.mem_append, List.mem_append, hsame]
    have hstart : Applied arrived last [] (LiveTurn.idle workspaceId) [] :=
      ⟨[], rfl, .start rfl rfl rfl rfl⟩
    obtain ⟨done, hdone, hprogress⟩ := hstart.run harrived hrun hreceived herror hopen
    rw [List.nil_append] at hprogress
    cases hprogress with
    | start hnil _ _ hcalls =>
        rw [hcalls]
        refine ⟨fun _ hcall => (nomatch hcall), Nat.zero_le _, fun hwaiting hasking => ?_⟩
        rw [hwaiting, hasking, hnil] at hdone
        simp at hdone
    | collecting turn _ _ _ hcalls _ hlast =>
        rw [hcalls]
        refine ⟨fun _ hcall => (nomatch hcall), Nat.zero_le _, fun hwaiting hasking => ?_⟩
        rw [hwaiting, hasking, Option.toList_none, List.append_nil, List.append_nil] at hdone
        exact absurd (hdone ▸ List.mem_append_right _ List.mem_cons_self) hlast
    | committed turn terminal _ hcalls hkeeps =>
        rw [hcalls]
        refine ⟨fun call hcall => ?_, Nat.le_refl _, fun _ _ => rfl⟩
        rw [List.mem_singleton.mp hcall]
        -- both lists are the latest revisions, so they are one list
        exact congrArg _ ((hkeeps.ordered harrived.sequences).unique
          (hcollect.ordered h.sequences) hall)
  · have honce : system.db.Kept ∧ system.db.Once := by
      refine hrun.invariant (I := fun system : LiveSystem => system.db.Kept ∧ system.db.Once) ?_
        ⟨hfresh.kept, hfresh.once⟩
      rintro before label after hstep ⟨hkept, honce⟩
      exact ⟨hstep.kind.kept hkept, hstep.kind.once hkept honce⟩
    exact honce.2.turnRecords

/-! ### Frames that arrive one after the other -/

section Runs

variable {workspaceId : String} {message : IdentifiedMessage} {turn : OpenTurn}

/-- A turn in memory that nothing waits for. -/
def resting (workspaceId : String) (turn : Option OpenTurn) (db : Database) : LiveSystem :=
  ⟨⟨workspaceId, turn, [], none, []⟩, db⟩

/-- The labels of a frame that is applied at once. -/
def arrival (message : IdentifiedMessage) (calls : List ConversationTurnCommit) : List LiveLabel :=
  [⟨.receive message, [], none⟩, ⟨.apply, calls, none⟩]

/-- The first frame of a turn. -/
theorem run_first (h : message.identity.toConversationRequestIdentity.conforms = true)
    (hsize : message.size ≤ MAX_OPEN_TURN_BYTES) (hterminal : message.terminal = none) :
    Run LiveSteps (resting workspaceId none db)
      (arrival message [] ++ [⟨.accepted (some true), [], none⟩])
      (resting workspaceId (some ((OpenTurn.opened workspaceId message).withMessage message)) db) := by
  have hasked : LiveSteps ⟨⟨workspaceId, none, [message], none, []⟩, db⟩ ⟨.apply, [], none⟩
      ⟨⟨workspaceId, none, [], some message, []⟩, db⟩ := by
    refine ⟨?_, fun _ _ h => (by cases h)⟩
    show (LiveTurn.apply _).map _ = _
    simp [LiveTurn.apply, LiveTurn.busy, parseRequest, h, LiveSystem.inMemory]
  have haccepted : LiveSteps ⟨⟨workspaceId, none, [], some message, []⟩, db⟩
      ⟨.accepted (some true), [], none⟩
      (resting workspaceId (some ((OpenTurn.opened workspaceId message).withMessage message)) db) := by
    refine ⟨?_, fun _ _ h => (by cases h)⟩
    have hfits : ¬(OpenTurn.opened workspaceId message).bytesWith message > MAX_OPEN_TURN_BYTES := by
      rw [OpenTurn.bytesWith, OpenTurn.opened, JsMap.get_empty]
      simpa using hsize
    have hfresh : (OpenTurn.opened workspaceId message).isStale message = false := rfl
    show some (LiveSystem.inMemory _ (LiveTurn.applyTo ⟨workspaceId, none, [], none, []⟩
      (.opened workspaceId message) message)) = _
    rw [LiveTurn.applyTo, if_neg (by rw [hfresh]; exact Bool.false_ne_true), if_neg hfits, hterminal]
    rfl
  exact .cons ⟨rfl, fun _ _ h => (by cases h)⟩ (.cons hasked (.single haccepted))

/-- A step of a frame of an open turn. -/
theorem steps_apply {outcome : LiveTurn.Outcome LiveTurn}
    (h : LiveTurn.applyTo ⟨workspaceId, some turn, [], none, []⟩ turn message = outcome)
    (herror : outcome.error = none) :
    Run LiveSteps (resting workspaceId (some turn) db) (arrival message outcome.calls)
      ⟨outcome.state, db⟩ := by
  have hreceived : LiveSteps (resting workspaceId (some turn) db) ⟨.receive message, [], none⟩
      ⟨⟨workspaceId, some turn, [message], none, []⟩, db⟩ := ⟨rfl, nofun⟩
  refine .cons hreceived (.single ⟨?_, nofun⟩)
  rw [← herror, ← h]
  rfl

theorem run_stale (hstale : turn.isStale message = true) :
    Run LiveSteps (resting workspaceId (some turn) db) (arrival message [])
      (resting workspaceId (some turn) db) :=
  steps_apply (by rw [LiveTurn.applyTo, if_pos hstale]) rfl

theorem run_terminal (hstale : turn.isStale message = false)
    (hbytes : turn.bytesWith message ≤ MAX_OPEN_TURN_BYTES) {terminal : Terminal}
    (hterminal : message.terminal = some terminal) :
    Run LiveSteps (resting workspaceId (some turn) db)
      (arrival message [(turn.withMessage message).commit terminal])
      ⟨⟨workspaceId, none, [], none, [⟨turn.withMessage message, terminal, true, none⟩]⟩, db⟩ := by
  have houtcome : LiveTurn.applyTo ⟨workspaceId, some turn, [], none, []⟩ turn message =
      LiveTurn.commit ⟨workspaceId, some turn, [], none, []⟩ (turn.withMessage message) terminal
        true := by
    rw [LiveTurn.applyTo, if_neg (by rw [hstale]; exact Bool.false_ne_true),
      if_neg (Nat.not_lt.mpr hbytes), hterminal]
  exact steps_apply houtcome rfl

end Runs

namespace Finished

/-- A frame of the turn of an accepted request. -/
def message (event_id content : String) (revision sequence : Nat) (fact : Option ConversationFact) :
    IdentifiedMessage where
  message_id := event_id
  role := .assistant
  content := content
  occurred_at := "2026-01-01T00:00:00.000Z"
  metadata := []
  identity := { Legacy.identity "ffffffff-ffff-ffff-ffff-ffffffffffff" with
    event_id, revision, sequence, fact }

def draft : IdentifiedMessage := message "answer" "Dra" 1 0 none

def answer : IdentifiedMessage := message "answer" "Draft answer" 1 0 none

def terminal : IdentifiedMessage :=
  message "end" "" 1 1 (some (.turnTerminal .completed none))

/-- A character takes at most four bytes. -/
theorem size_le (message : IdentifiedMessage) : message.size ≤ 4 * message.toJson.chars.length := by
  rw [IdentifiedMessage.size, Json.stringify]
  exact length_utf8_le _

section

open Json

variable {content : String} {fact : Option ConversationFact} {n : Nat}

/-- What the identity and the message hold besides is the same. -/
theorem length_identity_le (event_id : List Char) (revision sequence : Nat)
    (hfact : (fieldsChars (fact.toList.map fun fact => ("fact", fact.toJson))).length ≤ n) :
    (message (.ofList event_id) content revision sequence fact).identity.json.chars.length ≤
      6 * event_id.length + (numChars sequence).length + (numChars revision).length + n + 3000 := by
  refine (length_obj_le _ (length_str_le _) (length_fields_le _ (length_str_le _)
    (length_fields_le _ (length_str_le _) (length_fields_le _ (length_str_le _)
    (length_fields_le _ (length_str_le _) (length_fields_le _ (length_str_le _)
    (length_fields_le _ (length_str_le _) (length_fields_le _ (length_str_le _)
    (length_fields_le _ (Nat.le_refl (num sequence).chars.length)
    (length_fields_le _ (Nat.le_refl (num revision).chars.length) hfact)))))))))).trans ?_
  simp only [List.length_cons, List.length_nil, chars]
  omega

theorem length_message_le (event_id content : List Char) (revision sequence : Nat)
    (hfact : (fieldsChars (fact.toList.map fun fact => ("fact", fact.toJson))).length ≤ n) :
    (message (.ofList event_id) (.ofList content) revision sequence fact).toJson.chars.length ≤
      12 * event_id.length + 6 * content.length + (numChars sequence).length +
        (numChars revision).length + n + 4000 := by
  refine (length_obj_le _ (length_str_le _) (length_fields_le _ (length_str_le _)
    (length_fields_le _ (length_str_le _) (length_fields_le _ (length_str_le _)
    (length_fields_le _ (Nat.le_refl 2) (length_fields_le _
      (length_identity_le event_id revision sequence hfact) (Nat.le_refl 1))))))).trans ?_
  simp only [List.length_cons, List.length_nil]
  omega

theorem length_resource_le (event_id content : List Char) (revision sequence seq : Nat)
    (hfact : (fieldsChars (fact.toList.map fun fact => ("fact", fact.toJson))).length ≤ n) :
    ({ (message (.ofList event_id) (.ofList content) revision sequence fact).committed with
       seq := seq } : MessageResource).toJson.chars.length ≤
      12 * event_id.length + 6 * content.length + (numChars sequence).length +
        (numChars revision).length + (numChars seq).length + n + 4000 := by
  refine (length_obj_le _ (Nat.le_refl (num seq).chars.length) (length_fields_le _ (length_str_le _)
    (length_fields_le _ (length_str_le _) (length_fields_le _ (length_str_le _)
    (length_fields_le _ (length_str_le _) (length_fields_le _ (Nat.le_refl 2) (length_fields_le _
      (length_identity_le event_id revision sequence hfact) (Nat.le_refl 1)))))))).trans ?_
  simp only [List.length_cons, List.length_nil, chars]
  omega

theorem length_terminal : (fieldsChars
    ((some (ConversationFact.turnTerminal .completed none)).toList.map fun fact =>
      ("fact", fact.toJson))).length ≤ 500 :=
  (length_fields_le _ (length_obj_le _ (length_str_le _)
    (length_fields_le _ (length_str_le _) (Nat.le_refl _))) (Nat.le_refl _)).trans
    (by decide +kernel)

theorem lengths : draft.toJson.chars.length ≤ 5000 ∧ answer.toJson.chars.length ≤ 5000 ∧
    terminal.toJson.chars.length ≤ 5000 := by
  refine ⟨?_, ?_, ?_⟩
  · exact (length_message_le _ _ 1 0 (Nat.le_refl _)).trans (by decide +kernel)
  · exact (length_message_le _ _ 1 0 (Nat.le_refl _)).trans (by decide +kernel)
  · refine (length_message_le _ _ 1 1 length_terminal).trans (by decide +kernel)

end

theorem sizes : draft.size ≤ 20000 ∧ answer.size ≤ 20000 ∧ terminal.size ≤ 20000 := by
  obtain ⟨hdraft, hanswer, hterminal⟩ := lengths
  have h₁ := size_le draft
  have h₂ := size_le answer
  have h₃ := size_le terminal
  omega

theorem conforms (message : IdentifiedMessage)
    (h : message.identity.toConversationRequestIdentity =
      (Legacy.identity "ffffffff-ffff-ffff-ffff-ffffffffffff").toConversationRequestIdentity) :
    message.identity.toConversationRequestIdentity.conforms = true := by
  rw [h]
  decide +kernel

/-- The commit that ends the turn of a frame. -/
def commit (first : IdentifiedMessage) : ConversationTurnCommit :=
  (((OpenTurn.opened "first" first).withMessage first).withMessage terminal).commit
    ⟨.completed, none, "2026-01-01T00:00:00.000Z"⟩

/-- A frame, its repetition with other content, and the terminal fact. -/
def labels (first second : IdentifiedMessage) : List LiveLabel :=
  arrival first [] ++ [⟨.accepted (some true), [], none⟩] ++
    (arrival second [] ++ arrival terminal [commit first])

/-- The commit was called for and waits for the store. -/
def pending (first : IdentifiedMessage) : LiveSystem :=
  ⟨⟨"first", none, [], none,
    [⟨((OpenTurn.opened "first" first).withMessage first).withMessage terminal,
      ⟨.completed, none, "2026-01-01T00:00:00.000Z"⟩, true, none⟩]⟩, Legacy.init⟩

theorem run {first second : IdentifiedMessage}
    (hfirst : first = draft ∨ first = answer) (hsecond : second = draft ∨ second = answer) :
    Run LiveSteps ⟨.idle "first", Legacy.init⟩ (labels first second) (pending first) := by
  obtain ⟨hdraft, hanswer, hend⟩ := sizes
  have hmax : 40000 ≤ MAX_OPEN_TURN_BYTES := by decide
  have hsmall : first.size ≤ 20000 := by
    rcases hfirst with rfl | rfl
    · exact hdraft
    · exact hanswer
  have hsize : first.size ≤ MAX_OPEN_TURN_BYTES := by omega
  have hopen : first.terminal = none := by
    rcases hfirst with rfl | rfl <;> rfl
  have hconforms : first.identity.toConversationRequestIdentity.conforms = true := by
    rcases hfirst with rfl | rfl <;> exact conforms _ rfl
  have hstale : ((OpenTurn.opened "first" first).withMessage first).isStale second = true := by
    rcases hfirst with rfl | rfl <;> rcases hsecond with rfl | rfl <;> decide +kernel
  have hfresh : ((OpenTurn.opened "first" first).withMessage first).isStale terminal = false := by
    rcases hfirst with rfl | rfl <;> decide +kernel
  have hbytes : ((OpenTurn.opened "first" first).withMessage first).bytesWith terminal ≤
      MAX_OPEN_TURN_BYTES := by
    have hsum : ((OpenTurn.opened "first" first).withMessage first).bytesWith terminal ≤
        0 + first.size + terminal.size :=
      (Nat.sub_le _ _).trans (Nat.add_le_add_right (Nat.sub_le _ _) _)
    omega
  exact (run_first hconforms hsize hopen).append
    ((run_stale hstale).append (run_terminal hfresh hbytes rfl))

theorem received_labels (first second : IdentifiedMessage) :
    received (labels first second) = [first, second, terminal] := rfl

theorem unclosed_labels (first second : IdentifiedMessage) : Unclosed (labels first second) := by
  intro label hlabel endedAt
  simp only [labels, arrival, List.cons_append, List.nil_append, List.mem_cons, List.not_mem_nil,
    or_false] at hlabel
  rcases hlabel with rfl | rfl | rfl | rfl | rfl | rfl | rfl <;> exact LiveEvent.noConfusion

theorem error_labels (first second : IdentifiedMessage) :
    ∀ label ∈ labels first second, label.error = none := by
  intro label hlabel
  simp only [labels, arrival, List.cons_append, List.nil_append, List.mem_cons, List.not_mem_nil,
    or_false] at hlabel
  rcases hlabel with rfl | rfl | rfl | rfl | rfl | rfl | rfl <;> rfl

/-- The messages of the commit. -/
theorem messages_labels :
    ((commitCalls (labels draft answer)).map fun call => call.messages.map (·.content)) =
      [["Dra", ""]] ∧
    ((commitCalls (labels answer draft)).map fun call => call.messages.map (·.content)) =
      [["Draft answer", ""]] := by
  decide +kernel

theorem finished : FinishedTurn [draft] terminal := by
  have hframes : ∀ message, message ∈ [draft] ++ [terminal] ↔ message = draft ∨ message = terminal := by
    simp
  refine ⟨fun message hmessage other hother => ?_, fun message other hmessage hother hevent => ?_,
    by simp [draft, message, IdentifiedMessage.terminal], rfl, fun message hmessage hevent => ?_⟩
  · rcases (hframes _).mp hmessage with rfl | rfl <;> rcases (hframes _).mp hother with rfl | rfl
    · exact fun _ _ => rfl
    · exact fun h => absurd h (by decide)
    · exact fun h => absurd h (by decide)
    · exact fun _ _ => rfl
  · rcases (hframes _).mp hmessage.1 with rfl | rfl <;>
      rcases (hframes _).mp hother.1 with rfl | rfl
    · exact absurd rfl hevent
    · decide
    · decide
    · exact absurd rfl hevent
  · rw [List.mem_singleton.mp hmessage] at hevent
    exact absurd hevent (by decide)

section

open Json

/-- What the store writes for the turn of the draft. -/
def write : RecordWrite where
  workspaceId := "first"
  recordKey := "ffffffff-ffff-ffff-ffff-ffffffffffff"
  request := some
    (Legacy.identity "ffffffff-ffff-ffff-ffff-ffffffffffff").toConversationRequestIdentity
  status := .turn .completed
  reason := none
  messages := [draft.committed, terminal.committed]
  startedAt := some "2026-01-01T00:00:00.000Z"
  endedAt := some "2026-01-01T00:00:00.000Z"

/-- Its document. -/
def document : Conversation :=
  newDocument "document" "owner" "first" (some "00000000-0000-0000-0000-000000000000") false

theorem length_document : (recordOf document write).document.toJson.chars.length ≤ 20000 := by
  refine (length_obj_le _ (length_str_le _) (length_fields_le _ (length_str_le _)
    (length_fields_le _ (length_obj_le _ (length_str_le _) (length_fields_le _ (length_str_le _)
      (length_fields_le _ (length_str_le _) (length_fields_le _ (length_str_le _)
      (length_fields_le _ (length_str_le _)
      (length_fields_le _ (length_str_le _) (Nat.le_refl 1)))))))
    (length_fields_le _ (length_str_le _) (length_fields_le _ (Nat.le_refl 4) (length_fields_le _
      (length_arr_le (length_resource_le _ _ 1 0 1 (Nat.le_refl _))
        (length_items_le (length_resource_le _ _ 1 1 2 length_terminal) (Nat.le_refl 1)))
    (length_fields_le _ (Nat.le_refl 2) (length_fields_le _ (Nat.le_refl 4)
    (length_fields_le _ (length_str_le _) (length_fields_le _ (length_str_le _)
      (Nat.le_refl 1))))))))))).trans ?_
  decide +kernel

open Transaction

theorem bytes_document : (recordOf document write).bytes ≤ 80000 := by
  have hbytes : (recordOf document write).bytes ≤
      4 * (recordOf document write).document.toJson.chars.length := by
    rw [bytes_recordOf, RecordDocument.byteLength, Json.stringify]
    exact length_utf8_le _
  have hlength := length_document
  omega

/-- The first record of the first workspace. -/
theorem writes {write : RecordWrite} (hworkspace : write.workspaceId = "first")
    (hmessages : write.messages.length ≤ 2) (hbytes : (recordOf document write).bytes ≤ 80000) :
    writeRecord "document" (some "00000000-0000-0000-0000-000000000000") write Legacy.init =
      .ok ((recordOf document write, true), ((Legacy.init.withDocument document).withCharge "first"
        (recordOf document write).bytes).withRecord document (recordOf document write)) := by
  have hfits : 0 + (recordOf document write).bytes ≤ 50 * 1024 * 1024 := by omega
  have hmax : 0 + write.messages.length ≤ 100000 := by omega
  have hlock : lockDocument "document" write.workspaceId
      (some "00000000-0000-0000-0000-000000000000") false Legacy.init =
        .ok (document, Legacy.init.withDocument document) := by
    rw [hworkspace]
    rfl
  have hstate : ((Legacy.init.withDocument document).chargeable write.workspaceId).get?
      write.workspaceId = some ⟨"first", false, 0, none, none⟩ := by
    rw [hworkspace]
    rfl
  have hcharge := chargeWorkspace_of_fits hstate rfl hfits
  rw [writeRecord_of_fits (by rw [hworkspace]; rfl) hlock rfl rfl hmax hfits hcharge rfl,
    hworkspace]

/-- The store writes the turn of the draft. -/
theorem step_commit : Legacy.init.step
    (.commitConversationTurn (fun _ => "document") (commit draft)) =
      ((Legacy.init.withDocument document).withCharge "first"
        (recordOf document write).bytes).withRecord document (recordOf document write) := by
  show committed (writeRecord "document" (some "00000000-0000-0000-0000-000000000000") write)
    Legacy.init = _
  rw [committed, writes rfl (by decide) bytes_document]

end

end Finished

/-- Two frames have one event and one revision, and other content: the first one
to arrive is the one that is committed. -/
theorem liveTurns_ambiguous :
    ∃ (first second last : IdentifiedMessage) (trace trace' : List LiveLabel)
      (system system' : LiveSystem),
      Run LiveSteps ⟨.idle "first", Legacy.init⟩ trace system ∧
      Run LiveSteps ⟨.idle "first", Legacy.init⟩ trace' system' ∧
      received trace = [first, second, last] ∧ received trace' = [second, first, last] ∧
      Unclosed trace ∧ Unclosed trace' ∧
      (∀ label ∈ trace ++ trace', label.error = none) ∧
      first.terminal = none ∧ second.terminal = none ∧ last.terminal.isSome = true ∧
      first.identity.event_id ≠ last.identity.event_id ∧
      second.identity.event_id = first.identity.event_id ∧
      first.identity.sequence ≠ last.identity.sequence ∧
      second.identity.sequence = first.identity.sequence ∧
      (commitCalls trace).map (·.messages) ≠ (commitCalls trace').map (·.messages) := by
  have hrun := Finished.run (.inl rfl) (.inr rfl)
  have hrun' := Finished.run (.inr rfl) (.inl rfl)
  refine ⟨Finished.draft, Finished.answer, Finished.terminal, _, _, _, _, hrun, hrun',
    Finished.received_labels _ _, Finished.received_labels _ _, Finished.unclosed_labels _ _,
    Finished.unclosed_labels _ _, ?_, rfl, rfl,
    rfl, by decide, rfl, by decide, rfl, fun h => ?_⟩
  · intro label hlabel
    rcases List.mem_append.mp hlabel with hlabel | hlabel
    · exact Finished.error_labels _ _ label hlabel
    · exact Finished.error_labels _ _ label hlabel
  · have hcontents := congrArg (List.map (List.map (·.content))) h
    rw [List.map_map, List.map_map] at hcontents
    have hleft := Finished.messages_labels.1
    rw [show ((commitCalls (Finished.labels Finished.draft Finished.answer)).map fun call =>
      call.messages.map (·.content)) = _ from hcontents] at hleft
    exact absurd (hleft.symm.trans Finished.messages_labels.2) (by decide)

/-- A draft arrives twice, and the terminal fact after it. The store runs the
commit once for the call and once more for a call whose answer was lost. -/
theorem liveTurns_finished_draft :
    ∃ messages system, Final ([Finished.draft] ++ [Finished.terminal]) messages ∧
      Run LiveSteps ⟨.idle "first", Legacy.init⟩ (Finished.labels Finished.draft Finished.draft ++
        [⟨.store 0 fun _ => "document", [], none⟩,
          ⟨.other (.commitConversationTurn (fun _ => "other") (Finished.commit Finished.draft)), [],
            none⟩]) system ∧
      (∀ call ∈ commitCalls (Finished.labels Finished.draft Finished.draft),
        call.messages = messages.map (·.committed)) ∧
      (commitCalls (Finished.labels Finished.draft Finished.draft)).length = 1 ∧
      (system.db.turnRecords "owner" "00000000-0000-0000-0000-000000000000"
        "ffffffff-ffff-ffff-ffff-ffffffffffff").length = 1 := by
  obtain ⟨hfinished, honce⟩ := @liveTurns_finished "first"
  obtain ⟨messages, hfinal, hruns⟩ := hfinished Finished.finished
  have hrun := Finished.run (.inl rfl) (.inl rfl)
  have hsame : ∀ message,
      message ∈ [Finished.draft, Finished.draft] ↔ message ∈ [Finished.draft] := by
    simp
  obtain ⟨hcalls, -, hlength⟩ := hruns hsame hrun (Finished.received_labels _ _)
    (Finished.unclosed_labels _ _) (Finished.error_labels _ _)
  have hstore : ∃ live, LiveSteps (Finished.pending Finished.draft)
      ⟨.store 0 fun _ => "document", [], none⟩ ⟨live, Legacy.init.step
        (.commitConversationTurn (fun _ => "document") (Finished.commit Finished.draft))⟩ :=
    ⟨_, rfl, fun _ _ h => (by cases h)⟩
  obtain ⟨live, hstore⟩ := hstore
  have hother : ∀ db operation, (∀ randomUUID workspaceId,
      operation ≠ .convertLegacyConversations randomUUID workspaceId) →
      LiveSteps ⟨live, db⟩ ⟨.other operation, [], none⟩ ⟨live, db.step operation⟩ :=
    fun _ _ hoperation =>
      ⟨rfl, fun _ _ h => absurd (LiveEvent.other.inj h) (hoperation _ _)⟩
  have hagain := hother (Legacy.init.step
    (.commitConversationTurn (fun _ => "document") (Finished.commit Finished.draft)))
    (.commitConversationTurn (fun _ => "other") (Finished.commit Finished.draft)) (by simp)
  have hwritten : 1 ≤ (((Legacy.init.step (.commitConversationTurn (fun _ => "document")
      (Finished.commit Finished.draft))).step (.commitConversationTurn (fun _ => "other")
        (Finished.commit Finished.draft))).turnRecords "owner"
          "00000000-0000-0000-0000-000000000000"
          "ffffffff-ffff-ffff-ffff-ffffffffffff").length := by
    rw [Finished.step_commit]
    decide +kernel
  generalize (Legacy.init.step (.commitConversationTurn (fun _ => "document")
    (Finished.commit Finished.draft))).step (.commitConversationTurn (fun _ => "other")
      (Finished.commit Finished.draft)) = db at hagain hwritten
  have hstored := hrun.append (.cons hstore (.single hagain))
  exact ⟨messages, ⟨live, db⟩, hfinal, hstored, hcalls, hlength rfl rfl,
    Nat.le_antisymm (honce Legacy.init_fresh hstored _ _ _) hwritten⟩

end PocketCoder.Conversations
