import PocketCoder.Executions.Operations

/-!
What each transaction does to the slots: `transact_refines`, one case for
every operation. A transaction under `withOwner` reads the record of its
execution and writes at most that record back, so its case is the move that
the written record makes.
-/

namespace PocketCoder.Executions

open PocketCoder.Foundation PocketCoder.Workspaces
open PocketCoder.Foundation.Transaction

/-! ### Reading and writing a record -/

theorem sameExecution_eq_some {stored : Option ExecutionRecord}
    {execution : WorkloadExecutionReference} {record : ExecutionRecord} :
    sameExecution stored execution = some record ↔
      stored = some record ∧ record.acceptance.execution = execution := by
  rw [sameExecution, Option.filter_eq_some_iff, decide_eq_true_eq]

variable {db db₁ db' : Database} {workspace : WorkspaceRow} {execution : WorkloadExecutionReference}
  {record next : ExecutionRecord} {slot : Slot}

theorem record_request {row : ConversationRequestRow} (hrow : row ∈ db.conversationRequests.rows) :
    db.record (.request row.key) = row.execution := by
  rw [Database.record, Table.get?_of_mem hrow]
  rfl

theorem readExecution_eq_some (hrow : db.workspaces.get? execution.workspaceId = some workspace)
    (h : readExecution db workspace execution = some record) :
    record.acceptance.execution = execution ∧ ∃ slot, db.record slot = some record := by
  unfold readExecution at h
  cases howner : execution.owner with
  | process =>
      rw [howner] at h
      obtain ⟨hstored, hexecution⟩ := sameExecution_eq_some.mp h
      refine ⟨hexecution, .process execution.workspaceId, ?_⟩
      rw [Database.record, hrow]
      exact hstored
  | conversationRequest =>
      rw [howner] at h
      obtain ⟨row, hmem, hsame⟩ := List.exists_of_findSome?_eq_some h
      obtain ⟨hstored, hexecution⟩ := sameExecution_eq_some.mp hsame
      refine ⟨hexecution, .request row.key, ?_⟩
      rw [record_request (List.mem_of_mem_filter hmem), hstored]

/-- Where no record is read, there is none for the execution in any slot. -/
theorem readExecution_eq_none (howned : db.Owned)
    (hrow : db.workspaces.get? execution.workspaceId = some workspace)
    (h : readExecution db workspace execution = none) (hrecord : db.record slot = some record) :
    record.acceptance.execution ≠ execution := by
  intro hexecution
  have howns := howned.owns hrecord
  obtain ⟨row, hhost, hprincipal, -⟩ := howned.hosted hrecord
  rw [hexecution, hrow, Option.some.injEq] at hhost
  have hworkspace : workspace.principalId = record.acceptance.callerPrincipalId := by
    rw [← hprincipal, ← hhost]
  unfold readExecution at h
  cases slot with
  | process id =>
      obtain ⟨howner, hid⟩ := howns
      rw [hexecution] at howner hid
      rw [howner] at h
      rw [Database.record, ← hid, hrow, Option.bind_some] at hrecord
      have hsame := sameExecution_eq_some.mpr ⟨hrecord, hexecution⟩
      exact absurd (hsame.symm.trans h) (by simp)
  | request key =>
      obtain ⟨howner, hkey, hrequest⟩ := howns
      rw [hexecution] at howner hrequest
      rw [howner] at h
      obtain ⟨row, hget, hstored⟩ := Option.bind_eq_some_iff.mp hrecord
      obtain ⟨hmem, rfl⟩ := Table.get?_eq_some.mp hget
      have hfilter := List.findSome?_eq_none_iff.mp h row (List.mem_filter.mpr ⟨hmem, by
        rw [Bool.and_eq_true, decide_eq_true_eq, decide_eq_true_eq]
        exact ⟨hkey.symm.trans hworkspace.symm, hrequest.symm⟩⟩)
      rw [sameExecution_eq_some.mpr ⟨hstored, hexecution⟩] at hfilter
      exact absurd hfilter (by simp)

theorem SameSlots.puts (hsame : SameSlots db db₁) (h : Puts db₁ slot next db') :
    Puts db slot next db' :=
  ⟨by rw [h.record, hsame.record], by rw [h.others, hsame.others]⟩

/-- A record is written back to the slot it was read from. -/
theorem writeExecution_puts (howned : db.Owned) (hrecord : db.record slot = some record)
    (hacceptance : next.acceptance = record.acceptance) (hsame : SameSlots db db₁) {u : Unit}
    (h : writeExecution next db₁ = .ok (u, db')) : Puts db slot next db' := by
  refine hsame.puts ?_
  have howns := howned.owns hrecord
  rw [← hsame.record] at hrecord
  rw [← hacceptance] at howns
  unfold writeExecution at h
  cases howner : next.acceptance.execution.owner with
  | process =>
      simp only [howner, Except.ok.injEq, Prod.mk.injEq] at h
      rw [← h.2]
      cases slot with
      | request key => rw [howns.1] at howner; contradiction
      | process id =>
          obtain ⟨-, rfl⟩ := howns
          obtain ⟨row, hrow, -⟩ := Option.bind_eq_some_iff.mp hrecord
          exact puts_process hrow next
  | conversationRequest =>
      simp only [howner] at h
      split at h
      · contradiction
      · rename_i row hfind
        simp only [Except.ok.injEq, Prod.mk.injEq] at h
        rw [← h.2]
        have hmem : row ∈ db₁.conversationRequests.rows :=
          List.mem_of_mem_filter (List.mem_of_find?_eq_some hfind)
        have hfound := List.find?_some hfind
        obtain ⟨record', hsame'⟩ := Option.isSome_iff_exists.mp hfound
        obtain ⟨hstored, hexecution⟩ := sameExecution_eq_some.mp hsame'
        have hslot : .request row.key = slot := by
          rw [hsame.record] at hrecord
          refine howned.unique ?_ hrecord (hexecution.trans (by rw [hacceptance]))
          rw [← hsame.record, record_request hmem, hstored]
        rw [← hslot]
        exact puts_request (Table.get?_of_mem hmem) next

theorem withOwner_eq_ok {α : Type} {task : WorkspaceRow → ExecutionRecord → Transaction α} {a : α}
    (h : withOwner execution task db = .ok (a, db')) :
    ∃ workspace record, db.workspaces.get? execution.workspaceId = some workspace ∧
      readExecution db workspace execution = some record ∧
      task workspace record db = .ok (a, db') := by
  unfold withOwner at h
  rw [get_bind] at h
  cases hrow : db.workspaces.get? execution.workspaceId with
  | none =>
      rw [hrow] at h
      exact (throw_eq_ok.mp h).elim
  | some workspace =>
      rw [hrow] at h
      dsimp only at h
      cases hrecord : readExecution db workspace execution with
      | none =>
          rw [hrecord] at h
          exact (throw_eq_ok.mp h).elim
      | some record =>
          rw [hrecord] at h
          exact ⟨workspace, record, rfl, hrecord, h⟩

/-! ### Inputs -/

theorem retainInputs_same {now : Nat} {objects : List InputObjectReference} {u : Unit}
    (h : retainInputs now objects db = .ok (u, db')) : SameSlots db db' := by
  induction objects generalizing db with
  | nil =>
      obtain ⟨-, rfl⟩ := pure_eq_ok.mp h
      exact .refl _
  | cons object objects ih =>
      rw [retainInputs, get_bind] at h
      cases hstored : db.inputObjects.get? (object.workspaceId, object.fileId) with
      | none =>
          rw [hstored] at h
          exact (throw_eq_ok.mp h).elim
      | some stored =>
          rw [hstored] at h
          dsimp only at h
          rw [set_bind] at h
          have hrest := ih h
          exact ⟨hrest.workspaces, hrest.conversationRequests⟩

theorem finalizeInputManifest_same {id : InputManifestId} {now : Nat} {u : Unit}
    (h : finalizeInputManifest id now db = .ok (u, db')) : SameSlots db db' := by
  rw [finalizeInputManifest, get_bind] at h
  cases hrow : db.inputManifests.get? id with
  | none =>
      rw [hrow] at h
      obtain ⟨-, rfl⟩ := pure_eq_ok.mp h
      exact .refl _
  | some row =>
      rw [hrow] at h
      dsimp only at h
      split_ifs at h
      · obtain ⟨-, rfl⟩ := pure_eq_ok.mp h
        exact .refl _
      · obtain ⟨u, db₁, hretain, h⟩ := bind_eq_ok.mp h
        rw [modify_eq_ok.mp h]
        exact (retainInputs_same hretain).trans ⟨rfl, rfl⟩

theorem pinExecutionInputs_same {input : WorkloadAcceptance} {now : Nat} {u : Unit}
    (h : pinExecutionInputs input now db = .ok (u, db')) : SameSlots db db' := by
  rw [pinExecutionInputs, get_bind] at h
  obtain ⟨_, -, h⟩ := check_bind_eq_ok.mp h
  cases hmanifest : db.inputManifests.get? (executionInputManifestId input) with
  | none =>
      rw [hmanifest] at h
      rw [set_eq_ok.mp h]
      exact ⟨rfl, rfl⟩
  | some manifest =>
      rw [hmanifest] at h
      obtain ⟨-, rfl⟩ := check_eq_ok.mp h
      exact .refl _

/-! ### Dispatch -/

theorem reconcile_same {result : Option Claim} (h : reconcile execution db = .ok (result, db')) :
    ∃ workspace record, db.workspaces.get? execution.workspaceId = some workspace ∧
      readExecution db workspace execution = some record ∧
      result = reconcileExecution workspace record ∧ db' = db := by
  obtain ⟨workspace, record, hrow, hread, h⟩ := withOwner_eq_ok h
  obtain ⟨hresult, rfl⟩ := pure_eq_ok.mp h
  exact ⟨workspace, record, hrow, hread, hresult, rfl⟩

/-- A claimed record is not changed by another claim. -/
theorem claimedRecord_of_claimed (now : Nat)
    (h : record.dispatchClaimedAt.isSome = true) : claimedRecord record now = record := by
  obtain ⟨time, htime⟩ := Option.isSome_iff_exists.mp h
  unfold claimedRecord
  rw [htime, Option.some_or, ← htime, Option.isNone_eq_false_iff.mpr h]
  rfl

/-- A claim of an open execution that passes its checks. -/
theorem claim_of_revalidated {now : Nat}
    (hworkspace : db.workspaces.get? execution.workspaceId = some workspace)
    (hread : readExecution db workspace execution = some record) (hcancel : record.cancel = none)
    (hopen : executionSettled record = false)
    (hvalid : revalidateExecution db workspace record now = .ok ()) :
    claim execution now db =
      (writeExecution (claimedRecord record now) >>= fun _ =>
        return some ⟨record.dispatchClaimedAt.isNone, claimedRecord record now⟩) db := by
  rw [claim, withOwner, Transaction.get_bind, hworkspace]
  dsimp only
  rw [hread]
  dsimp only
  rw [if_neg (by simp [hcancel]), if_neg (by simp [hopen]), Transaction.get_bind, hvalid]

/-- What a claim does with the record it reads. -/
theorem claim_eq_ok {now : Nat} {result : Option Claim}
    (h : claim execution now db = .ok (result, db')) :
    ∃ workspace record, db.workspaces.get? execution.workspaceId = some workspace ∧
      readExecution db workspace execution = some record ∧
      ((record.cancel.isSome = true ∧ result = reconcileExecution workspace record ∧ db' = db) ∨
        (record.cancel = none ∧ executionSettled record = true ∧ result = none ∧ db' = db) ∨
        (record.cancel = none ∧ executionSettled record = false ∧ result = none ∧
          writeExecution { record with
            phase := .lost, settledAt := some (toISOString now), outcome := .null } db =
              .ok ((), db')) ∨
        (record.cancel = none ∧ executionSettled record = false ∧
          revalidateExecution db workspace record now = .ok () ∧
          result = some ⟨record.dispatchClaimedAt.isNone, claimedRecord record now⟩ ∧
          writeExecution (claimedRecord record now) db = .ok ((), db'))) := by
  obtain ⟨workspace, record, hrow, hread, h⟩ := withOwner_eq_ok h
  refine ⟨workspace, record, hrow, hread, ?_⟩
  split_ifs at h with hcancel hsettled
  · obtain ⟨hresult, rfl⟩ := pure_eq_ok.mp h
    exact .inl ⟨hcancel, hresult, rfl⟩
  · obtain ⟨hresult, rfl⟩ := pure_eq_ok.mp h
    exact .inr (.inl ⟨by simpa using hcancel, hsettled, hresult, rfl⟩)
  · have hnone : record.cancel = none := by simpa using hcancel
    have hopen : executionSettled record = false := by simpa using hsettled
    rw [get_bind] at h
    cases hvalid : revalidateExecution db workspace record now with
    | ok u =>
        rw [hvalid] at h
        dsimp only at h
        obtain ⟨u, db₁, hwrite, h⟩ := bind_eq_ok.mp h
        obtain ⟨hresult, rfl⟩ := pure_eq_ok.mp h
        exact .inr (.inr (.inr ⟨hnone, hopen, rfl, hresult, hwrite⟩))
    | error failure =>
        rw [hvalid] at h
        -- a failed check loses the execution; any other error fails the transaction
        cases failure with
        | api code message =>
            dsimp only at h
            obtain ⟨u, db₁, hwrite, h⟩ := bind_eq_ok.mp h
            obtain ⟨hresult, rfl⟩ := pure_eq_ok.mp h
            exact .inr (.inr (.inl ⟨hnone, hopen, hresult, hwrite⟩))
        | error message => exact (throw_eq_ok.mp h).elim
        | zod => exact (throw_eq_ok.mp h).elim

/-- A transaction that writes one move of the record it read. -/
theorem rewrites_write (howned : db.Owned)
    (hrow : db.workspaces.get? execution.workspaceId = some workspace)
    (hread : readExecution db workspace execution = some record) (hmove : Moves record next)
    (hsame : SameSlots db db₁) {u : Unit} (h : writeExecution next db₁ = .ok (u, db')) :
    Rewrites db db' := by
  obtain ⟨-, slot, hrecord⟩ := readExecution_eq_some hrow hread
  exact rewrites_move hrecord hmove
    (writeExecution_puts howned hrecord (acceptance_of_moves (.inr hmove)) hsame h)

theorem claim_rewrites (howned : db.Owned) {now : Nat} {result : Option Claim}
    (h : claim execution now db = .ok (result, db')) : Rewrites db db' := by
  obtain ⟨workspace, record, hrow, hread, hcase⟩ := claim_eq_ok h
  rcases hcase with ⟨-, -, rfl⟩ | ⟨-, -, -, rfl⟩ | ⟨-, hopen, -, hwrite⟩ |
    ⟨hnone, hopen, -, -, hwrite⟩
  · exact (SameSlots.refl _).rewrites
  · exact (SameSlots.refl _).rewrites
  · exact rewrites_write howned hrow hread (.lose _ _ hopen) (.refl db) hwrite
  · exact rewrites_write howned hrow hread (.claim now hnone hopen) (.refl db) hwrite

theorem cancel_rewrites (howned : db.Owned) {input : WorkloadCancel} {now : Nat}
    {result : ExecutionRecord} (h : cancel input now db = .ok (result, db')) : Rewrites db db' := by
  obtain ⟨-, h⟩ := require_bind_eq_ok.mp h
  obtain ⟨-, h⟩ := require_bind_eq_ok.mp h
  obtain ⟨workspace, record, hrow, hread, h⟩ := withOwner_eq_ok h
  cases hcancel : record.cancel with
  | some intent =>
      rw [hcancel] at h
      obtain ⟨-, h⟩ := require_bind_eq_ok.mp h
      obtain ⟨-, rfl⟩ := pure_eq_ok.mp h
      exact (SameSlots.refl _).rewrites
  | none =>
      rw [hcancel] at h
      dsimp only at h
      split_ifs at h with hsettled hclaimed
      · obtain ⟨-, rfl⟩ := pure_eq_ok.mp h
        exact (SameSlots.refl _).rewrites
      · obtain ⟨_, db₁, hwrite, h⟩ := bind_eq_ok.mp h
        obtain ⟨-, rfl⟩ := pure_eq_ok.mp h
        exact rewrites_write howned hrow hread (.intend _ hcancel (by simpa using hsettled) hclaimed)
          (.refl db) hwrite
      · obtain ⟨_, db₁, hwrite, h⟩ := bind_eq_ok.mp h
        obtain ⟨_, db₂, hfinalize, h⟩ := bind_eq_ok.mp h
        obtain ⟨-, rfl⟩ := pure_eq_ok.mp h
        have hmove : Moves record (canceledRecord record input.cancelId now) :=
          .cancel _ now hcancel (by simpa using hsettled) (by simpa using hclaimed)
        obtain ⟨-, slot, hrecord⟩ := readExecution_eq_some hrow hread
        have hputs := writeExecution_puts howned hrecord (acceptance_of_moves (.inr hmove))
          (.refl db) hwrite
        have hsame := finalizeInputManifest_same hfinalize
        exact rewrites_move hrecord hmove
          ⟨hsame.record.trans hputs.record, hsame.others.trans hputs.others⟩

theorem observe_rewrites (howned : db.Owned) {fingerprint : String} {phase : ExecutionPhase}
    {epoch now : Nat} {outcome : JsonValue} {result : Bool}
    (h : observe execution fingerprint phase epoch now outcome db = .ok (result, db')) :
    Rewrites db db' := by
  obtain ⟨workspace, record, hrow, hread, h⟩ := withOwner_eq_ok h
  split_ifs at h with hguard hsettled hreported
  · obtain ⟨-, rfl⟩ := pure_eq_ok.mp h
    exact (SameSlots.refl _).rewrites
  · obtain ⟨-, rfl⟩ := pure_eq_ok.mp h
    exact (SameSlots.refl _).rewrites
  · obtain ⟨-, rfl⟩ := pure_eq_ok.mp h
    exact (SameSlots.refl _).rewrites
  · obtain ⟨-, h⟩ := require_bind_eq_ok.mp h
    obtain ⟨_, db₁, hwrite, h⟩ := bind_eq_ok.mp h
    obtain ⟨-, rfl⟩ := pure_eq_ok.mp h
    simp only [Bool.or_eq_true, not_or, Bool.not_eq_true, Option.isNone_eq_false_iff] at hguard
    exact rewrites_write howned hrow hread
      (.observe phase now outcome (by simpa using hsettled) hguard.1.1.1) (.refl db) hwrite

theorem acknowledge_rewrites (howned : db.Owned) {fingerprint : String} {now : Nat} {u : Unit}
    (h : acknowledge execution fingerprint now db = .ok (u, db')) : Rewrites db db' := by
  obtain ⟨workspace, record, hrow, hread, h⟩ := withOwner_eq_ok h
  obtain ⟨hguard, h⟩ := require_bind_eq_ok.mp h
  rw [Bool.and_eq_true] at hguard
  exact rewrites_write howned hrow hread (.acknowledge now hguard.2) (.refl db) h

theorem finalize_rewrites (howned : db.Owned) {now : Nat} {u : Unit}
    (h : finalize execution now db = .ok (u, db')) : Rewrites db db' := by
  obtain ⟨workspace, record, hrow, hread, h⟩ := withOwner_eq_ok h
  obtain ⟨hguard, h⟩ := require_bind_eq_ok.mp h
  obtain ⟨_, db₁, hfinalize, h⟩ := bind_eq_ok.mp h
  simp only [Bool.and_eq_true, decide_eq_true_eq, Bool.not_eq_true', executionSettled] at hguard
  obtain ⟨⟨⟨hsettled, hunknown⟩, hlost⟩, hack⟩ := hguard
  have hphase : record.phase = .terminal ∨ record.phase = .canceled := by
    revert hsettled hunknown hlost
    cases record.phase <;> simp [ExecutionPhase.settled]
  exact rewrites_write howned hrow hread (.finalize now hphase hack)
    (finalizeInputManifest_same hfinalize) h

/-! ### Acceptance -/

theorem validateExecution_hosted {input : WorkloadAcceptance} {now : Nat}
    {identity : Option ConversationRequestIdentity}
    (hrow : db.workspaces.get? input.execution.workspaceId = some workspace)
    (h : validateExecution workspace input now identity = .ok ()) : Hosted db input := by
  obtain ⟨runtime, _, _, hruntime, -⟩ := validateExecution_registered h
  obtain ⟨_, hprincipal, -⟩ := Except.bind_eq_ok.mp h
  refine ⟨workspace, hrow, ?_, ?_⟩
  · exact of_decide_eq_true (require_eq_ok.mp hprincipal)
  · rw [hruntime]
    rfl

/-- The identity of an accepted request names the request. -/
theorem validateConversationExecution_request {input : WorkloadAcceptance}
    {identity : Option ConversationRequestIdentity} {parallel : Bool}
    {parsed : ConversationRequestIdentity}
    (h : validateConversationExecution db input identity parallel = .ok parsed) :
    parsed.request_id = input.execution.requestId := by
  unfold validateConversationExecution at h
  cases identity with
  | none => exact nomatch h
  | some identity =>
      obtain ⟨_, -, h⟩ := Except.bind_eq_ok.mp h
      obtain ⟨_, hrequest, h⟩ := Except.bind_eq_ok.mp h
      obtain ⟨_, -, h⟩ := Except.bind_eq_ok.mp h
      obtain rfl : identity = parsed := Except.ok.inj h
      exact of_decide_eq_true (require_eq_ok.mp hrequest)

theorem puts_insert {row : ConversationRequestRow} {key : String × String × String}
    (hrow : row.key = key) (hnone : db.conversationRequests.get? key = none)
    (hrecord : row.execution = some record) :
    Puts db (.request key) record
      { db with conversationRequests := db.conversationRequests.insert row } := by
  refine ⟨?_, rfl⟩
  subst hrow
  funext slot
  cases slot with
  | process id => rfl
  | request key =>
      rw [Database.record, Table.get?_insert, Function.update_apply]
      by_cases hkey : key = row.key
      · rw [if_pos hkey.symm, if_pos (congrArg Slot.request hkey), hkey, hnone]
        exact hrecord
      · rw [if_neg fun heq => hkey heq.symm, if_neg fun heq => hkey (Slot.request.inj heq),
          Option.or_none]
        rfl

theorem insertConversationExecution_puts {identity : ConversationRequestIdentity} {u : Unit}
    (h : insertConversationExecution record identity db = .ok (u, db')) :
    db.record (.request (record.acceptance.callerPrincipalId, identity.conversation_id,
        identity.request_id)) = none ∧
      Puts db (.request (record.acceptance.callerPrincipalId, identity.conversation_id,
        identity.request_id)) record db' := by
  rw [insertConversationExecution, get_bind] at h
  cases hprevious : db.conversationRequests.get? (record.acceptance.callerPrincipalId,
      identity.conversation_id, identity.request_id) with
  | none =>
      rw [hprevious] at h
      rw [set_eq_ok.mp h]
      exact ⟨by rw [Database.record, hprevious]; rfl, puts_insert rfl hprevious rfl⟩
  | some previous =>
      rw [hprevious] at h
      obtain ⟨hguard, h⟩ := require_bind_eq_ok.mp h
      rw [Bool.and_eq_true, Option.isNone_iff_eq_none] at hguard
      rw [set_eq_ok.mp h]
      exact ⟨by rw [Database.record, hprevious]; exact hguard.2, puts_request hprevious record⟩

/-- What the acceptance of a conversation request checks, and where it puts
the record. -/
theorem insertExecution_request {input : WorkloadAcceptance} {now : Nat}
    {identity : Option ConversationRequestIdentity} {result : AcceptResult}
    (howner : input.execution.owner = .conversationRequest)
    (h : insertExecution workspace input now identity db = .ok (result, db')) :
    ∃ capabilities parsed, operationAdapterCapabilities workspace input = .ok capabilities ∧
      validateConversationExecution db input identity
        (PARALLEL_CONVERSATION_CAPABILITIES.all capabilities.contains) = .ok parsed ∧
      db.record (.request (input.callerPrincipalId, parsed.conversation_id, parsed.request_id)) =
        none ∧
      Puts db (.request (input.callerPrincipalId, parsed.conversation_id, parsed.request_id))
        (acceptedRecord input (some parsed) now) db' := by
  rw [insertExecution, get_bind, howner] at h
  obtain ⟨capabilities, hcapabilities, h⟩ := check_bind_eq_ok.mp h
  obtain ⟨parsed, hparsed, h⟩ := check_bind_eq_ok.mp h
  obtain ⟨_, db₁, hpin, h⟩ := bind_eq_ok.mp h
  obtain ⟨_, db₂, hinsert, h⟩ := bind_eq_ok.mp h
  obtain ⟨-, rfl⟩ := pure_eq_ok.mp h
  have hsame := pinExecutionInputs_same hpin
  obtain ⟨hnone, hputs⟩ := insertConversationExecution_puts hinsert
  rw [hsame.record] at hnone
  exact ⟨capabilities, parsed, hcapabilities, hparsed, hnone, hsame.puts hputs⟩

theorem insertExecution_process {input : WorkloadAcceptance} {now : Nat}
    {identity : Option ConversationRequestIdentity} {result : AcceptResult}
    (howner : input.execution.owner = .process)
    (hrow : db.workspaces.get? input.execution.workspaceId = some workspace)
    (h : insertExecution workspace input now identity db = .ok (result, db')) :
    db.record (.process workspace.id) = none ∧
      Puts db (.process workspace.id) (acceptedRecord input identity now) db' := by
  rw [insertExecution, get_bind, howner] at h
  obtain ⟨hguard, h⟩ := require_bind_eq_ok.mp h
  obtain ⟨_, db₁, hpin, h⟩ := bind_eq_ok.mp h
  rw [modify_bind] at h
  obtain ⟨-, rfl⟩ := pure_eq_ok.mp h
  have hsame := pinExecutionInputs_same hpin
  have hid := Table.key_of_get? hrow
  have hrow₁ : db₁.workspaces.get? workspace.id = some workspace := by
    rw [hsame.workspaces, hid, hrow]
  simp only [Bool.and_eq_true, Option.isNone_iff_eq_none] at hguard
  refine ⟨?_, hsame.puts (puts_process hrow₁ (acceptedRecord input identity now))⟩
  rw [Database.record, hid, hrow]
  exact hguard.1.1

theorem insertExecution_refines (howned : db.Owned) {input : WorkloadAcceptance} {now : Nat}
    {identity : Option ConversationRequestIdentity} {result : AcceptResult}
    (hrow : db.workspaces.get? input.execution.workspaceId = some workspace)
    (hread : readExecution db workspace input.execution = none) (hosted : Hosted db input)
    (h : insertExecution workspace input now identity db = .ok (result, db')) : Refines db db' := by
  have hnew : ∀ slot' record', db.record slot' = some record' →
      record'.acceptance.execution ≠ input.execution :=
    fun _ _ hrecord => readExecution_eq_none howned hrow hread hrecord
  cases howner : input.execution.owner with
  | process =>
      obtain ⟨hnone, hputs⟩ := insertExecution_process howner hrow h
      refine refines_new hnone ?_ hputs
      exact ⟨input, identity, now, rfl, ⟨howner, (Table.key_of_get? hrow).symm⟩, hosted, hnew⟩
  | conversationRequest =>
      obtain ⟨_, parsed, -, hparsed, hnone, hputs⟩ := insertExecution_request howner h
      refine refines_new hnone ?_ hputs
      exact ⟨input, some parsed, now, rfl,
        ⟨howner, rfl, (validateConversationExecution_request hparsed).symm⟩, hosted, hnew⟩

/-- An acceptance replays the record it reads, or inserts a new one. -/
theorem accept_eq_ok {input : WorkloadAcceptance} {now : Nat}
    {identity : Option ConversationRequestIdentity} {result : AcceptResult}
    (h : accept input now identity db = .ok (result, db')) :
    ∃ workspace, db.workspaces.get? input.execution.workspaceId = some workspace ∧
      ((∃ previous, readExecution db workspace input.execution = some previous ∧
          validateExecutionReplay previous input identity = .ok () ∧
          result = .replayed previous ∧ db' = db) ∨
        (readExecution db workspace input.execution = none ∧
          validateExecution workspace input now identity = .ok () ∧
          insertExecution workspace input now identity db = .ok (result, db'))) := by
  obtain ⟨-, h⟩ := require_bind_eq_ok.mp h
  rw [get_bind] at h
  cases hrow : db.workspaces.get? input.execution.workspaceId with
  | none =>
      rw [hrow] at h
      exact (throw_eq_ok.mp h).elim
  | some workspace =>
      rw [hrow] at h
      dsimp only at h
      refine ⟨workspace, rfl, ?_⟩
      cases hread : readExecution db workspace input.execution with
      | some previous =>
          rw [hread] at h
          obtain ⟨_, hreplay, h⟩ := check_bind_eq_ok.mp h
          obtain ⟨hresult, rfl⟩ := pure_eq_ok.mp h
          exact .inl ⟨previous, rfl, hreplay, hresult, rfl⟩
      | none =>
          rw [hread] at h
          obtain ⟨_, -, h⟩ := check_bind_eq_ok.mp h
          obtain ⟨_, hvalid, h⟩ := check_bind_eq_ok.mp h
          exact .inr ⟨rfl, hvalid, h⟩

theorem accept_refines (howned : db.Owned) {input : WorkloadAcceptance} {now : Nat}
    {identity : Option ConversationRequestIdentity} {result : AcceptResult}
    (h : accept input now identity db = .ok (result, db')) : Refines db db' := by
  obtain ⟨workspace, hrow, ⟨_, -, -, -, rfl⟩ | ⟨hread, hvalid, h⟩⟩ := accept_eq_ok h
  · exact (SameSlots.refl _).refines
  · exact insertExecution_refines howned hrow hread (validateExecution_hosted hrow hvalid) h

/-- A request that passes the checks is inserted. -/
theorem accept_of_checks {db₂ : Database} {input : WorkloadAcceptance} {now : Nat}
    {identity : ConversationRequestIdentity}
    {capabilities : List WorkloadCapability} (hconforms : input.conforms = true)
    (howner : input.execution.owner = .conversationRequest)
    (hrow : db.workspaces.get? input.execution.workspaceId = some workspace)
    (hread : readExecution db workspace input.execution = none)
    (hprincipal : requireExecutionPrincipal db input.callerPrincipalId = .ok ())
    (hvalid : validateExecution workspace input now (some identity) = .ok ())
    (hcapabilities : operationAdapterCapabilities workspace input = .ok capabilities)
    (hidentity : validateConversationExecution db input (some identity)
      (PARALLEL_CONVERSATION_CAPABILITIES.all capabilities.contains) = .ok identity)
    (hpin : pinExecutionInputs input now db = .ok ((), db₁))
    (hinsert : insertConversationExecution (acceptedRecord input (some identity) now) identity db₁ =
      .ok ((), db₂)) :
    transact db (.accept input now (some identity)) = db₂ := by
  have haccept : accept input now (some identity) db =
      .ok (.accepted (acceptedRecord input (some identity) now), db₂) := by
    refine require_bind_eq_ok.mpr ⟨hconforms, ?_⟩
    rw [get_bind, hrow]
    dsimp only
    rw [hread]
    refine check_bind_eq_ok.mpr ⟨(), hprincipal, check_bind_eq_ok.mpr ⟨(), hvalid, ?_⟩⟩
    rw [insertExecution, get_bind, howner]
    refine check_bind_eq_ok.mpr ⟨capabilities, hcapabilities,
      check_bind_eq_ok.mpr ⟨identity, hidentity, ?_⟩⟩
    exact bind_eq_ok.mpr ⟨(), db₁, hpin, bind_eq_ok.mpr ⟨(), db₂, hinsert, rfl⟩⟩
  rw [transact, committed, haccept]

/-- The checks pass up to the one of the open requests. -/
theorem accept_of_refused {input : WorkloadAcceptance} {now : Nat}
    {identity : ConversationRequestIdentity} {capabilities : List WorkloadCapability}
    {failure : Failure} (hconforms : input.conforms = true)
    (howner : input.execution.owner = .conversationRequest)
    (hrow : db.workspaces.get? input.execution.workspaceId = some workspace)
    (hread : readExecution db workspace input.execution = none)
    (hprincipal : requireExecutionPrincipal db input.callerPrincipalId = .ok ())
    (hvalid : validateExecution workspace input now (some identity) = .ok ())
    (hcapabilities : operationAdapterCapabilities workspace input = .ok capabilities)
    (hidentity : validateConversationExecution db input (some identity)
      (PARALLEL_CONVERSATION_CAPABILITIES.all capabilities.contains) = .error failure) :
    accept input now (some identity) db = .error failure := by
  rw [accept, require_bind_of_true hconforms, get_bind, hrow]
  dsimp only
  rw [hread]
  dsimp only
  rw [check_bind_of_ok hprincipal, check_bind_of_ok hvalid, insertExecution, get_bind, howner]
  dsimp only
  rw [check_bind_of_ok hcapabilities, check_bind_of_error hidentity]

/-! ### The runtime of a workspace -/

/-- What a transaction does to the row of a workspace: nothing, or `f`. -/
theorem bindWorkspaceRuntime_eq_ok {id : String} {runtime : WorkspaceRuntimeRegistration}
    {providerRef : JsonValue} {result : Bool}
    (h : bindWorkspaceRuntime id runtime providerRef db = .ok (result, db')) :
    db' = db ∨ ∃ row, db.workspaces.get? id = some row ∧ row.runtimeRegistration = none ∧
      db' = { db with
        workspaces := db.workspaces.updateAt id (boundRow runtime) (boundRow_id runtime) } := by
  rw [bindWorkspaceRuntime, get_bind] at h
  cases hrow : db.workspaces.get? id with
  | none =>
      rw [hrow] at h
      exact .inl (pure_eq_ok.mp h).2
  | some row =>
      rw [hrow] at h
      dsimp only at h
      cases hruntime : row.runtimeRegistration with
      | some existing =>
          rw [hruntime] at h
          split_ifs at h
          all_goals exact .inl (pure_eq_ok.mp h).2
      | none =>
          rw [hruntime] at h
          split_ifs at h
          · exact .inl (pure_eq_ok.mp h).2
          · exact .inl (pure_eq_ok.mp h).2
          · exact .inl (pure_eq_ok.mp h).2
          · dsimp only at h
            rw [set_bind] at h
            exact .inr ⟨row, rfl, hruntime, (pure_eq_ok.mp h).2⟩

theorem markWorkspaceRuntimeReady_eq_ok {id incarnationId : String} {connectionEpoch now : Nat}
    {result : Bool}
    (h : markWorkspaceRuntimeReady id incarnationId connectionEpoch now db = .ok (result, db')) :
    db' = db ∨ ∃ row, db.workspaces.get? id = some row ∧
      db' = { db with workspaces := db.workspaces.updateAt id (readyRow now) (readyRow_id now) } := by
  rw [markWorkspaceRuntimeReady, get_bind] at h
  cases hrow : db.workspaces.get? id with
  | none =>
      rw [hrow] at h
      exact .inl (pure_eq_ok.mp h).2
  | some row =>
      rw [hrow] at h
      dsimp only at h
      split_ifs at h
      · rw [set_bind] at h
        exact .inr ⟨row, rfl, (pure_eq_ok.mp h).2⟩
      · exact .inl (pure_eq_ok.mp h).2

theorem recordFiniteProcess_eq_ok {id : String} {connectionEpoch : Nat} {fact : FiniteProcessFact}
    {result : Bool} (h : recordFiniteProcess id connectionEpoch fact db = .ok (result, db')) :
    db' = db ∨ ∃ row, db.workspaces.get? id = some row ∧ fact.conforms = true ∧
      recordsFact row id connectionEpoch fact = true ∧
      db' = { db with workspaces := db.workspaces.updateAt id (factRow fact) (factRow_id fact) } := by
  obtain ⟨hconforms, h⟩ := require_bind_eq_ok.mp h
  rw [get_bind] at h
  cases hrow : db.workspaces.get? id with
  | none =>
      rw [hrow] at h
      exact .inl (pure_eq_ok.mp h).2
  | some row =>
      rw [hrow] at h
      dsimp only at h
      split_ifs at h with hrecords
      · rw [set_bind] at h
        exact .inr ⟨row, rfl, hconforms, hrecords, (pure_eq_ok.mp h).2⟩
      · exact .inl (pure_eq_ok.mp h).2

theorem endWorkspaceRuntime_eq_ok {id incarnationId : String} {now : Nat} {u : Unit}
    (h : endWorkspaceRuntime id incarnationId now db = .ok (u, db')) :
    db' = db ∨ ∃ row, db.workspaces.get? id = some row ∧
      db' = { db with
        conversationRequests := db.conversationRequests.update
          (endRequest row.principalId id incarnationId now) (endRequest_key _ _ _ _)
        workspaces := db.workspaces.updateAt id (endRow now) (endRow_id now) } := by
  rw [endWorkspaceRuntime, get_bind] at h
  cases hrow : db.workspaces.get? id with
  | none =>
      rw [hrow] at h
      exact .inl (pure_eq_ok.mp h).2
  | some row =>
      rw [hrow] at h
      dsimp only at h
      split_ifs at h
      · exact .inr ⟨row, rfl, set_eq_ok.mp h⟩
      · exact .inl (pure_eq_ok.mp h).2

/-- The optional record of a slot stays, or makes a move. -/
def MovesOption (stored later : Option ExecutionRecord) : Prop :=
  match stored with
  | none => later = none
  | some record => ∃ next, later = some next ∧ (next = record ∨ Moves record next)

theorem MovesOption.refl (stored : Option ExecutionRecord) : MovesOption stored stored := by
  cases stored with
  | none => rfl
  | some record => exact ⟨record, rfl, .inl rfl⟩

/-- An operation that rewrites one workspace and any number of requests. -/
theorem rewrites_rows {id : String} {row : WorkspaceRow} {f : WorkspaceRow → WorkspaceRow}
    {g : ConversationRequestRow → ConversationRequestRow}
    (hrow : db.workspaces.get? id = some row)
    (hworkspaces : ∀ id', db'.workspaces.get? id' =
      if id' = id then (db.workspaces.get? id).map f else db.workspaces.get? id')
    (hrequests : ∀ key, db'.conversationRequests.get? key =
      (db.conversationRequests.get? key).map g)
    (hmoves : RowMoves row (f row))
    (hprocess : MovesOption row.processExecution (f row).processExecution)
    (hrequest : ∀ request, MovesOption request.execution (g request).execution) :
    Rewrites db db' := by
  -- slot by slot, as the two tables are written independently
  have hslots : ∀ slot, MovesOption (db.record slot) (db'.record slot) := by
    intro slot
    cases slot with
    | process id' =>
        rw [Database.record, Database.record, hworkspaces]
        by_cases hid : id' = id
        · rw [if_pos hid, hid, hrow]
          exact hprocess
        · rw [if_neg hid]
          exact .refl _
    | request key =>
        rw [Database.record, Database.record, hrequests]
        cases db.conversationRequests.get? key with
        | none => rfl
        | some request => exact hrequest request
  refine ⟨fun {slot record} h => ?_, fun {slot} hnone => ?_, fun {id' other} h => ?_,
    fun {id' other} hnone h => ?_⟩
  · have hslot := hslots slot
    rw [h] at hslot
    exact hslot
  · have hslot := hslots slot
    rw [hnone] at hslot
    exact hslot
  · rw [hworkspaces]
    by_cases hid : id' = id
    · obtain rfl : row = other := Option.some.inj (hrow.symm.trans (hid ▸ h))
      exact ⟨f row, by rw [if_pos hid, hrow]; rfl, hmoves⟩
    · exact ⟨other, by rw [if_neg hid, h], .refl other⟩
  · rw [hworkspaces] at h
    by_cases hid : id' = id
    · rw [hid, hrow] at hnone
      contradiction
    · rw [if_neg hid, hnone] at h
      contradiction

/-! ### Every operation -/

/-- Only a fact that its execution accepts is recorded. -/
theorem recordsFact_accepts {row : WorkspaceRow} {id : String} {connectionEpoch : Nat}
    {fact : FiniteProcessFact} (h : recordsFact row id connectionEpoch fact = true) :
    acceptsProcessFact row.processExecution fact = true := by
  rw [recordsFact, Bool.and_eq_true] at h
  exact h.2

theorem factRow_moves {row : WorkspaceRow} {fact : FiniteProcessFact}
    (hconforms : fact.conforms = true)
    (haccepts : acceptsProcessFact row.processExecution fact = true) :
    MovesOption row.processExecution (factRow fact row).processExecution := by
  rw [factRow]
  cases hrecord : row.processExecution with
  | none => rfl
  | some record =>
      rw [hrecord] at haccepts
      exact ⟨_, rfl, .inr (.fact fact hconforms haccepts)⟩

theorem endRow_moves (now : Nat) (row : WorkspaceRow) :
    MovesOption row.processExecution (endRow now row).processExecution := by
  rw [endRow]
  cases row.processExecution with
  | none => rfl
  | some record =>
      refine ⟨_, rfl, ?_⟩
      unfold endProcess
      split_ifs with hsettled
      · exact .inl rfl
      · exact .inr (.lose _ _ (by simpa using hsettled))

theorem endRequest_moves (principalId id incarnationId : String) (now : Nat)
    (request : ConversationRequestRow) :
    MovesOption request.execution
      (endRequest principalId id incarnationId now request).execution := by
  unfold endRequest
  cases hrecord : request.execution with
  | none =>
      dsimp only
      rw [hrecord]
      rfl
  | some record =>
      dsimp only
      split_ifs with hopen
      · exact ⟨_, rfl, .inr (.lose _ _ hopen.2.2.2)⟩
      · rw [hrecord]
        exact ⟨record, rfl, .inl rfl⟩

/-- An operation that rewrites one workspace. -/
theorem rewrites_updateAt {id : String} {row : WorkspaceRow} {f : WorkspaceRow → WorkspaceRow}
    {hf : ∀ row, (f row).id = row.id} (hrow : db.workspaces.get? id = some row)
    (hmoves : RowMoves row (f row))
    (hprocess : MovesOption row.processExecution (f row).processExecution) :
    Rewrites db { db with workspaces := db.workspaces.updateAt id f hf } :=
  rewrites_rows (g := fun request => request) hrow (Table.get?_updateAt _ _ _ hf)
    (fun _ => Option.map_id_fun'.symm ▸ rfl) hmoves hprocess fun _ => .refl _

theorem insertWorkspace_rewrites (row : WorkspaceRow) :
    Rewrites db (transact db (.insertWorkspace row)) := by
  have hrecord : (transact db (.insertWorkspace row)).record = db.record := by
    funext slot
    cases slot with
    | process id =>
        rw [transact, Database.record, Table.get?_insert, Database.record]
        cases db.workspaces.get? id with
        | some other => rfl
        | none =>
            rw [Option.none_or]
            split_ifs <;> rfl
    | request key => rfl
  refine ⟨fun {slot record} h => ⟨record, by rw [hrecord, h], .inl rfl⟩,
    fun {slot} hnone => by rw [hrecord, hnone], fun {id other} h => ⟨other, ?_, .refl other⟩,
    fun {id other} hnone h => ?_⟩
  · rw [transact, Table.get?_insert, h, Option.some_or]
  · rw [transact, Table.get?_insert, hnone, Option.none_or] at h
    split_ifs at h
    rw [← Option.some.inj h]
    exact ⟨rfl, rfl⟩

theorem insertRequest_rewrites (row : ConversationRequestRow) :
    Rewrites db (transact db (.insertRequest row)) := by
  have hrecord : (transact db (.insertRequest row)).record = db.record := by
    funext slot
    cases slot with
    | process id => rfl
    | request key =>
        rw [transact, Database.record, Table.get?_insert, Database.record]
        cases db.conversationRequests.get? key with
        | some other => rfl
        | none =>
            rw [Option.none_or]
            split_ifs <;> rfl
  exact rewrites_same hrecord rfl

/-- Every operation but an acceptance only rewrites the records. -/
theorem transact_rewrites (howned : db.Owned) (operation : Operation) :
    (∃ input now identity, operation = .accept input now identity) ∨
      Rewrites db (transact db operation) := by
  have hsame : Rewrites db db := (SameSlots.refl db).rewrites
  cases operation with
  | accept input now identity => exact .inl ⟨input, now, identity, rfl⟩
  | claim execution now => exact .inr (committed_of hsame (claim_rewrites howned))
  | reconcile execution =>
      refine .inr (committed_of hsame fun h => ?_)
      obtain ⟨_, _, -, -, -, rfl⟩ := reconcile_same h
      exact hsame
  | cancel input now => exact .inr (committed_of hsame (cancel_rewrites howned))
  | observe execution fingerprint phase epoch now outcome =>
      exact .inr (committed_of hsame (observe_rewrites howned))
  | acknowledge execution fingerprint now =>
      exact .inr (committed_of hsame (acknowledge_rewrites howned))
  | finalize execution now => exact .inr (committed_of hsame (finalize_rewrites howned))
  | bindWorkspaceRuntime id runtime providerRef =>
      refine .inr (committed_of hsame fun h => ?_)
      rcases bindWorkspaceRuntime_eq_ok h with rfl | ⟨row, hrow, hnone, rfl⟩
      · exact hsame
      · exact rewrites_updateAt hrow (.bound runtime hnone) (.refl _)
  | markWorkspaceRuntimeReady id incarnationId connectionEpoch now =>
      refine .inr (committed_of hsame fun h => ?_)
      rcases markWorkspaceRuntimeReady_eq_ok h with rfl | ⟨row, hrow, rfl⟩
      · exact hsame
      · exact rewrites_updateAt hrow (.ready now) (.refl _)
  | recordFiniteProcess id connectionEpoch fact =>
      refine .inr (committed_of hsame fun h => ?_)
      rcases recordFiniteProcess_eq_ok h with rfl | ⟨row, hrow, hconforms, hrecords, rfl⟩
      · exact hsame
      · have hid := Table.key_of_get? hrow
        exact rewrites_updateAt hrow (.fact fact hconforms (hid ▸ hrecords))
          (factRow_moves hconforms (recordsFact_accepts hrecords))
  | endWorkspaceRuntime id incarnationId now =>
      refine .inr (committed_of hsame fun h => ?_)
      rcases endWorkspaceRuntime_eq_ok h with rfl | ⟨row, hrow, rfl⟩
      · exact hsame
      · exact rewrites_rows hrow (Table.get?_updateAt _ _ _ (endRow_id now))
          (Table.get?_update _ _ (endRequest_key _ _ _ _)) (.ended now)
          (endRow_moves now row) (endRequest_moves row.principalId id incarnationId now)
  | updateWorkspace id columns =>
      cases hrow : db.workspaces.get? id with
      | none =>
          have htable := Table.updateAt_of_none hrow columns.write columns.write_id
          exact .inr (SameSlots.rewrites ⟨htable, rfl⟩)
      | some row =>
          exact .inr (rewrites_updateAt hrow (.columns columns) (.refl _))
  | insertWorkspace row => exact .inr (insertWorkspace_rewrites row)
  | insertRequest row => exact .inr (insertRequest_rewrites row)
  | replaceInputs principals inputManifests inputObjects =>
      exact .inr (SameSlots.rewrites ⟨rfl, rfl⟩)

/-- Every operation refines the life of the records. -/
theorem transact_refines (howned : db.Owned) (operation : Operation) :
    Refines db (transact db operation) := by
  rcases transact_rewrites howned operation with ⟨input, now, identity, rfl⟩ | h
  · exact committed_of (SameSlots.refl db).refines (accept_refines howned)
  · exact h.refines

end PocketCoder.Executions
