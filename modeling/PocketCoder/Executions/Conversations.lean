import PocketCoder.Executions.Settlement

/-!
Requests of conversations across runs of the store. Exclusion is checked when
a request is accepted, against the requests that are not finalized yet: those
of the workspace, or only those of the conversation when the adapter of the
new request runs conversations in parallel.

A conversation therefore never has two open requests. A workspace may: a
request under a parallel adapter is not held back by an open request under an
adapter that must run alone. Where no acceptance overtakes such a request,
it is the only open one.
-/

namespace PocketCoder.Executions

open PocketCoder.Foundation PocketCoder.Workspaces
open PocketCoder.Foundation.Transaction

/-! ### Open requests -/

/-- The adapter of the operation has all `PARALLEL_CONVERSATION_CAPABILITIES`. -/
def parallelConversations (row : WorkspaceRow) (input : WorkloadAcceptance) : Bool :=
  match operationAdapterCapabilities row input with
  | .ok capabilities => PARALLEL_CONVERSATION_CAPABILITIES.all capabilities.contains
  | .error _ => false

/-- The adapter that an acceptance names in its workspace. -/
def Database.parallel (db : Database) (input : WorkloadAcceptance) : Bool :=
  (db.workspaces.get? input.execution.workspaceId).any fun row => parallelConversations row input

/-- The record of a request, by principal, conversation and request, that is
not finalized. -/
structure Database.Open (db : Database) (key : String × String × String)
    (record : ExecutionRecord) : Prop where
  stored : db.record (.request key) = some record
  finalizedAt : record.finalizedAt = none

/-- Two records of one workspace. -/
def SameWorkspace (record record' : ExecutionRecord) : Prop :=
  record.acceptance.execution.workspaceId = record'.acceptance.execution.workspaceId

/-- Every record carries the identity it is kept under, and a conversation has
at most one open request in a workspace. -/
structure Database.Threaded (db : Database) : Prop where
  identity : ∀ {key record}, db.record (.request key) = some record →
    ∃ identity, record.conversationIdentity = some identity ∧
      identity.conversation_id = key.2.1
  conversation : ∀ {key key' record record'}, db.Open key record → db.Open key' record' →
    SameWorkspace record record' → key.2.1 = key'.2.1 → key = key'

/-- An open request under an adapter that is not parallel is the only one of
its workspace. -/
def Database.Exclusive (db : Database) : Prop :=
  ∀ key key' record record', db.Open key record → db.Open key' record' →
    SameWorkspace record record' → db.parallel record.acceptance = false → key = key'

/-- A new request under a parallel adapter passes its checks while a request
of another conversation is open under one that is not parallel. -/
structure Overtakes (db : Database) (input : WorkloadAcceptance) (now : Nat)
    (identity : Option ConversationRequestIdentity) : Prop where
  valid : ∃ row, db.workspaces.get? input.execution.workspaceId = some row ∧
    readExecution db row input.execution = none ∧ validateExecution row input now identity = .ok ()
  parallel : db.parallel input = true
  overtaken : ∃ key record, db.Open key record ∧
    record.acceptance.execution.workspaceId = input.execution.workspaceId ∧
    db.parallel record.acceptance = false ∧
    ∀ parsed, identity = some parsed → key.2.1 ≠ parsed.conversation_id

/-- The steps in which no acceptance overtakes an exclusive request. -/
def OrderlySteps (db : Database) (operation : Operation) (db' : Database) : Prop :=
  Transacts db operation db' ∧
    ∀ input now identity, operation = .accept input now identity →
      ¬ Overtakes db input now identity

/-! ### What an acceptance checks -/

variable {db db' : Database} {input : WorkloadAcceptance}

/-- No open request of the workspace passes, or none of the conversation. -/
theorem validateConversationExecution_open {identity : Option ConversationRequestIdentity}
    {parallel : Bool} {parsed : ConversationRequestIdentity}
    (h : validateConversationExecution db input identity parallel = .ok parsed)
    {key : String × String × String} {record : ExecutionRecord} (hopen : db.Open key record)
    (hprincipal : key.1 = input.callerPrincipalId)
    (hworkspace : record.acceptance.execution.workspaceId = input.execution.workspaceId) :
    parallel = true ∧ key.2.1 ≠ parsed.conversation_id := by
  unfold validateConversationExecution at h
  cases identity with
  | none => exact nomatch h
  | some identity =>
      obtain ⟨_, -, h⟩ := Except.bind_eq_ok.mp h
      obtain ⟨_, -, h⟩ := Except.bind_eq_ok.mp h
      obtain ⟨_, hactive, h⟩ := Except.bind_eq_ok.mp h
      obtain rfl : identity = parsed := Except.ok.inj h
      obtain ⟨row, hget, hstored⟩ := Option.bind_eq_some_iff.mp hopen.stored
      obtain ⟨hmem, hkey⟩ := Table.get?_eq_some.mp hget
      have hnot := require_eq_ok.mp hactive
      rw [Bool.not_eq_true', List.any_eq_false] at hnot
      -- the row of the request is not among the active ones
      have hfilter : ¬ ((!parallel || decide (row.conversationId = identity.conversation_id)) =
          true) := by
        intro hscope
        refine hnot row (List.mem_filter.mpr ⟨hmem, ?_⟩) ?_
        · rw [Bool.and_eq_true, Bool.and_eq_true, decide_eq_true_eq]
          refine ⟨⟨?_, by rw [hstored]; rfl⟩, hscope⟩
          rw [← hprincipal, ← hkey]
        · rw [hstored, Option.any_some, Bool.and_eq_true, decide_eq_true_eq, hopen.finalizedAt]
          exact ⟨hworkspace, rfl⟩
      rw [Bool.or_eq_true, not_or, decide_eq_true_eq, Bool.not_eq_true, Bool.not_eq_false'] at hfilter
      refine ⟨hfilter.1, ?_⟩
      rw [← hkey]
      exact hfilter.2

theorem validateConversationExecution_identity {identity : Option ConversationRequestIdentity}
    {parallel : Bool} {parsed : ConversationRequestIdentity}
    (h : validateConversationExecution db input identity parallel = .ok parsed) :
    identity = some parsed := by
  unfold validateConversationExecution at h
  cases identity with
  | none => exact nomatch h
  | some identity =>
      obtain ⟨_, -, h⟩ := Except.bind_eq_ok.mp h
      obtain ⟨_, -, h⟩ := Except.bind_eq_ok.mp h
      obtain ⟨_, -, h⟩ := Except.bind_eq_ok.mp h
      exact congrArg some (Except.ok.inj h)

theorem parallel_eq {workspace : WorkspaceRow} {capabilities : List WorkloadCapability}
    (hrow : db.workspaces.get? input.execution.workspaceId = some workspace)
    (h : operationAdapterCapabilities workspace input = .ok capabilities) :
    db.parallel input = PARALLEL_CONVERSATION_CAPABILITIES.all capabilities.contains := by
  rw [Database.parallel, hrow, Option.any_some, parallelConversations, h]

/-! ### What a step keeps -/

theorem RowMoves.templateDigest {row later : WorkspaceRow} (h : RowMoves row later) :
    later.templateDigest = row.templateDigest := by
  cases h <;> rfl

theorem RowMoves.id {row later : WorkspaceRow} (h : RowMoves row later) : later.id = row.id := by
  cases h <;> rfl

/-- A bound runtime keeps the evidence that acceptances are checked against. -/
theorem RowMoves.installedEvidence {row later : WorkspaceRow} (h : RowMoves row later)
    (hruntime : row.runtimeRegistration.isSome = true) :
    installedEvidence later input = Executions.installedEvidence row input := by
  obtain ⟨runtime, hruntime⟩ := Option.isSome_iff_exists.mp hruntime
  obtain ⟨runtime', hruntime', hkept⟩ := h.runtime hruntime
  unfold Executions.installedEvidence
  rw [hruntime, hruntime']
  dsimp only
  rw [hkept.template, hkept.producer, hkept.incarnationId, h.templateDigest, h.id]

/-- The adapter of a stored record stays the one it was accepted under. -/
theorem parallel_kept (h : Refines db db') (hosted : Hosted db input) :
    db'.parallel input = db.parallel input := by
  obtain ⟨row, hrow, -, hruntime⟩ := hosted
  obtain ⟨row', hrow', hmoves⟩ := h.rows hrow
  rw [Database.parallel, Database.parallel, hrow, hrow', Option.any_some, Option.any_some]
  unfold parallelConversations operationAdapterCapabilities
  rw [hmoves.installedEvidence hruntime]

theorem Moves.conversationIdentity {record next : ExecutionRecord} (h : Moves record next) :
    next.conversationIdentity = record.conversationIdentity := by
  cases h <;> rfl

/-- A record that is open after a step was open before it, or is new. -/
theorem Database.Open.origin (hsound : db.Sound) (h : Refines db db')
    {key : String × String × String} {next : ExecutionRecord} (hopen : db'.Open key next) :
    (∃ record, db.Open key record ∧ next.acceptance = record.acceptance) ∨
      db.record (.request key) = none := by
  rcases h.origin hopen.stored with ⟨record, hrecord, hmoves⟩ | ⟨hnone, -⟩
  · refine .inl ⟨record, ⟨hrecord, ?_⟩, acceptance_of_moves hmoves⟩
    rcases hmoves with rfl | hmoves
    · exact hopen.finalizedAt
    · cases hfinalized : record.finalizedAt with
      | none => rfl
      | some time =>
          have hevolves := hmoves.evolves (hsound.wellFormed hrecord)
          have hkept := hevolves.finalizedAt (by rw [hfinalized]; rfl)
          rw [hopen.finalizedAt, hfinalized] at hkept
          contradiction
  · exact .inr hnone

/-- What the acceptance of a new request has checked. -/
structure Accepted (db : Database) (input : WorkloadAcceptance) (now : Nat)
    (parsed : ConversationRequestIdentity) : Prop where
  valid : ∃ row, db.workspaces.get? input.execution.workspaceId = some row ∧
    readExecution db row input.execution = none ∧
    validateExecution row input now (some parsed) = .ok ()
  apart : ∀ {key record}, db.Open key record →
    record.acceptance.execution.workspaceId = input.execution.workspaceId →
    db.parallel input = true ∧ key.2.1 ≠ parsed.conversation_id

/-- The key a request is kept under. -/
abbrev requestKey (input : WorkloadAcceptance) (parsed : ConversationRequestIdentity) :
    String × String × String :=
  (input.callerPrincipalId, parsed.conversation_id, parsed.request_id)

/-- A request whose slot was empty is the one just accepted. -/
theorem accept_of_new (hsound : db.Sound) {operation : Operation}
    {key : String × String × String} {next : ExecutionRecord}
    (hnone : db.record (.request key) = none)
    (hnext : (transact db operation).record (.request key) = some next) :
    ∃ input now parsed, operation = .accept input now (some parsed) ∧
      Accepted db input now parsed ∧ key = requestKey input parsed ∧
      next = acceptedRecord input (some parsed) now := by
  rcases transact_rewrites hsound.owned operation with ⟨input, now, identity, rfl⟩ | hrewrites
  · refine ⟨input, now, ?_⟩
    rw [transact, committed] at hnext
    cases haccept : accept input now identity db with
    | error failure =>
        rw [haccept, hnone] at hnext
        contradiction
    | ok value =>
        obtain ⟨result, db₁⟩ := value
        rw [haccept] at hnext
        dsimp only at hnext
        -- a replay writes nothing, so the slot was filled by an insertion
        obtain ⟨workspace, hrow, ⟨_, -, -, -, rfl⟩ | ⟨hread, hvalid, hinsert⟩⟩ := accept_eq_ok haccept
        · rw [hnone] at hnext
          contradiction
        · cases howner : input.execution.owner with
          | process =>
              obtain ⟨-, hputs⟩ := insertExecution_process howner hrow hinsert
              rw [hputs.record, Function.update_apply, if_neg (by simp), hnone] at hnext
              contradiction
          | conversationRequest =>
              obtain ⟨capabilities, parsed, hcapabilities, hparsed, -, hputs⟩ :=
                insertExecution_request howner hinsert
              obtain rfl := validateConversationExecution_identity hparsed
              rw [hputs.record, Function.update_apply] at hnext
              split_ifs at hnext with hkey
              · refine ⟨parsed, rfl, ⟨⟨workspace, hrow, hread, hvalid⟩, ?_⟩, Slot.request.inj hkey,
                  (Option.some.inj hnext).symm⟩
                -- an open request of the workspace is one of the same caller
                intro key' record hopen hworkspace
                rw [parallel_eq hrow hcapabilities]
                refine validateConversationExecution_open hparsed hopen ?_ hworkspace
                obtain ⟨row, hhost, hprincipal, -⟩ := hsound.owned.hosted hopen.stored
                obtain ⟨row', hhost', hprincipal', -⟩ := validateExecution_hosted hrow hvalid
                rw [hworkspace, hhost', Option.some.injEq] at hhost
                obtain ⟨-, hcaller, -⟩ := hsound.owned.owns hopen.stored
                rw [← hcaller, ← hprincipal, ← hhost, hprincipal']
              · rw [hnone] at hnext
                contradiction
  · rw [hrewrites.old hnone] at hnext
    contradiction

/-! ### One step -/

theorem Database.Fresh.threaded (h : db.Fresh) : db.Threaded := by
  have hnone : ∀ {key record}, db.record (.request key) ≠ some record := by
    intro key record
    rw [h.record (.request key)]
    simp
  exact ⟨fun hrecord => absurd hrecord hnone, fun hopen => absurd hopen.stored hnone⟩

theorem Database.Fresh.exclusive (h : db.Fresh) : db.Exclusive := by
  intro key _ record _ hopen
  have hstored := hopen.stored
  rw [h.record (.request key)] at hstored
  contradiction

/-- Of two open requests of a workspace at most one is new, and it is kept
apart from the old one. -/
theorem open_cases (hsound : db.Sound) {operation : Operation}
    {key key' : String × String × String} {next next' : ExecutionRecord}
    (hopen : (transact db operation).Open key next)
    (hopen' : (transact db operation).Open key' next') (hsame : SameWorkspace next next') :
    (∃ record record', db.Open key record ∧ db.Open key' record' ∧
      next.acceptance = record.acceptance ∧ next'.acceptance = record'.acceptance) ∨
    key = key' ∨
    (∃ input now parsed, operation = .accept input now (some parsed) ∧
      Accepted db input now parsed ∧ db.parallel input = true ∧ key.2.1 ≠ key'.2.1 ∧
      ((next.acceptance = input ∧ key'.2.1 ≠ parsed.conversation_id ∧
          ∃ record', db.Open key' record' ∧ next'.acceptance = record'.acceptance) ∨
        (next'.acceptance = input ∧ key.2.1 ≠ parsed.conversation_id ∧
          ∃ record, db.Open key record ∧ next.acceptance = record.acceptance))) := by
  have hrefines := transact_refines hsound.owned operation
  rcases hopen.origin hsound hrefines with ⟨record, hold, hacceptance⟩ | hnone
  · rcases hopen'.origin hsound hrefines with ⟨record', hold', hacceptance'⟩ | hnone'
    · exact .inl ⟨record, record', hold, hold', hacceptance, hacceptance'⟩
    · obtain ⟨input, now, parsed, rfl, haccepted, rfl, rfl⟩ := accept_of_new hsound hnone' hopen'.stored
      have hworkspace : record.acceptance.execution.workspaceId = input.execution.workspaceId := by
        rw [← hacceptance]
        exact hsame
      obtain ⟨hparallel, hapart⟩ := haccepted.apart hold hworkspace
      exact .inr (.inr ⟨input, now, parsed, rfl, haccepted, hparallel, hapart,
        .inr ⟨rfl, hapart, record, hold, hacceptance⟩⟩)
  · obtain ⟨input, now, parsed, rfl, haccepted, rfl, rfl⟩ := accept_of_new hsound hnone hopen.stored
    rcases hopen'.origin hsound hrefines with ⟨record', hold', hacceptance'⟩ | hnone'
    · have hworkspace : record'.acceptance.execution.workspaceId = input.execution.workspaceId := by
        rw [← hacceptance']
        exact hsame.symm
      obtain ⟨hparallel, hapart⟩ := haccepted.apart hold' hworkspace
      exact .inr (.inr ⟨input, now, parsed, rfl, haccepted, hparallel, hapart.symm,
        .inl ⟨rfl, hapart, record', hold', hacceptance'⟩⟩)
    · obtain ⟨_, _, _, heq, -, rfl, -⟩ := accept_of_new hsound hnone' hopen'.stored
      cases heq
      exact .inr (.inl rfl)

theorem Transacts.threaded {operation : Operation} (h : Transacts db operation db')
    (hsound : db.Sound) (hthreaded : db.Threaded) : db'.Threaded := by
  obtain rfl : db' = transact db operation := h
  refine ⟨fun {key next} hnext => ?_, fun {key key' next next'} hopen hopen' hsame hkey => ?_⟩
  · rcases (transact_refines hsound.owned operation).origin hnext with
      ⟨record, hrecord, hmoves⟩ | ⟨hnone, -⟩
    · obtain ⟨identity, hidentity, hconversation⟩ := hthreaded.identity hrecord
      refine ⟨identity, ?_, hconversation⟩
      rcases hmoves with rfl | hmoves
      · exact hidentity
      · rw [hmoves.conversationIdentity, hidentity]
    · obtain ⟨_, _, parsed, -, -, rfl, rfl⟩ := accept_of_new hsound hnone hnext
      exact ⟨parsed, rfl, rfl⟩
  · rcases open_cases hsound hopen hopen' hsame with
      ⟨record, record', hold, hold', hacceptance, hacceptance'⟩ | heq |
      ⟨_, _, _, -, -, -, hapart, -⟩
    · refine hthreaded.conversation hold hold' ?_ hkey
      rw [SameWorkspace, ← hacceptance, ← hacceptance']
      exact hsame
    · exact heq
    · exact absurd hkey hapart

theorem OrderlySteps.exclusive {operation : Operation} (h : OrderlySteps db operation db')
    (hsound : db.Sound) (hexclusive : db.Exclusive) : db'.Exclusive := by
  obtain ⟨h, horderly⟩ := h
  obtain rfl : db' = transact db operation := h
  have hrefines := transact_refines hsound.owned operation
  intro key key' next next' hopen hopen' hsame halone
  rcases open_cases hsound hopen hopen' hsame with
    ⟨record, record', hold, hold', hacceptance, hacceptance'⟩ | heq |
    ⟨input, now, parsed, rfl, haccepted, hparallel, -, hnew⟩
  · rw [hacceptance, parallel_kept hrefines (hsound.owned.hosted hold.stored)] at halone
    refine hexclusive _ _ _ _ hold hold' ?_ halone
    rw [SameWorkspace, ← hacceptance, ← hacceptance']
    exact hsame
  · exact heq
  · rcases hnew with ⟨rfl, -, -⟩ | ⟨rfl, hapart, record, hold, hacceptance⟩
    · obtain ⟨row, hrow, -, hvalid⟩ := haccepted.valid
      rw [parallel_kept hrefines (validateExecution_hosted hrow hvalid), hparallel] at halone
      contradiction
    · -- the new request overtakes the one that must be alone
      rw [hacceptance, parallel_kept hrefines (hsound.owned.hosted hold.stored)] at halone
      refine absurd ⟨haccepted.valid, hparallel, key, record, hold, ?_, halone, ?_⟩
        (horderly _ _ _ rfl)
      · rw [← hacceptance]
        exact hsame
      · rintro _ ⟨⟩
        exact hapart

/-! ### Replays -/

/-- The fields of an acceptance in the order they are compared in. -/
theorem WorkloadAcceptance.sortValue_toJson (input : WorkloadAcceptance) :
    input.toJson.sortValue = .obj [("adapterDigest", .str input.adapterDigest),
      ("bindingSetDigest", .str input.bindingSetDigest),
      ("callerPrincipalId", .str input.callerPrincipalId),
      ("execution", input.execution.toJson.sortValue), ("fingerprint", .str input.fingerprint),
      ("input", Json.sortValue (.obj input.input)), ("inputs", input.inputs.toJson.sortValue),
      ("operation", .str input.operation), ("templateDigest", .str input.templateDigest)] := by
  simp +decide only [WorkloadAcceptance.toJson, WorkloadAcceptance.facts, Json.sortValue,
    Json.sortFields, Json.insertField, List.cons_append, List.nil_append, if_true, if_false]

/-- Acceptances with one text have one caller. -/
theorem WorkloadAcceptance.callerPrincipalId_eq {a b : WorkloadAcceptance}
    (h : canonicalJson a.toJson = canonicalJson b.toJson) :
    a.callerPrincipalId = b.callerPrincipalId := by
  have hparse := congrArg Json.parse h
  rw [canonicalJson, canonicalJson, Json.parse_stringify, Json.parse_stringify,
    Option.some.injEq, a.sortValue_toJson, b.sortValue_toJson] at hparse
  simp only [Json.obj.injEq, List.cons.injEq, Prod.mk.injEq, Json.str.injEq] at hparse
  exact hparse.2.2.1.2
/-- The record that an acceptance replays is the one of its request. -/
theorem replayed_key (hsound : db.Sound) (hthreaded : db.Threaded) {workspace : WorkspaceRow}
    {previous : ExecutionRecord} {identity : ConversationRequestIdentity}
    (hrow : db.workspaces.get? input.execution.workspaceId = some workspace)
    (hread : readExecution db workspace input.execution = some previous)
    (hreplay : validateExecutionReplay previous input (some identity) = .ok ()) :
    db.record (.request (input.callerPrincipalId, identity.conversation_id,
      input.execution.requestId)) = some previous := by
  obtain ⟨_, hcanonical, hreplay⟩ := Except.bind_eq_ok.mp hreplay
  have hcaller := WorkloadAcceptance.callerPrincipalId_eq
    (of_decide_eq_true (require_eq_ok.mp hcanonical))
  obtain ⟨hexecution, slot, hprevious⟩ := readExecution_eq_some hrow hread
  have howns := hsound.owned.owns hprevious
  cases howner : input.execution.owner with
  | process =>
      rw [howner] at hreplay
      cases require_eq_ok.mp hreplay
  | conversationRequest =>
      rw [howner] at hreplay
      have hidentity : previous.conversationIdentity = some identity :=
        of_decide_eq_true (require_eq_ok.mp hreplay)
      cases slot with
      | process id =>
          have hprocess := howns.1
          rw [hexecution, howner] at hprocess
          cases hprocess
      | request key =>
          obtain ⟨-, hprincipal, hrequest⟩ := howns
          obtain ⟨identity', hidentity', hconversation⟩ := hthreaded.identity hprevious
          rw [hidentity', Option.some.injEq] at hidentity
          have hkey : key = (input.callerPrincipalId, identity.conversation_id,
              input.execution.requestId) := by
            rw [← hcaller, hprincipal, ← hidentity, hconversation, ← hexecution, hrequest]
          rw [← hkey, hprevious]

/-- A stored request is only ever replayed. -/
theorem accept_of_stored (hsound : db.Sound) (hthreaded : db.Threaded) {now : Nat}
    {identity : ConversationRequestIdentity} {result : AcceptResult} {record : ExecutionRecord}
    (hrecord : db.record (.request (input.callerPrincipalId, identity.conversation_id,
      input.execution.requestId)) = some record)
    (h : accept input now (some identity) db = .ok (result, db')) :
    result = .replayed record ∧ db' = db := by
  obtain ⟨workspace, hrow, ⟨previous, hread, hreplay, rfl, rfl⟩ | ⟨-, -, hinsert⟩⟩ := accept_eq_ok h
  · have hprevious := replayed_key hsound hthreaded hrow hread hreplay
    rw [hrecord, Option.some.injEq] at hprevious
    rw [hprevious]
    exact ⟨rfl, rfl⟩
  · cases howner : input.execution.owner with
    | process =>
        rw [insertExecution, get_bind, howner] at hinsert
        obtain ⟨hguard, -⟩ := require_bind_eq_ok.mp hinsert
        rw [Option.isNone_some, Bool.and_false] at hguard
        cases hguard
    | conversationRequest =>
        obtain ⟨_, parsed, -, hparsed, hnone, -⟩ := insertExecution_request howner hinsert
        have hrequest := validateConversationExecution_request hparsed
        obtain rfl := Option.some.inj (validateConversationExecution_identity hparsed)
        rw [hrequest, hrecord] at hnone
        cases hnone

/-! ### Runs -/

theorem Run.sound_threaded {db₀ : Database} {operations : List Operation} (hfresh : db₀.Fresh)
    (hrun : Run Transacts db₀ operations db) : db.Sound ∧ db.Threaded :=
  hrun.invariant (I := fun db => db.Sound ∧ db.Threaded)
    (fun hstep h => ⟨hstep.sound h.1, hstep.threaded h.1 h.2⟩) ⟨hfresh.sound, hfresh.threaded⟩

/-- **Requests of conversations are serial**, as far as acceptance checks it.
In every state of every run a conversation has at most one open request in a
workspace, whatever the adapters; a request that is stored stays stored, and
every later acceptance of it replays its record or fails. Where no acceptance
of the run overtakes one, an open request under an adapter that does not run
conversations in parallel is the only open request of its workspace. -/
theorem requests_serial {db₀ db db' : Database} {before after : List Operation}
    (hfresh : db₀.Fresh) (hbefore : Run Transacts db₀ before db)
    (hafter : Run Transacts db after db') :
    (∀ key key' record record', db.Open key record → db.Open key' record' →
      SameWorkspace record record' → key.2.1 = key'.2.1 → key = key') ∧
    (∀ key record, db.record (.request key) = some record →
      ∃ later, db'.record (.request key) = some later ∧ later.acceptance = record.acceptance ∧
        ∀ input now identity, (input.callerPrincipalId, identity.conversation_id,
            input.execution.requestId) = key →
          (∃ failure, accept input now (some identity) db' = .error failure) ∨
            accept input now (some identity) db' = .ok (.replayed later, db')) ∧
    (Run OrderlySteps db₀ before db → ∀ key key' record record', db.Open key record →
      db.Open key' record' → SameWorkspace record record' →
      db.parallel record.acceptance = false → key = key') := by
  obtain ⟨hsound, hthreaded⟩ := Run.sound_threaded hfresh hbefore
  have hlater : db'.Sound ∧ db'.Threaded := Run.sound_threaded hfresh (hbefore.append hafter)
  have hevolves : db.Evolves db' :=
    hafter.relates Database.Evolves.refl Database.Evolves.trans Transacts.sound
      Transacts.evolves hsound
  refine ⟨fun _ _ _ _ hopen hopen' => hthreaded.conversation hopen hopen', fun key record hrecord => ?_,
    fun horderly => ?_⟩
  · obtain ⟨later, hstored, hlife⟩ := hevolves _ record hrecord
    refine ⟨later, hstored, hlife.acceptance, fun input now identity hkey => ?_⟩
    subst hkey
    -- what is accepted again under the key is a replay of the stored record
    cases haccept : accept input now (some identity) db' with
    | error failure => exact .inl ⟨failure, rfl⟩
    | ok value =>
        obtain ⟨result, db''⟩ := value
        obtain ⟨rfl, rfl⟩ := accept_of_stored hlater.1 hlater.2 hstored haccept
        exact .inr rfl
  · have hexclusive : db.Sound ∧ db.Exclusive :=
      horderly.invariant (I := fun db => db.Sound ∧ db.Exclusive)
        (fun hstep h => ⟨hstep.1.sound h.1, hstep.exclusive h.1 h.2⟩)
        ⟨hfresh.sound, hfresh.exclusive⟩
    exact hexclusive.2

/-! ### An overtaken request -/

/-- A request of the small workspace. -/
def talkExecution (requestId : String) : WorkloadExecutionReference where
  workspaceId := "00000000-0000-0000-0000-000000000000"
  incarnationId := "first"
  owner := .conversationRequest
  requestId := requestId

def talkAcceptance (operation adapter requestId : String) : WorkloadAcceptance :=
  WorkloadAcceptance.sealed
    { execution := talkExecution requestId
      callerPrincipalId := "00000000-0000-0000-0000-000000000000"
      templateDigest := digestOf (.str "template")
      adapterDigest := digestOf (.str adapter)
      operation := operation
      input := []
      inputs := AcceptedInputManifest.sealed
        { workspaceId := (talkExecution requestId).workspaceId
          incarnationId := (talkExecution requestId).incarnationId, digest := "", objects := [] }
      bindingSetDigest := digestOf (.arr [])
      fingerprint := "" }

def talkIdentity (conversationId requestId : String) : ConversationRequestIdentity where
  authority := .generic
  conversation_id := conversationId
  request_id := requestId
  turn_id := requestId
  request_fingerprint := String.ofList (List.replicate 64 '0')

/-- A question to an adapter that runs one request at a time. -/
def askAcceptance : WorkloadAcceptance :=
  talkAcceptance "ask" "single" "11111111-1111-4111-8111-111111111111"

def askIdentity : ConversationRequestIdentity :=
  talkIdentity "aaaaaaaa-aaaa-4aaa-8aaa-aaaaaaaaaaaa" "11111111-1111-4111-8111-111111111111"

/-- A second question, in another conversation. -/
def againAcceptance : WorkloadAcceptance :=
  talkAcceptance "ask" "single" "33333333-3333-4333-8333-333333333333"

def againIdentity : ConversationRequestIdentity :=
  talkIdentity "cccccccc-cccc-4ccc-8ccc-cccccccccccc" "33333333-3333-4333-8333-333333333333"

/-- A request to an adapter that runs conversations in parallel. -/
def tellAcceptance : WorkloadAcceptance :=
  talkAcceptance "tell" "shared" "22222222-2222-4222-8222-222222222222"

def tellIdentity : ConversationRequestIdentity :=
  talkIdentity "bbbbbbbb-bbbb-4bbb-8bbb-bbbbbbbbbbbb" "22222222-2222-4222-8222-222222222222"

def envelopeBytes (body : Json) : Nat := (utf8 body.stringify).length

/-- A request with its identity. -/
abbrev TalkRequest := WorkloadAcceptance × ConversationRequestIdentity

def talkRoute (path : String) (envelope : TalkRequest → Json) (first second : TalkRequest) :
    ServiceRoute :=
  ⟨.POST, "/executions/" ++ path, .buffered,
    max (envelopeBytes (envelope first)) (envelopeBytes (envelope second)), 0⟩

/-- The routes of the execution protocol that two requests fit. -/
def talkRoutes (first second : TalkRequest) : List ServiceRoute :=
  [talkRoute "accept" (fun request => executionAcceptEnvelope request.1 (some request.2)) first second,
    talkRoute "lookup" (fun request => executionLookupEnvelope request.1.execution) first second,
    talkRoute "ack" (fun request => executionAckEnvelope request.1) first second,
    talkRoute "cancel" (fun request =>
      executionCancelEnvelope request.1 request.1.execution.requestId) first second]

attribute [irreducible] envelopeBytes

/-- A template with an adapter of each kind. -/
def talkSpec : WorkloadSpec where
  image := "image"
  runtime := "runtime"
  adapters := [
    ("single", ⟨.service, digestOf (.str "single"), "pocketcoder.execution/v1", some "one"⟩),
    ("shared", ⟨.service, digestOf (.str "shared"), "pocketcoder.execution/v1", some "many"⟩)]
  operations := [("ask", ⟨"single", .object [] .nil, [], []⟩),
    ("tell", ⟨"shared", .object [] .nil, [], []⟩)]
  services := [("one", talkRoutes (askAcceptance, askIdentity) (againAcceptance, againIdentity)),
    ("many", talkRoutes (tellAcceptance, tellIdentity) (tellAcceptance, tellIdentity))]
  credentialSlots := []
  limits := { inputFileBytes := 0, stagedInputBytes := 0, inputFiles := 0 }

def talkInstalled : InstalledWorkload where
  workspaceId := "00000000-0000-0000-0000-000000000000"
  incarnationId := "first"
  templateDigest := digestOf (.str "template")
  image := "image"
  runtime := "runtime"
  capabilities := .unknownOutcome :: PARALLEL_CONVERSATION_CAPABILITIES
  adapters := [
    ("single", ⟨.service, digestOf (.str "single"), "pocketcoder.execution/v1", [.unknownOutcome]⟩),
    ("shared", ⟨.service, digestOf (.str "shared"), "pocketcoder.execution/v1",
      .unknownOutcome :: PARALLEL_CONVERSATION_CAPABILITIES⟩)]

def talkRow : WorkspaceRow :=
  { sampleRow with
    runtimeRegistration := some
      { incarnationId := "first", containerIdentity := "container", profile := .service
        producer := some talkInstalled
        template := some { digest := digestOf (.str "template"), spec := talkSpec }
        readyAt := some (toISOString 0), endedAt := none } }

def talkStore : Database where
  workspaces := ⟨[talkRow], by simp⟩
  conversationRequests := .empty
  principals := ⟨[{ id := "00000000-0000-0000-0000-000000000000", disabledAt := none }],
    List.nodup_singleton "00000000-0000-0000-0000-000000000000"⟩
  inputManifests := .empty
  inputObjects := .empty

theorem talkRoutes_fit {first second : TalkRequest} {input : WorkloadAcceptance}
    {identity : ConversationRequestIdentity}
    (h : (input, identity) = first ∨ (input, identity) = second) :
    ∀ envelope ∈ [("accept", executionAcceptEnvelope input (some identity)),
        ("lookup", executionLookupEnvelope input.execution), ("ack", executionAckEnvelope input),
        ("cancel", executionCancelEnvelope input input.execution.requestId)],
      ∃ route, (talkRoutes first second).find? (fun route => route.method = .POST &&
          route.path = "/executions/" ++ envelope.1 && route.responseMode = .buffered) =
            some route ∧ (utf8 envelope.2.stringify).length ≤ route.maxRequestBytes := by
  have hbytes : ∀ body : Json, (utf8 body.stringify).length = envelopeBytes body := by
    intro body
    unfold envelopeBytes
    rfl
  intro envelope henvelope
  rw [hbytes]
  simp only [List.mem_cons, List.not_mem_nil, or_false] at henvelope
  rcases h with rfl | rfl <;> rcases henvelope with rfl | rfl | rfl | rfl
  case inl.inl | inl.inr.inl | inl.inr.inr.inl | inl.inr.inr.inr =>
    exact ⟨_, rfl, le_max_left _ _⟩
  all_goals exact ⟨_, rfl, le_max_right _ _⟩

theorem talkAcceptance_conforms {operation adapter requestId : String}
    (hoperation : isWorkloadName operation = true) (hrequest : isUuid requestId = true) :
    (talkAcceptance operation adapter requestId).conforms = true := by
  obtain ⟨huuid, hincarnation⟩ : isUuid "00000000-0000-0000-0000-000000000000" = true ∧
      isText 256 "first" = true := by decide
  simp [WorkloadAcceptance.conforms, talkAcceptance, WorkloadAcceptance.sealed, talkExecution,
    WorkloadExecutionReference.conforms, huuid, hincarnation, hoperation, hrequest,
    isDigest_digestOf, AcceptedInputManifest.conforms, AcceptedInputManifest.sealed,
    AcceptedInputManifest.contents, WorkloadAcceptance.facts]

/-- Requests of the small workspace pass. -/
theorem talk_validates {operation adapter service requestId : String}
    {identity : ConversationRequestIdentity} {capabilities : List WorkloadCapability}
    {first second : TalkRequest}
    (hoperation : talkSpec.operations.lookup operation =
      some ⟨adapter, .object [] .nil, [], []⟩)
    (hdeclared : talkSpec.adapters.lookup adapter =
      some ⟨.service, digestOf (.str adapter), "pocketcoder.execution/v1", some service⟩)
    (hinstalled : talkInstalled.adapters.lookup adapter =
      some ⟨.service, digestOf (.str adapter), "pocketcoder.execution/v1", capabilities⟩)
    (hcapabilities : capabilities.contains .unknownOutcome = true)
    (hservice : talkSpec.services.lookup service = some (talkRoutes first second))
    (hfits : (talkAcceptance operation adapter requestId, identity) = first ∨
      (talkAcceptance operation adapter requestId, identity) = second) :
    validateExecution talkRow (talkAcceptance operation adapter requestId) 0 (some identity) =
        .ok () ∧
      operationAdapterCapabilities talkRow (talkAcceptance operation adapter requestId) =
        .ok capabilities := by
  have hroutes : validateServiceRoutes talkSpec.services (some service)
      (talkAcceptance operation adapter requestId) (some identity) = .ok () :=
    validateServiceRoutes_eq_ok hservice (talkRoutes_fit hfits)
  have hevidence : installedEvidence talkRow (talkAcceptance operation adapter requestId) =
      .ok (⟨digestOf (.str "template"), talkSpec⟩, talkInstalled) :=
    if_pos ⟨rfl, rfl, rfl, rfl, rfl, rfl, rfl⟩
  have hname : (talkAcceptance operation adapter requestId).operation = operation := rfl
  constructor
  -- the checks of `validateExecution`, in their order
  · refine Except.bind_eq_ok.mpr ⟨(), rfl, Except.bind_eq_ok.mpr ⟨(), rfl,
      Except.bind_eq_ok.mpr ⟨_, hevidence, ?_⟩⟩⟩
    dsimp only
    rw [hname, hoperation]
    dsimp only
    rw [hdeclared, hinstalled]
    dsimp only
    refine Except.bind_eq_ok.mpr ⟨(), ?_, Except.bind_eq_ok.mpr ⟨(), rfl,
      Except.bind_eq_ok.mpr ⟨(), hroutes, Except.bind_eq_ok.mpr ⟨(), ?_,
        Except.bind_eq_ok.mpr ⟨(), rfl, Except.bind_eq_ok.mpr ⟨(), ?_,
          Except.bind_eq_ok.mpr ⟨(), ?_, rfl⟩⟩⟩⟩⟩⟩⟩
    · refine Transaction.require_eq_ok.mpr ?_
      rw [Bool.and_eq_true, Bool.and_eq_true, Bool.and_eq_true]
      exact ⟨⟨⟨decide_eq_true rfl, decide_eq_true rfl⟩, decide_eq_true rfl⟩, decide_eq_true rfl⟩
    · refine Transaction.forM_eq_ok fun capability hmem => ?_
      obtain rfl : capability = .unknownOutcome := by simpa [WORKLOAD_OPERATION_CAPABILITIES,
        talkRow] using hmem
      rw [hcapabilities]
      rfl
    · refine Transaction.require_eq_ok.mpr ?_
      rw [Bool.and_eq_true]
      exact ⟨rfl, decide_eq_true rfl⟩
    · rfl
  · rw [operationAdapterCapabilities, hevidence]
    simp only [bind, Except.bind, adapterCapabilities, hname, hoperation, hinstalled]
    rfl

/-- The row of a request that was just accepted. -/
def talkRequest (input : WorkloadAcceptance) (identity : ConversationRequestIdentity) :
    ConversationRequestRow where
  principalId := "00000000-0000-0000-0000-000000000000"
  conversationId := identity.conversation_id
  requestId := identity.request_id
  identity := identity
  execution := some (acceptedRecord input (some identity) 0)

def talkManifest (input : WorkloadAcceptance) : InputManifestRow :=
  ⟨executionInputManifestId input, input.inputs, none⟩

/-- The store with the question. -/
def askedStore : Database :=
  { talkStore with
    conversationRequests := ⟨[talkRequest askAcceptance askIdentity], by simp⟩
    inputManifests := ⟨[talkManifest askAcceptance], by simp⟩ }

def askKey : String × String × String :=
  ("00000000-0000-0000-0000-000000000000", askIdentity.conversation_id, askIdentity.request_id)

def tellKey : String × String × String :=
  ("00000000-0000-0000-0000-000000000000", tellIdentity.conversation_id, tellIdentity.request_id)

/-- The store with the question and the request that overtakes it. -/
def toldStore : Database :=
  { talkStore with
    conversationRequests := ⟨[talkRequest askAcceptance askIdentity,
      talkRequest tellAcceptance tellIdentity], by decide⟩
    inputManifests := ⟨[talkManifest askAcceptance, talkManifest tellAcceptance], by decide⟩ }

theorem ask_validates : validateExecution talkRow askAcceptance 0 (some askIdentity) = .ok () ∧
    operationAdapterCapabilities talkRow askAcceptance = .ok [.unknownOutcome] :=
  talk_validates rfl rfl rfl rfl rfl (.inl rfl)

theorem ask_alone {db : Database}
    (hrow : db.workspaces.get? askAcceptance.execution.workspaceId = some talkRow) :
    db.parallel askAcceptance = false := by
  rw [parallel_eq hrow ask_validates.2]
  rfl

theorem again_validates : validateExecution talkRow againAcceptance 0 (some againIdentity) = .ok () ∧
    operationAdapterCapabilities talkRow againAcceptance = .ok [.unknownOutcome] :=
  talk_validates rfl rfl rfl rfl rfl (.inr rfl)

theorem accept_ask :
    transact talkStore (.accept askAcceptance 0 (some askIdentity)) = askedStore := by
  obtain ⟨hvalid, hcapabilities⟩ := ask_validates
  exact accept_of_checks (talkAcceptance_conforms (by decide) (by decide)) rfl rfl rfl rfl hvalid
    hcapabilities rfl rfl rfl

/-- The second question waits for the first one. -/
theorem accept_again : accept againAcceptance 0 (some againIdentity) askedStore =
    .error (executionConflict "Previous request has not finished finalization.") := by
  obtain ⟨hvalid, hcapabilities⟩ := again_validates
  exact accept_of_refused (talkAcceptance_conforms (by decide) (by decide)) rfl rfl rfl rfl hvalid
    hcapabilities rfl

theorem accept_tell :
    transact askedStore (.accept tellAcceptance 0 (some tellIdentity)) = toldStore := by
  obtain ⟨hvalid, hcapabilities⟩ : validateExecution talkRow tellAcceptance 0
        (some tellIdentity) = .ok () ∧
      operationAdapterCapabilities talkRow tellAcceptance =
        .ok (.unknownOutcome :: PARALLEL_CONVERSATION_CAPABILITIES) :=
    talk_validates rfl rfl rfl rfl rfl (.inl rfl)
  exact accept_of_checks (talkAcceptance_conforms (by decide) (by decide)) rfl rfl rfl rfl hvalid
    hcapabilities rfl rfl rfl

theorem talkStore_fresh : talkStore.Fresh where
  record slot := by
    cases slot with
    | process id =>
        simp only [Database.record, talkStore, Table.get?, List.find?]
        cases decide (talkRow.id = id) <;> rfl
    | request key => rfl
  finiteProcess row hrow := by
    obtain rfl := List.mem_singleton.mp hrow
    rfl

/-- A second question is refused, so the first one is alone; asking it again
replays it. -/
theorem requests_serial_asked :
    Run OrderlySteps talkStore [.accept askAcceptance 0 (some askIdentity),
        .accept againAcceptance 0 (some againIdentity)] askedStore ∧
      accept againAcceptance 0 (some againIdentity) askedStore =
        .error (executionConflict "Previous request has not finished finalization.") ∧
      (∀ key record, askedStore.Open key record →
        SameWorkspace (acceptedRecord askAcceptance (some askIdentity) 0) record → askKey = key) ∧
      ∃ later, askedStore.record (.request askKey) = some later ∧
        later.acceptance = askAcceptance ∧
        ((∃ failure, accept askAcceptance 1 (some askIdentity) askedStore = .error failure) ∨
          accept askAcceptance 1 (some askIdentity) askedStore =
            .ok (.replayed later, askedStore)) := by
  have hrefused : askedStore = transact askedStore (.accept againAcceptance 0 (some againIdentity)) := by
    rw [transact, Transaction.committed, accept_again]
  have horderly : Run OrderlySteps talkStore [.accept askAcceptance 0 (some askIdentity),
      .accept againAcceptance 0 (some againIdentity)] askedStore := by
    refine .cons ⟨accept_ask.symm, ?_⟩ (.single ⟨hrefused, ?_⟩)
    · rintro input now identity - ⟨-, -, key, record, hopen, -⟩
      have hstored := hopen.stored
      rw [talkStore_fresh.record] at hstored
      cases hstored
    · -- the second question does not ask for a parallel adapter
      intro input now identity hoperation hovertakes
      obtain ⟨rfl, -, -⟩ := Operation.accept.inj hoperation
      have hparallel := hovertakes.parallel
      rw [parallel_eq rfl again_validates.2] at hparallel
      cases hparallel
  obtain ⟨-, hreplays, halone⟩ := requests_serial talkStore_fresh (horderly.mono And.left)
    (.nil askedStore)
  refine ⟨horderly, accept_again, fun key record hopen hsame => ?_, ?_⟩
  · exact halone horderly askKey key _ record ⟨rfl, rfl⟩ hopen hsame (ask_alone rfl)
  · obtain ⟨later, hlater, hacceptance, hreplay⟩ := hreplays askKey _ rfl
    exact ⟨later, hlater, hacceptance, hreplay askAcceptance 1 askIdentity rfl⟩

/-- A request under a parallel adapter is accepted while the question, whose
adapter is not parallel, is open. -/
theorem requests_overtaken :
    talkStore.Fresh ∧
      Run Transacts talkStore [.accept askAcceptance 0 (some askIdentity),
        .accept tellAcceptance 0 (some tellIdentity)] toldStore ∧
      ∃ record record', toldStore.Open askKey record ∧ toldStore.Open tellKey record' ∧
        SameWorkspace record record' ∧ toldStore.parallel record.acceptance = false ∧
        askKey ≠ tellKey := by
  refine ⟨talkStore_fresh, .cons accept_ask.symm (.single accept_tell.symm), _, _, ⟨rfl, rfl⟩,
    ⟨rfl, rfl⟩, rfl, ask_alone rfl, by decide⟩

end PocketCoder.Executions
