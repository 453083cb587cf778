import PocketCoder.Dispatcher.Lanes

/-!
An execution is sent at most once to a producer that cannot tell a repeated
one, in every run in which no accept that the relay has fails while its
execution still counts as waiting for capacity.

The wait is the only licence to send a claimed execution again. It is given
up when the accept resolves, but not when the accept fails after it was sent:
the last section is a run in which the reply is lost and the same envelope is
sent twice.
-/

namespace PocketCoder.Dispatcher

open PocketCoder.Foundation PocketCoder.Workspaces PocketCoder.Executions

/-! ### The system -/

structure System.Sound (s : System) : Prop where
  db : s.db.Sound
  memory : s.memory.Sound s.db s.handed
  admitted : ∀ record ∈ s.admitted, Known s.db record.acceptance
  absents : ∀ call ∈ s.absents, ∀ row, call.workspace = some (some row) →
    RowOf s.db call.execution.workspaceId row
  /-- Only claimed executions are sent. -/
  counted : ∀ execution ∈ s.handed, ∃ acceptance, acceptance.execution = execution ∧
    Claimed s.db acceptance
  once : ∀ {acceptance}, Known s.db acceptance → ¬ Reconcilable s.db acceptance →
    s.handed.count acceptance.execution ≤ 1

theorem System.initial_sound {db : Database} (h : db.Fresh) : (System.initial db).Sound where
  db := h.sound
  memory := Memory.initial_sound db []
  admitted _ hrecord := (nomatch hrecord)
  absents _ hcall := (nomatch hcall)
  counted _ hexecution := (nomatch hexecution)
  once _ _ := Nat.zero_le 1

/-- An execution that was sent was known before. -/
theorem System.Sound.known_of_count {s : System} (h : s.Sound) {db' : Database} (howned : db'.Owned)
    (hadvances : Advances s.db db') {acceptance : WorkloadAcceptance}
    (hknown : Known db' acceptance) (hcount : s.handed.count acceptance.execution ≠ 0) :
    Known s.db acceptance := by
  have hmem := List.count_pos_iff.mp (Nat.pos_of_ne_zero hcount)
  obtain ⟨acceptance', hexecution, hclaimed⟩ := h.counted _ hmem
  have hsame := hknown.unique howned (hclaimed.known.mono hadvances) hexecution.symm
  rw [hsame]
  exact hclaimed.known

theorem System.Sound.claimed_of_count {s : System} (h : s.Sound) {acceptance : WorkloadAcceptance}
    (hknown : Known s.db acceptance) (hcount : s.handed.count acceptance.execution ≠ 0) :
    Claimed s.db acceptance := by
  have hmem := List.count_pos_iff.mp (Nat.pos_of_ne_zero hcount)
  obtain ⟨acceptance', hexecution, hclaimed⟩ := h.counted _ hmem
  rw [hknown.unique h.db.owned hclaimed.known hexecution.symm]
  exact hclaimed

/-- The tables change and the dispatcher does nothing. -/
theorem System.Sound.withDb {s : System} (h : s.Sound) {db' : Database}
    (hrefines : Refines s.db db') : { s with db := db' }.Sound := by
  have hadvances := advances_of_refines hrefines h.db
  have hdb' := hrefines.sound h.db
  have hold : ∀ {acceptance}, Known db' acceptance →
      s.handed.count acceptance.execution ≠ 0 → Known s.db acceptance :=
    fun hknown hcount => h.known_of_count hdb'.owned hadvances hknown hcount
  refine ⟨hdb', h.memory.mono hadvances hold, ?_, ?_, ?_, ?_⟩
  · exact fun record hrecord => (h.admitted record hrecord).mono hadvances
  · exact fun call hcall row hrow => (h.absents call hcall row hrow).mono hadvances
  · intro execution hexecution
    obtain ⟨acceptance, rfl, hclaimed⟩ := h.counted execution hexecution
    exact ⟨acceptance, rfl, hclaimed.mono hadvances⟩
  · intro acceptance hknown hnot
    by_cases hcount : s.handed.count acceptance.execution = 0
    · rw [hcount]
      exact Nat.zero_le 1
    · exact h.once (hold hknown hcount) fun hreconcilable =>
        hnot (hadvances.reconcilable hreconcilable)

theorem System.Sound.withMemory {s : System} (h : s.Sound) {memory : Memory}
    (hmemory : memory.Sound s.db s.handed) : { s with memory }.Sound :=
  ⟨h.db, hmemory, h.admitted, h.absents, h.counted, h.once⟩

/-- The event makes an accept fail that the relay has, while its execution is
open and counts as waiting for capacity. -/
def losesAccept (s : System) : Event → Bool
  | .advance control key answer canDispatch now =>
      match (s.memory.lane control).get key with
      | none => false
      | some task =>
          task.point.handed && s.memory.capacityWaits.has key &&
            !(Task.getExecution s.db task.execution).any executionSettled &&
            (task.advance s.db control
              (s.memory.capacityWaits.has (executionInputManifestId task.record.acceptance))
              (s.memory.allowed canDispatch) answer now).any fun progress =>
                progress.task.point.thrown
  | _ => false

theorem advance_step_sound {s : System} (h : s.Sound) {control : Bool} {key : Key} {task : Task}
    (hget : (s.memory.lane control).get key = some task) {progress : Progress}
    (hprogress : progress.Sound s.db s.handed control task)
    (hlost : task.point.handed = true → progress.task.point.thrown = true →
      s.memory.capacityWaits.has key = true → Settled s.db task.record.acceptance) (now : Nat) :
    System.Sound { s with
      db := progress.db
      memory := s.memory.progress control key progress now
      handed := s.handed ++ progress.handed.toList } := by
  have htask := h.memory.tasks hget
  have hadvances := advances_of_refines hprogress.refines h.db
  have hdb' := hprogress.refines.sound h.db
  -- the only execution this step can add to those sent is the task's own, which was known
  have hold : ∀ {acceptance}, Known progress.db acceptance →
      (s.handed ++ progress.handed.toList).count acceptance.execution ≠ 0 →
      Known s.db acceptance := by
    intro acceptance hknown hcount
    by_cases hbefore : s.handed.count acceptance.execution = 0
    · rcases hprogress.hands with hnone | ⟨hsome, -⟩
      · rw [hnone, Option.toList_none, List.append_nil] at hcount
        exact absurd hbefore hcount
      · have hexecution : acceptance.execution = task.record.acceptance.execution := by
          rw [hsome, Option.toList_some, List.count_append, hbefore, Nat.zero_add,
            List.count_singleton] at hcount
          by_contra hne
          exact hcount (if_neg fun heq => hne (eq_of_beq heq).symm)
        rw [hknown.unique hdb'.owned (htask.known.mono hadvances) hexecution]
        exact htask.known
    · exact h.known_of_count hdb'.owned hadvances hknown hbefore
  refine ⟨hdb', h.memory.advance h.db htask hprogress hget hold hlost now, ?_, ?_, ?_, ?_⟩
  · exact fun record hrecord => (h.admitted record hrecord).mono hadvances
  · exact fun call hcall row hrow => (h.absents call hcall row hrow).mono hadvances
  · intro execution hexecution
    rcases List.mem_append.mp hexecution with hbefore | hnew
    · obtain ⟨acceptance, rfl, hclaimed⟩ := h.counted execution hbefore
      exact ⟨acceptance, rfl, hclaimed.mono hadvances⟩
    · rcases hprogress.hands with hnone | ⟨hsome, -, hclaimed, -⟩
      · rw [hnone] at hnew
        exact (nomatch hnew)
      · rw [hsome, Option.toList_some, List.mem_singleton] at hnew
        exact ⟨task.record.acceptance, hnew.symm, hclaimed.mono hadvances⟩
  · intro acceptance hknown hnot
    -- what can be reconciled stays so, so it could not be reconciled before either
    have hnot' : ¬ Reconcilable s.db acceptance := fun hreconcilable =>
      hnot (hadvances.reconcilable hreconcilable)
    by_cases hcount : (s.handed ++ progress.handed.toList).count acceptance.execution = 0
    · exact hcount.trans_le (Nat.zero_le 1)
    have hknown' := hold hknown hcount
    rcases hprogress.hands with hnone | ⟨hsome, -, -, hunsent, -⟩
    · show (s.handed ++ progress.handed.toList).count acceptance.execution ≤ 1
      rw [hnone, Option.toList_none, List.append_nil]
      exact h.once hknown' hnot'
    · show (s.handed ++ progress.handed.toList).count acceptance.execution ≤ 1
      rw [hsome, Option.toList_some, List.count_append, List.count_singleton]
      split_ifs with hexecution
      · -- The execution of the task itself was not sent before.
        have hsame := hknown'.unique h.db.owned htask.known (eq_of_beq hexecution).symm
        rw [hsame] at hnot' ⊢
        rw [hunsent.resolve_left hnot']
      · exact h.once hknown' hnot'

theorem pending_known {db : Database} {record : ExecutionRecord}
    (h : record ∈ pendingProcesses db ∨ record ∈ pendingRequests db) :
    Known db record.acceptance := by
  rcases h with h | h
  · obtain ⟨row, hrow, hrecord⟩ := List.mem_filterMap.mp (List.mem_of_mem_filter h)
    refine ⟨.process row.id, record, ?_, rfl, trivial⟩
    rw [Database.record, Table.get?_of_mem hrow]
    exact hrecord
  · obtain ⟨row, hrow, hrecord⟩ := List.mem_filterMap.mp (List.mem_of_mem_filter h)
    refine ⟨.request row.key, record, ?_, rfl, trivial⟩
    rw [record_request hrow]
    exact hrecord

/-- A settled execution is read as settled. -/
theorem settled_of_getExecution {db : Database} (howned : db.Owned)
    {acceptance : WorkloadAcceptance} (hknown : Known db acceptance)
    (h : (Task.getExecution db acceptance.execution).any executionSettled = true) :
    Settled db acceptance := by
  obtain ⟨record, hget, hacceptance⟩ := getExecution_of_known howned hknown
  rw [hget, Option.any_some] at h
  obtain ⟨slot, record', hrecord, hacceptance', rfl⟩ := (stored_of_getExecution hget).2
  exact ⟨slot, record', hrecord, hacceptance'.trans hacceptance, h⟩

/-- **One event.** -/
theorem step_sound {concurrency : Nat} {s s' : System} {event : Event}
    (hstep : step concurrency s event = some s') (hsafe : losesAccept s event = false)
    (h : s.Sound) : s'.Sound := by
  cases event with
  | transact operation =>
      obtain rfl := Option.some.inj hstep
      exact h.withDb (transact_refines h.db.owned operation)
  | admitCancel input now =>
      simp only [step] at hstep
      split at hstep
      · obtain rfl := Option.some.inj hstep
        exact h
      · rename_i record db' hcancel
        obtain rfl := Option.some.inj hstep
        have hrefines := (cancel_rewrites h.db.owned hcancel).refines
        have hs := h.withDb hrefines
        refine ⟨hs.db, hs.memory, ?_, hs.absents, hs.counted, hs.once⟩
        intro record' hrecord'
        rcases List.mem_append.mp hrecord' with hold | hnew
        · exact hs.admitted record' hold
        · rw [List.mem_singleton.mp hnew]
          exact (cancel_known hcancel).mono (advances_of_refines hrefines h.db)
  | cancel index now =>
      obtain ⟨record, hrecord, rfl⟩ := Option.map_eq_some_iff.mp hstep
      have hs := h.withMemory (h.memory.cancel now (h.admitted record (List.mem_of_getElem? hrecord)))
      exact ⟨hs.db, hs.memory, fun record' hrecord' =>
        h.admitted record' (List.mem_of_mem_eraseIdx hrecord'), hs.absents, hs.counted, hs.once⟩
  | tick canDispatch =>
      obtain rfl := Option.some.inj hstep
      exact h.withMemory (h.memory.tick canDispatch)
  | readProcesses =>
      simp only [step] at hstep
      split at hstep
      · obtain rfl := Option.some.inj hstep
        exact h.withMemory (h.memory.withScan fun record hrecord => pending_known (.inl hrecord))
      · cases hstep
  | readRequests =>
      simp only [step] at hstep
      split at hstep
      · rename_i processes hscan
        obtain rfl := Option.some.inj hstep
        refine h.withMemory (h.memory.withScan fun record hrecord => ?_)
        rcases List.mem_append.mp hrecord with hprocess | hrequest
        · exact h.memory.scan record (by rw [hscan]; exact hprocess)
        · exact pending_known (.inr hrequest)
      · cases hstep
  | scan answers canDispatch now =>
      simp only [step] at hstep
      split at hstep
      · rename_i pending hscan
        obtain rfl := Option.some.inj hstep
        refine h.withMemory (h.memory.scanPending (fun record hrecord => ?_) _ _ _ _)
        exact h.memory.scan record (by rw [hscan]; exact hrecord)
      · cases hstep
  | absent execution epoch =>
      obtain rfl := Option.some.inj hstep
      refine ⟨h.db, h.memory, h.admitted, fun call hcall row hrow => ?_, h.counted, h.once⟩
      rcases List.mem_append.mp hcall with hold | hnew
      · exact h.absents call hold row hrow
      · rw [List.mem_singleton.mp hnew] at hrow
        cases hrow
  | absentWorkspace index =>
      obtain ⟨call, hcall, rfl⟩ := Option.map_eq_some_iff.mp hstep
      refine ⟨h.db, h.memory, h.admitted, fun call' hcall' row hrow => ?_, h.counted, h.once⟩
      rcases List.mem_or_eq_of_mem_set hcall' with hold | rfl
      · exact h.absents call' hold row hrow
      · exact rowOf_get (Option.some.inj hrow)
  | absentRecord index canDispatch now =>
      simp only [step] at hstep
      split at hstep
      · rename_i execution epoch workspace hcall
        have hrest : ∀ call ∈ s.absents.eraseIdx index, ∀ row, call.workspace = some (some row) →
            RowOf s.db call.execution.workspaceId row :=
          fun call' hcall' => h.absents call' (List.mem_of_mem_eraseIdx hcall')
        split at hstep
        · obtain rfl := Option.some.inj hstep
          exact ⟨h.db, h.memory, h.admitted, hrest, h.counted, h.once⟩
        · rename_i record hreplayable
          obtain rfl := Option.some.inj hstep
          obtain ⟨hget, hguard⟩ := Option.filter_eq_some_iff.mp hreplayable
          obtain ⟨hexecution, hstored⟩ := stored_of_getExecution hget
          -- The row that was read lets the execution be reconciled.
          have hreconcilable : Reconcilable s.db record.acceptance := by
            simp only [Bool.and_eq_true] at hguard
            cases workspace with
            | none => exact absurd hguard.1.1 (by simp)
            | some row =>
                have hcan := hguard.1.1
                simp only [Option.any_some, Bool.and_eq_true] at hcan
                refine h.absents _ (List.mem_of_getElem? hcall) row rfl _ ?_ hcan.2
                exact congrArg WorkloadExecutionReference.workspaceId hexecution
          have hmemory := h.memory.absent epoch hstored.known hreconcilable canDispatch concurrency
            now
          exact ⟨h.db, hmemory, h.admitted, hrest, h.counted, h.once⟩
      · cases hstep
  | drain workspaceId =>
      obtain rfl := Option.some.inj hstep
      exact h.withMemory (h.memory.drain workspaceId)
  | stop =>
      obtain rfl := Option.some.inj hstep
      exact h.withMemory ⟨h.memory.tasks, fun hitem => (by cases hitem),
        fun hepoch => (by cases hepoch), h.memory.scan, h.memory.waits⟩
  | advance control key answer canDispatch now =>
      simp only [step] at hstep
      simp only [losesAccept] at hsafe
      cases hget : (s.memory.lane control).get key with
      | none =>
          rw [hget] at hstep
          cases hstep
      | some task =>
          rw [hget] at hstep hsafe
          obtain ⟨progress, hprogress, rfl⟩ := Option.map_eq_some_iff.mp hstep
          have htask := h.memory.tasks hget
          dsimp only at hsafe
          rw [hprogress, Option.any_some] at hsafe
          -- a task moves: what its step may do is said once, for every point, by `advance_sound`
          refine advance_step_sound h hget (advance_sound h.db htask ?_ ?_ hprogress) ?_ now
          · exact h.claimed_of_count htask.known
          · intro hidle hwait hlane
            -- this task holds the lane, so no other one is sending the execution
            rcases h.memory.waits htask.known hwait with hunsent | hsettled | ⟨task', hget', hopen⟩
            · exact .inl hunsent
            · exact .inr hsettled
            · subst hlane
              rw [← htask.key] at hget'
              obtain rfl := Option.some.inj (hget.symm.trans hget')
              exact absurd (hidle.symm.trans hopen) (by simp)
          · intro hhanded hthrown hwait
            refine settled_of_getExecution h.db.owned htask.known ?_
            simpa [hhanded, hthrown, hwait, Task.execution] using hsafe
  | finish control key canDispatch now =>
      simp only [step] at hstep
      split at hstep
      · rename_i task hget
        split at hstep
        · rename_i result hpoint
          obtain rfl := Option.some.inj hstep
          -- recording the result touches the throttle and the waits, never a lane
          have hlane : ((s.memory.recordResult control key task result now).lane control).get key =
              some task := by
            rw [← hget]
            cases result with
            | performed =>
                unfold Memory.recordResult
                dsimp only
                split_ifs <;> cases control <;> rfl
            | skipped => rfl
            | thrown capacity => cases capacity <;> cases control <;> rfl
          exact h.withMemory (Memory.Sound.release h.db (h.memory.recordResult _ _ _ _ _) hlane
            (by rw [hpoint]; rfl) _ _ _)
        · cases hstep
      · cases hstep
  | restart =>
      obtain rfl := Option.some.inj hstep
      -- the process forgets its memory, and what was sent stays sent
      exact ⟨h.db, Memory.initial_sound s.db s.handed, fun _ hrecord => (by cases hrecord),
        fun _ hcall => (by cases hcall), h.counted, h.once⟩

/-! ### Runs -/

/-- The steps in which no accept is lost. -/
def SafeSteps (concurrency : Nat) (s : System) (event : Event) (s' : System) : Prop :=
  Steps concurrency s event s' ∧ losesAccept s event = false

/-- **An execution is sent at most once** to a producer that cannot reconcile
it, in every run that loses no accept. -/
theorem accept_once {db₀ : Database} (hfresh : db₀.Fresh) {concurrency : Nat} {events : List Event}
    {s : System} (hrun : Run (SafeSteps concurrency) (System.initial db₀) events s) {slot : Slot}
    {record : ExecutionRecord} {row : WorkspaceRow} (hrecord : s.db.record slot = some record)
    (hrow : s.db.workspaces.get? record.acceptance.execution.workspaceId = some row)
    (hproducer : canReconcile row record.acceptance = false) :
    s.handed.count record.acceptance.execution ≤ 1 := by
  have hsound : s.Sound :=
    hrun.invariant (fun hstep h => step_sound hstep.1 hstep.2 h) (System.initial_sound hfresh)
  refine hsound.once ⟨slot, record, hrecord, rfl, trivial⟩ ?_
  rintro ⟨row', hrow', hcan⟩
  obtain rfl := Option.some.inj (hrow.symm.trans hrow')
  exact absurd (hproducer.symm.trans hcan) (by simp)

/-! ### A lost reply -/

def chatExecution : WorkloadExecutionReference where
  workspaceId := "00000000-0000-0000-0000-000000000000"
  incarnationId := "first"
  owner := .conversationRequest
  requestId := "ffffffff-ffff-ffff-ffff-ffffffffffff"

def chatObject : InputObjectReference where
  workspaceId := "00000000-0000-0000-0000-000000000000"
  fileId := "00000000-0000-0000-0000-000000000000"
  objectVersion := digestOf (.str "version")
  name := "notes"
  mediaType := "text/plain"
  sizeBytes := 1
  digest := digestOf (.str "bytes")
  visibility := .ready

def chatAcceptance : WorkloadAcceptance :=
  WorkloadAcceptance.sealed
    { execution := chatExecution
      callerPrincipalId := "00000000-0000-0000-0000-000000000000"
      templateDigest := digestOf (.str "template")
      adapterDigest := digestOf (.str "adapter")
      operation := "ask"
      input := []
      inputs := AcceptedInputManifest.sealed
        { workspaceId := chatExecution.workspaceId, incarnationId := chatExecution.incarnationId
          digest := "", objects := [chatObject] }
      bindingSetDigest := digestOf (.arr [])
      fingerprint := "" }

def chatIdentity : ConversationRequestIdentity where
  authority := .generic
  conversation_id := "00000000-0000-0000-0000-000000000000"
  request_id := chatExecution.requestId
  turn_id := "00000000-0000-0000-0000-000000000000"
  request_fingerprint := String.ofList (List.replicate 64 '0')

/-- The routes of the execution protocol, with the sizes of their requests. -/
def chatRoutes (accept lookup ack cancel : Nat) : List ServiceRoute :=
  [⟨.POST, "/executions/accept", .buffered, accept, 0⟩,
    ⟨.POST, "/executions/lookup", .buffered, lookup, 0⟩,
    ⟨.POST, "/executions/ack", .buffered, ack, 0⟩,
    ⟨.POST, "/executions/cancel", .buffered, cancel, 0⟩]

def envelopeSize (body : Json) : Nat := (utf8 body.stringify).length

attribute [irreducible] envelopeSize

theorem envelopeSize_eq (body : Json) : (utf8 body.stringify).length = envelopeSize body := by
  unfold envelopeSize
  rfl

def chatSpec : WorkloadSpec where
  image := "image"
  runtime := "runtime"
  adapters := [("chat",
    ⟨.service, digestOf (.str "adapter"), "pocketcoder.execution/v1", some "api"⟩)]
  operations := [("ask", ⟨"chat", .object [] .nil, [], []⟩)]
  services := [("api", chatRoutes
    (envelopeSize (executionAcceptEnvelope chatAcceptance (some chatIdentity)))
    (envelopeSize (executionLookupEnvelope chatExecution))
    (envelopeSize (executionAckEnvelope chatAcceptance))
    (envelopeSize (executionCancelEnvelope chatAcceptance chatExecution.requestId)))]
  credentialSlots := []
  limits := { inputFileBytes := 1, stagedInputBytes := 1, inputFiles := 1 }

/-- A producer that can neither look up nor deduplicate. -/
def chatInstalled : InstalledWorkload where
  workspaceId := chatExecution.workspaceId
  incarnationId := chatExecution.incarnationId
  templateDigest := digestOf (.str "template")
  image := "image"
  runtime := "runtime"
  capabilities := [.unknownOutcome, .immutableInputs]
  adapters := [("chat",
    ⟨.service, digestOf (.str "adapter"), "pocketcoder.execution/v1", [.unknownOutcome]⟩)]

def chatRow : WorkspaceRow where
  id := chatExecution.workspaceId
  principalId := "00000000-0000-0000-0000-000000000000"
  templateName := "template"
  templateDigest := digestOf (.str "template")
  state := .ready
  providerRef := some .null
  runtimeRegistration := some
    { incarnationId := "first", containerIdentity := "container", profile := .service
      producer := some chatInstalled
      template := some { digest := digestOf (.str "template"), spec := chatSpec }
      readyAt := some (toISOString 0), endedAt := none }
  processExecution := none
  finiteProcess := none
  connectionEpoch := 1
  deadlineAt := 100
  createdAt := 0
  purgeRequestedAt := none

def chatObjectRow : InputObjectRow where
  workspaceId := chatObject.workspaceId
  fileId := chatObject.fileId
  principalId := "00000000-0000-0000-0000-000000000000"
  reference := chatObject
  state := .ready
  retainedUntil := 100
  retentionMs := 0

def chatStore : Database where
  workspaces := ⟨[chatRow], by simp⟩
  conversationRequests := .empty
  principals := ⟨[{ id := "00000000-0000-0000-0000-000000000000", disabledAt := none }],
    List.nodup_singleton "00000000-0000-0000-0000-000000000000"⟩
  inputManifests := .empty
  inputObjects := ⟨[chatObjectRow], by simp⟩

theorem chatAcceptance_conforms : chatAcceptance.conforms = true := by
  obtain ⟨hexecution, huuid, hincarnation, hname, htext, hmedia⟩ :
      chatExecution.conforms = true ∧ isUuid "00000000-0000-0000-0000-000000000000" = true ∧
      isText 256 chatExecution.incarnationId = true ∧ isWorkloadName "ask" = true ∧
      isText 255 "notes" = true ∧ isMediaType "text/plain" = true := by decide
  have hworkspace : isUuid chatExecution.workspaceId = true := huuid
  have hsame : chatExecution.workspaceId = "00000000-0000-0000-0000-000000000000" := rfl
  have hobject : chatObject.conforms = true := by
    simp [InputObjectReference.conforms, chatObject, huuid, isDigest_digestOf, htext, hmedia,
      isCount, MAX_SAFE_INTEGER]
  simp [WorkloadAcceptance.conforms, chatAcceptance, WorkloadAcceptance.sealed, hexecution,
    huuid, hworkspace, hincarnation, hname, isDigest_digestOf, AcceptedInputManifest.conforms,
    AcceptedInputManifest.sealed, AcceptedInputManifest.contents, WorkloadAcceptance.facts, hobject]
  exact ⟨rfl, rfl⟩

theorem chatRoutes_find {accept lookup ack cancel : Nat} {name : String} {size : Nat}
    (h : (name, size) ∈
      [("accept", accept), ("lookup", lookup), ("ack", ack), ("cancel", cancel)]) :
    (chatRoutes accept lookup ack cancel).find? (fun route => route.method = .POST &&
      route.path = "/executions/" ++ name && route.responseMode = .buffered) =
        some ⟨.POST, "/executions/" ++ name, .buffered, size, 0⟩ := by
  simp only [List.mem_cons, Prod.mk.injEq, List.not_mem_nil, or_false] at h
  rcases h with ⟨rfl, rfl⟩ | ⟨rfl, rfl⟩ | ⟨rfl, rfl⟩ | ⟨rfl, rfl⟩ <;> rfl

/-- Envelopes that fit their routes pass. -/
theorem validateServiceRoutes_chat {input : WorkloadAcceptance}
    {identity : Option ConversationRequestIdentity} {accept lookup ack cancel : Nat}
    (haccept : envelopeSize (executionAcceptEnvelope input identity) = accept)
    (hlookup : envelopeSize (executionLookupEnvelope input.execution) = lookup)
    (hack : envelopeSize (executionAckEnvelope input) = ack)
    (hcancel : envelopeSize (executionCancelEnvelope input input.execution.requestId) = cancel) :
    validateServiceRoutes [("api", chatRoutes accept lookup ack cancel)] (some "api") input
      identity = .ok () := by
  refine validateServiceRoutes_eq_ok rfl fun envelope henvelope => ?_
  have hsize : (envelope.1, envelopeSize envelope.2) ∈
      [("accept", accept), ("lookup", lookup), ("ack", ack), ("cancel", cancel)] := by
    simp only [List.mem_cons, List.not_mem_nil, or_false] at henvelope ⊢
    rcases henvelope with rfl | rfl | rfl | rfl
    · exact .inl (by rw [haccept])
    · exact .inr (.inl (by rw [hlookup]))
    · exact .inr (.inr (.inl (by rw [hack])))
    · exact .inr (.inr (.inr (by rw [hcancel])))
  exact ⟨_, chatRoutes_find hsize, by rw [envelopeSize_eq]⟩

theorem chatRow_evidence : installedEvidence chatRow chatAcceptance =
    .ok (⟨digestOf (.str "template"), chatSpec⟩, chatInstalled) :=
  if_pos ⟨rfl, rfl, rfl, rfl, rfl, rfl, rfl⟩

theorem chatRow_validates : validateExecution chatRow chatAcceptance 0 (some chatIdentity) =
    .ok () := by
  have hroutes : validateServiceRoutes chatSpec.services (some "api") chatAcceptance
      (some chatIdentity) = .ok () := validateServiceRoutes_chat rfl rfl rfl rfl
  refine Except.bind_eq_ok.mpr ⟨(), rfl, Except.bind_eq_ok.mpr ⟨(), rfl,
    Except.bind_eq_ok.mpr ⟨_, chatRow_evidence, ?_⟩⟩⟩
  refine Except.bind_eq_ok.mpr ⟨(), ?_, Except.bind_eq_ok.mpr ⟨(), rfl,
    Except.bind_eq_ok.mpr ⟨(), hroutes, Except.bind_eq_ok.mpr ⟨(), rfl,
      Except.bind_eq_ok.mpr ⟨(), rfl, Except.bind_eq_ok.mpr ⟨(), ?_,
        Except.bind_eq_ok.mpr ⟨(), ?_, rfl⟩⟩⟩⟩⟩⟩⟩
  · refine Transaction.require_eq_ok.mpr ?_
    rw [Bool.and_eq_true, Bool.and_eq_true, Bool.and_eq_true]
    exact ⟨⟨⟨decide_eq_true rfl, decide_eq_true rfl⟩, rfl⟩, rfl⟩
  · refine Transaction.require_eq_ok.mpr ?_
    rw [Bool.and_eq_true]
    exact ⟨rfl, decide_eq_true rfl⟩
  · rfl


/-- The store with a record of the request. -/
def chatWith (record : ExecutionRecord) : Database :=
  { chatStore with
    conversationRequests := ⟨[
      { principalId := "00000000-0000-0000-0000-000000000000"
        conversationId := chatIdentity.conversation_id
        requestId := chatIdentity.request_id, identity := chatIdentity
        execution := some record }], by simp⟩
    inputManifests :=
      ⟨[⟨executionInputManifestId chatAcceptance, chatAcceptance.inputs, none⟩], by simp⟩ }

def chatAccepted : ExecutionRecord := acceptedRecord chatAcceptance (some chatIdentity) 0

def chatClaimed : ExecutionRecord := claimedRecord chatAccepted 0

theorem accept_chat :
    transact chatStore (.accept chatAcceptance 0 (some chatIdentity)) = chatWith chatAccepted := by
  have hcapabilities : operationAdapterCapabilities chatRow chatAcceptance =
      .ok [.unknownOutcome] := by
    rw [operationAdapterCapabilities, chatRow_evidence]
    rfl
  have hidentity : validateConversationExecution chatStore chatAcceptance (some chatIdentity)
      false = .ok chatIdentity := by
    have hconforms : chatIdentity.conforms = true := by decide
    refine Except.bind_eq_ok.mpr ⟨(), ?_, rfl⟩
    rw [hconforms]
    rfl
  have hpin : pinExecutionInputs chatAcceptance 0 chatStore = .ok ((), { chatStore with
      inputManifests :=
        ⟨[⟨executionInputManifestId chatAcceptance, chatAcceptance.inputs, none⟩], by simp⟩ }) := by
    rw [pinExecutionInputs, Transaction.get_bind, Transaction.check_bind_eq_ok]
    refine ⟨(), ?_, rfl⟩
    refine Except.bind_eq_ok.mpr ⟨(), Except.bind_eq_ok.mpr ⟨(), ?_, rfl⟩, rfl⟩
    refine Transaction.require_eq_ok.mpr ?_
    have hobject : chatStore.inputObjects.get?
        (chatAcceptance.execution.workspaceId, chatObject.fileId) = some chatObjectRow := rfl
    rw [hobject, Option.any_some, Bool.and_eq_true]
    exact ⟨rfl, decide_eq_true rfl⟩
  exact accept_of_checks chatAcceptance_conforms rfl rfl rfl rfl chatRow_validates hcapabilities
    hidentity hpin rfl


theorem chatWith_revalidates {record : ExecutionRecord}
    (hacceptance : record.acceptance = chatAcceptance)
    (hidentity : record.conversationIdentity = some chatIdentity) :
    revalidateExecution (chatWith record) chatRow record 0 = .ok () := by
  rw [revalidateExecution, hacceptance, hidentity]
  refine Except.bind_eq_ok.mpr ⟨(), rfl, Except.bind_eq_ok.mpr ⟨(), chatRow_validates, ?_⟩⟩
  refine Except.bind_eq_ok.mpr ⟨(), ?_, Except.bind_eq_ok.mpr ⟨(), ?_, rfl⟩⟩
  · have hmanifest : (chatWith record).inputManifests.get?
        (executionInputManifestId chatAcceptance) =
        some ⟨executionInputManifestId chatAcceptance, chatAcceptance.inputs, none⟩ := rfl
    refine Transaction.require_eq_ok.mpr ?_
    rw [hmanifest, Option.any_some, Bool.and_eq_true]
    exact ⟨rfl, decide_eq_true rfl⟩
  · have hobject : (chatWith record).inputObjects.get?
        (chatAcceptance.execution.workspaceId, chatObject.fileId) = some chatObjectRow := rfl
    refine Transaction.require_eq_ok.mpr ?_
    rw [hobject, Option.any_some, Bool.and_eq_true]
    exact ⟨rfl, decide_eq_true rfl⟩

theorem claim_chatAccepted :
    claim chatExecution 0 (chatWith chatAccepted) =
      .ok (some ⟨true, chatClaimed⟩, chatWith chatClaimed) := by
  rw [claim_of_revalidated rfl rfl rfl rfl (chatWith_revalidates rfl rfl)]
  rfl

theorem claim_chatClaimed :
    claim chatExecution 0 (chatWith chatClaimed) =
      .ok (some ⟨false, chatClaimed⟩, chatWith chatClaimed) := by
  rw [claim_of_revalidated rfl rfl rfl rfl (chatWith_revalidates rfl rfl),
    claimedRecord_of_claimed 0 rfl]
  rfl


/-- The state after some events that lose no accept. -/
def play : System → List Event → Option System
  | s, [] => some s
  | s, event :: events =>
      if losesAccept s event then none else (step 1 s event).bind fun s' => play s' events

theorem run_of_play {s s' : System} {events : List Event} (h : play s events = some s') :
    Run (SafeSteps 1) s events s' := by
  induction events generalizing s with
  | nil =>
      obtain rfl := Option.some.inj h
      exact .nil s
  | cons event events ih =>
      rw [play] at h
      split_ifs at h with hsafe
      obtain ⟨s₁, hstep, hrest⟩ := Option.bind_eq_some_iff.mp h
      exact .cons ⟨hstep, Bool.not_eq_true _ ▸ hsafe⟩ (ih hrest)

def chatKey : Key := executionInputManifestId chatAcceptance

/-- The task of the execution at a point. -/
def chatTask (started : ExecutionRecord) (point : TaskPoint) : Task :=
  ⟨started, started, none, false, 0, point⟩

/-- The dispatcher with a task at a point, or none. -/
def chatSystem (record : ExecutionRecord) (ordinary : JsMap Key Task) (waiting lost : Bool)
    (handed : List WorkloadExecutionReference) : System where
  db := chatWith record
  memory := { Memory.initial with
    ordinary
    capacityWaits := if waiting then JsMap.empty.set chatKey 0 else .empty
    failures :=
      if lost then JsMap.empty.set (chatKey, false) ⟨chatExecution.workspaceId, 0⟩ else .empty
    retries := if lost then JsMap.empty.set (chatKey, false) ⟨1, 0⟩ else .empty }
  admitted := []
  absents := []
  handed := handed

def chatAt (record started : ExecutionRecord) (point : TaskPoint) : Bool → Bool →
    List WorkloadExecutionReference → System :=
  chatSystem record (JsMap.empty.set chatKey (chatTask started point))

section Play

variable {record started next : ExecutionRecord}
  {point point' : TaskPoint} {waiting lost : Bool} {handed : List WorkloadExecutionReference}
  {events : List Event}

/-- The call the task awaits succeeds. -/
theorem play_advance {sent : Option WorkloadExecutionReference}
    (hidle : point.handed = false)
    (h : ∀ wait, (chatTask started point).advance (chatWith record) false wait true .yes 0 =
      some { (chatTask started point).goto (chatWith next) point' with handed := sent }) :
    play (chatAt record started point waiting lost handed)
        (.advance false chatKey .yes true 0 :: events) =
      play (chatAt next started point' waiting lost (handed ++ sent.toList)) events := by
  have hget : ((chatAt record started point waiting lost handed).memory.lane false).get chatKey =
      some (chatTask started point) := rfl
  have hdb : (chatAt record started point waiting lost handed).db = chatWith record := rfl
  have hallowed : (chatAt record started point waiting lost handed).memory.allowed true =
      true := rfl
  have hpoint : (chatTask started point).point.handed = false := hidle
  rw [play]
  simp only [losesAccept, step, hget, hdb, hallowed, h, hpoint, Bool.false_and,
    Bool.false_eq_true, if_false]
  rfl

theorem advance_claim {first resend wait : Bool} (hstarted : started.acceptance = chatAcceptance)
    (h : claim chatExecution 0 (chatWith record) = .ok (some ⟨first, next⟩, chatWith next)) :
    (chatTask started (.claim chatRow resend)).advance (chatWith record) false wait true .yes 0 =
      some ((chatTask started (.claim chatRow resend)).goto (chatWith next)
        (.claimed chatRow resend ⟨first, next⟩)) := by
  have hexecution : chatAcceptance.execution = chatExecution := rfl
  simp only [chatTask, Task.advance, Task.execution, hstarted, hexecution, h]

theorem advance_reclaim {row : WorkspaceRow} {current : ExecutionRecord} {first wait : Bool}
    (h : claim current.acceptance.execution 0 (chatWith record) =
      .ok (some ⟨first, next⟩, chatWith next)) (hopen : executionSettled next = false) :
    (chatTask started (.reclaim row current)).advance (chatWith record) false wait true .yes 0 =
      some ((chatTask started (.reclaim row current)).goto (chatWith next)
        (.reclaimed row current next)) := by
  simp only [chatTask, Task.advance, h, hopen, Bool.false_eq_true, if_false]

theorem advance_reclaimed {row : WorkspaceRow} {current latest : ExecutionRecord} {wait : Bool}
    (hcancel : latest.cancel = none)
    (howner : current.acceptance.execution.owner = .conversationRequest)
    (hcallable : callable row current.acceptance "accept"
      (executionAcceptEnvelope current.acceptance current.conversationIdentity) = true) :
    (chatTask started (.reclaimed row current latest)).advance (chatWith record) false wait true
        .yes 0 =
      some { (chatTask started (.reclaimed row current latest)).goto (chatWith record)
        (.relay .accept row current) with handed := some current.acceptance.execution } := by
  simp only [chatTask, Task.advance, Task.onReclaimed, Purpose.envelope, hcancel, howner,
    hcallable, Option.isSome_none, if_true, Bool.false_eq_true, if_false]

end Play

/-- The events of a scan that starts the task, and its first two answers. -/
def chatScan : List Event :=
  [.tick true, .readProcesses, .readRequests, .scan (fun _ => true) true 0,
    .advance false chatKey .yes true 0, .advance false chatKey .yes true 0]

/-- A claim, the publication of the inputs, the second claim and the call. -/
def chatSend : List Event :=
  List.replicate 5 (.advance false chatKey .yes true 0)

theorem play_send {lost : Bool} {handed : List WorkloadExecutionReference} :
    play (chatAt chatClaimed chatClaimed (.claim chatRow true) true lost handed) chatSend =
      some (chatAt chatClaimed chatClaimed (.relay .accept chatRow chatClaimed) true lost
        (handed ++ [chatExecution])) := by
  have hcallable : callable chatRow chatClaimed.acceptance "accept"
      (executionAcceptEnvelope chatClaimed.acceptance chatClaimed.conversationIdentity) = true := by
    have hroute : executionRoute chatRow chatClaimed.acceptance "accept" =
        some ⟨.POST, "/executions/accept", .buffered,
          envelopeSize (executionAcceptEnvelope chatAcceptance (some chatIdentity)), 0⟩ := rfl
    rw [callable, hroute, Option.any_some, envelopeSize_eq]
    exact decide_eq_true (le_refl _)
  rw [chatSend]
  refine (play_advance rfl fun _ => advance_claim rfl claim_chatClaimed).trans ?_
  refine (play_advance rfl fun _ => rfl).trans ?_
  refine (play_advance rfl fun _ => rfl).trans ?_
  refine (play_advance rfl fun _ => advance_reclaim claim_chatClaimed rfl).trans ?_
  refine (play_advance rfl fun _ => advance_reclaimed rfl rfl hcallable).trans ?_
  simp only [Option.toList_none, List.append_nil, Option.toList_some]
  rfl

/-- The claim is granted, the publication waits for capacity, and the next
scan starts the task again. -/
def chatWait : List Event :=
  [.advance false chatKey .yes true 0, .advance false chatKey .yes true 0,
    .advance false chatKey .capacity true 0, .finish false chatKey true 0] ++ chatScan

theorem play_scan : play (chatSystem chatAccepted .empty false false []) chatScan =
    some (chatAt chatAccepted chatAccepted (.claim chatRow false) false false []) := rfl

theorem play_wait : play (chatAt chatAccepted chatAccepted (.claim chatRow false) false false [])
    chatWait = some (chatAt chatClaimed chatClaimed (.claim chatRow true) true false []) := by
  refine (play_advance rfl fun _ => advance_claim rfl claim_chatAccepted).trans ?_
  rfl

theorem play_retry : play (chatSystem chatClaimed .empty true true [chatExecution]) chatScan =
    some (chatAt chatClaimed chatClaimed (.claim chatRow true) true true [chatExecution]) := rfl


theorem chatStore_fresh : chatStore.Fresh where
  record slot := by
    cases slot with
    | process id =>
        simp only [Database.record, chatStore, Table.get?, List.find?]
        cases decide (chatRow.id = id) <;> rfl
    | request key => rfl
  finiteProcess row hrow := by
    obtain rfl := List.mem_singleton.mp hrow
    rfl

/-- The events until the envelope is given to the relay. -/
def chatFirst : List Event :=
  .transact (.accept chatAcceptance 0 (some chatIdentity)) :: (chatScan ++ (chatWait ++ chatSend))

theorem run_first : Run (SafeSteps 1) (System.initial chatStore) chatFirst
    (chatAt chatClaimed chatClaimed (.relay .accept chatRow chatClaimed) true false
      [chatExecution]) := by
  have haccept : Steps 1 (System.initial chatStore)
      (.transact (.accept chatAcceptance 0 (some chatIdentity)))
      (chatSystem chatAccepted .empty false false []) := by
    have htransact := accept_chat
    rw [Steps, step, System.initial, htransact]
    rfl
  refine .cons ⟨haccept, rfl⟩ ?_
  exact (run_of_play play_scan).append ((run_of_play play_wait).append (run_of_play play_send))

/-- The slot of the request. -/
def chatSlot : Slot :=
  .request (chatRow.principalId, chatIdentity.conversation_id, chatIdentity.request_id)

theorem accept_once_chat :
    (chatAt chatClaimed chatClaimed (.relay .accept chatRow chatClaimed) true false
      [chatExecution]).handed.count chatClaimed.acceptance.execution ≤ 1 := by
  have hrecord : (chatAt chatClaimed chatClaimed (.relay .accept chatRow chatClaimed) true false
      [chatExecution]).db.record chatSlot = some chatClaimed := rfl
  have hproducer : canReconcile chatRow chatClaimed.acceptance = false := rfl
  exact accept_once chatStore_fresh run_first hrecord rfl hproducer

/-- The reply is lost, and the next scan sends the envelope again. -/
def chatSecond : List Event :=
  [.advance false chatKey .throws true 0, .finish false chatKey true 0] ++ (chatScan ++ chatSend)

/-- **A lost reply.** The execution waited for capacity; its accept is sent,
the reply is lost, and it is sent again. -/
theorem accept_twice :
    ∃ s, Run (Steps 1) (System.initial chatStore) (chatFirst ++ chatSecond) s ∧
      chatStore.Fresh ∧
      s.db.record chatSlot = some chatClaimed ∧
      s.db.workspaces.get? chatExecution.workspaceId = some chatRow ∧
      canReconcile chatRow chatClaimed.acceptance = false ∧
      s.handed.count chatClaimed.acceptance.execution = 2 := by
  refine ⟨chatAt chatClaimed chatClaimed (.relay .accept chatRow chatClaimed) true true
      [chatExecution, chatExecution], ?_, chatStore_fresh, rfl, rfl, rfl, rfl⟩
  refine (run_first.mono fun hstep => hstep.1).append ?_
  have hlost : Run (Steps 1) (chatAt chatClaimed chatClaimed (.relay .accept chatRow chatClaimed)
      true false [chatExecution])
      [.advance false chatKey .throws true 0, .finish false chatKey true 0]
      (chatSystem chatClaimed .empty true true [chatExecution]) :=
    .cons rfl (.single rfl)
  refine hlost.append ?_
  exact ((run_of_play play_retry).append (run_of_play play_send)).mono fun hstep => hstep.1

end PocketCoder.Dispatcher
