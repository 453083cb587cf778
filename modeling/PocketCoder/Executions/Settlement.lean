import PocketCoder.Executions.Effects

/-!
Settlement is final: across any interleaving of the transactions a settled
record keeps its phase, outcome and time, and nothing that was set on a
record is ever set again. The life of one record gives it for one move,
`transact_refines` for one transaction, and a run is a chain of those.
-/

namespace PocketCoder.Executions

open PocketCoder.Foundation PocketCoder.Workspaces

/-- A store before its first execution: no records, and no facts. -/
structure Database.Fresh (db : Database) : Prop where
  record : ∀ slot, db.record slot = none
  finiteProcess : ∀ row ∈ db.workspaces.rows, row.finiteProcess = none

/-- The records are in their slots, and their times agree with their phases. -/
structure Database.Sound (db : Database) : Prop where
  owned : db.Owned
  wellFormed : ∀ {slot record}, db.record slot = some record → record.WellFormed

theorem Database.Fresh.sound {db : Database} (h : db.Fresh) : db.Sound := by
  have hnone : ∀ {slot record}, db.record slot ≠ some record := by
    intro slot record
    rw [h.record slot]
    simp
  exact ⟨⟨fun hrecord => absurd hrecord hnone, fun hrecord => absurd hrecord hnone,
    fun hrecord => absurd hrecord hnone⟩, fun hrecord => absurd hrecord hnone⟩

/-- Every record of a store is still there, with nothing taken back. -/
def Database.Evolves (db db' : Database) : Prop :=
  ∀ slot record, db.record slot = some record →
    ∃ later, db'.record slot = some later ∧ record.Evolves later

theorem Database.Evolves.refl (db : Database) : db.Evolves db :=
  fun _ record h => ⟨record, h, .refl record⟩

theorem Database.Evolves.trans {db db' db'' : Database} (h : db.Evolves db')
    (h' : db'.Evolves db'') : db.Evolves db'' := by
  intro slot record hrecord
  obtain ⟨later, hlater, hevolves⟩ := h slot record hrecord
  obtain ⟨last, hlast, hevolves'⟩ := h' slot later hlater
  exact ⟨last, hlast, hevolves.trans hevolves'⟩

/-! ### One transaction -/

theorem Refines.evolves {db db' : Database} (h : Refines db db') (hsound : db.Sound) :
    db.Evolves db' := by
  intro slot record hrecord
  obtain ⟨next, hnext, rfl | hmove⟩ := h.kept hrecord
  · exact ⟨next, hnext, .refl next⟩
  · exact ⟨next, hnext, hmove.evolves (hsound.wellFormed hrecord)⟩

theorem Refines.sound {db db' : Database} (h : Refines db db') (hsound : db.Sound) :
    db'.Sound where
  owned := h.owned hsound.owned
  wellFormed {slot next} hnext := by
    rcases h.origin hnext with ⟨record, hrecord, rfl | hmove⟩ | ⟨-, input, identity, now, rfl, -⟩
    · exact hsound.wellFormed hrecord
    · exact hmove.wellFormed (hsound.wellFormed hrecord)
    · exact acceptedRecord_wellFormed input identity now

theorem Transacts.sound {db db' : Database} {operation : Operation}
    (h : Transacts db operation db') (hsound : db.Sound) : db'.Sound := by
  rw [show db' = transact db operation from h]
  exact (transact_refines hsound.owned operation).sound hsound

theorem Transacts.evolves {db db' : Database} {operation : Operation}
    (h : Transacts db operation db') (hsound : db.Sound) : db.Evolves db' := by
  rw [show db' = transact db operation from h]
  exact (transact_refines hsound.owned operation).evolves hsound

/-! ### Runs -/

/-- **Settlement is final.** In every state of every run, each record has a
settlement time exactly when it is settled and is finalized only when it is
terminal or cancelled and acknowledged or never claimed; and in every later
state the record is there with nothing of it taken back. -/
theorem settlement_final {db₀ db db' : Database} {before after : List Operation}
    (hfresh : db₀.Fresh) (hbefore : Run Transacts db₀ before db)
    (hafter : Run Transacts db after db') {slot : Slot} {record : ExecutionRecord}
    (hrecord : db.record slot = some record) :
    record.WellFormed ∧ ∃ later, db'.record slot = some later ∧ record.Evolves later := by
  have hsound : db.Sound := hbefore.invariant Transacts.sound hfresh.sound
  have hevolves : db.Evolves db' :=
    hafter.relates Database.Evolves.refl Database.Evolves.trans Transacts.sound
      Transacts.evolves hsound
  exact ⟨hsound.wellFormed hrecord, hevolves slot record hrecord⟩

/-! ### A small store -/

def sampleSpec : WorkloadSpec where
  image := "image"
  runtime := "runtime"
  adapters := [("shell", ⟨.process, digestOf (.str "shell"), "process", none⟩)]
  operations := [("build", ⟨"shell", .object [] .nil, [], []⟩)]
  services := []
  credentialSlots := []
  limits := { inputFileBytes := 0, stagedInputBytes := 0, inputFiles := 0 }

/-- The build of a small workspace, as a process. -/
def sampleExecution : WorkloadExecutionReference where
  workspaceId := "00000000-0000-0000-0000-000000000000"
  incarnationId := "first"
  owner := .process
  requestId := "ffffffff-ffff-ffff-ffff-ffffffffffff"

def sampleInstalled : InstalledWorkload where
  workspaceId := sampleExecution.workspaceId
  incarnationId := sampleExecution.incarnationId
  templateDigest := digestOf (.str "template")
  image := "image"
  runtime := "runtime"
  capabilities := WORKLOAD_OPERATION_CAPABILITIES .finiteProcess
  adapters := [("shell",
    ⟨.process, digestOf (.str "shell"), "process", WORKLOAD_OPERATION_CAPABILITIES .finiteProcess⟩)]

def sampleAcceptance : WorkloadAcceptance :=
  WorkloadAcceptance.sealed
    { execution := sampleExecution
      callerPrincipalId := "00000000-0000-0000-0000-000000000000"
      templateDigest := digestOf (.str "template")
      adapterDigest := digestOf (.str "shell")
      operation := "build"
      input := []
      inputs := AcceptedInputManifest.sealed
        { workspaceId := sampleExecution.workspaceId
          incarnationId := sampleExecution.incarnationId, digest := "", objects := [] }
      bindingSetDigest := digestOf (.arr [])
      fingerprint := "" }

def sampleRow : WorkspaceRow where
  id := sampleExecution.workspaceId
  principalId := "00000000-0000-0000-0000-000000000000"
  templateName := "template"
  templateDigest := digestOf (.str "template")
  state := .ready
  providerRef := none
  runtimeRegistration := some
    { incarnationId := "first", containerIdentity := "container", profile := .finiteProcess
      producer := some sampleInstalled
      template := some { digest := digestOf (.str "template"), spec := sampleSpec }
      readyAt := some (toISOString 0), endedAt := none }
  processExecution := none
  finiteProcess := none
  connectionEpoch := 1
  deadlineAt := 100
  createdAt := 0
  purgeRequestedAt := none

/-- One ready workspace with an installed producer, and no execution yet. -/
def sampleStore : Database where
  workspaces := ⟨[sampleRow], by simp⟩
  conversationRequests := .empty
  principals := ⟨[{ id := "00000000-0000-0000-0000-000000000000", disabledAt := none }],
    List.nodup_singleton "00000000-0000-0000-0000-000000000000"⟩
  inputManifests := .empty
  inputObjects := .empty

theorem sampleAcceptance_conforms : sampleAcceptance.conforms = true := by
  obtain ⟨hexecution, huuid, hincarnation, hname⟩ : sampleExecution.conforms = true ∧
      isUuid "00000000-0000-0000-0000-000000000000" = true ∧
      isText 256 sampleExecution.incarnationId = true ∧ isWorkloadName "build" = true := by decide
  have hworkspace : isUuid sampleExecution.workspaceId = true := huuid
  simp [WorkloadAcceptance.conforms, sampleAcceptance, WorkloadAcceptance.sealed, hexecution,
    huuid, hworkspace, hincarnation, hname, isDigest_digestOf, AcceptedInputManifest.conforms,
    AcceptedInputManifest.sealed, AcceptedInputManifest.contents, WorkloadAcceptance.facts]

theorem sampleRow_validates (record : Option ExecutionRecord) :
    validateExecution { sampleRow with processExecution := record } sampleAcceptance 0 none =
      .ok () := by
  have hlive : liveIncarnation { sampleRow with processExecution := record } sampleAcceptance 0 =
      true := by rfl
  have hevidence : installedEvidence { sampleRow with processExecution := record }
      sampleAcceptance =
      .ok (⟨digestOf (.str "template"), sampleSpec⟩, sampleInstalled) := by
    exact if_pos ⟨rfl, rfl, rfl, rfl, rfl, rfl, rfl⟩
  rw [validateExecution, hlive, hevidence]
  simp [sampleRow, sampleAcceptance, WorkloadAcceptance.sealed, Transaction.require, bind,
    Except.bind, pure, Except.pure, sampleInstalled, sampleSpec, sampleExecution, validateOwner,
    validateInputLimits, AcceptedInputManifest.sealed, matchesInput, WORKLOAD_OPERATION_CAPABILITIES]

/-- The store with a record for the process of its workspace. -/
def sampleAccepted (record : ExecutionRecord) : Database :=
  { sampleStore with
    workspaces := ⟨[{ sampleRow with processExecution := some record }], by simp⟩
    inputManifests :=
      ⟨[⟨executionInputManifestId sampleAcceptance, sampleAcceptance.inputs, none⟩], by simp⟩ }

theorem accept_sample :
    transact sampleStore (.accept sampleAcceptance 0 none) =
      sampleAccepted (acceptedRecord sampleAcceptance none 0) := by
  have haccept : accept sampleAcceptance 0 none sampleStore =
      .ok (.accepted (acceptedRecord sampleAcceptance none 0),
        sampleAccepted (acceptedRecord sampleAcceptance none 0)) := by
    rw [accept, Transaction.require_bind_eq_ok]
    refine ⟨sampleAcceptance_conforms, ?_⟩
    have hrow : sampleStore.workspaces.get? sampleAcceptance.execution.workspaceId =
        some sampleRow := rfl
    have hread : readExecution sampleStore sampleRow sampleAcceptance.execution = none := rfl
    rw [Transaction.get_bind, hrow]
    dsimp only
    rw [hread]
    dsimp only
    rw [Transaction.check_bind_eq_ok]
    refine ⟨(), rfl, ?_⟩
    rw [Transaction.check_bind_eq_ok]
    exact ⟨(), sampleRow_validates none, rfl⟩
  rw [transact, Transaction.committed, haccept]

theorem sampleStore_fresh : sampleStore.Fresh where
  record slot := by
    cases slot with
    | process id =>
        simp only [Database.record, sampleStore, Table.get?, List.find?]
        cases decide (sampleRow.id = id) <;> rfl
    | request key => rfl
  finiteProcess row hrow := by
    obtain rfl := List.mem_singleton.mp hrow
    rfl

theorem withOwner_sample {α : Type} {record : ExecutionRecord}
    (h : record.acceptance = sampleAcceptance)
    (task : WorkspaceRow → ExecutionRecord → Transaction α) :
    withOwner sampleExecution task (sampleAccepted record) =
      task { sampleRow with processExecution := some record } record (sampleAccepted record) := by
  have hread : readExecution (sampleAccepted record)
      { sampleRow with processExecution := some record } sampleExecution = some record := by
    rw [readExecution]
    refine Option.filter_eq_some_iff.mpr ⟨rfl, ?_⟩
    rw [h]
    rfl
  have hrow : (sampleAccepted record).workspaces.get? sampleExecution.workspaceId =
      some { sampleRow with processExecution := some record } := rfl
  rw [withOwner, Transaction.get_bind, hrow]
  dsimp only
  rw [hread]

theorem writeExecution_sample {record next : ExecutionRecord}
    (h : next.acceptance = sampleAcceptance) :
    writeExecution next (sampleAccepted record) = .ok ((), sampleAccepted next) := by
  unfold writeExecution
  rw [h]
  rfl

def sampleClaimed : ExecutionRecord := claimedRecord (acceptedRecord sampleAcceptance none 0) 0

theorem claim_sample :
    transact (sampleAccepted (acceptedRecord sampleAcceptance none 0)) (.claim sampleExecution 0) =
      sampleAccepted sampleClaimed := by
  have hinputs : requireExecutionInputs (sampleAccepted (acceptedRecord sampleAcceptance none 0))
      sampleAcceptance = .ok () := by
    simp [requireExecutionInputs, sampleAccepted, Table.get?, Transaction.require, bind,
      Except.bind]
    rfl
  have hvalid : revalidateExecution (sampleAccepted (acceptedRecord sampleAcceptance none 0))
      { sampleRow with processExecution := some (acceptedRecord sampleAcceptance none 0) }
      (acceptedRecord sampleAcceptance none 0) 0 = .ok () :=
    Except.bind_eq_ok.mpr ⟨(), rfl, Except.bind_eq_ok.mpr ⟨(), sampleRow_validates _, hinputs⟩⟩
  rw [transact, Transaction.committed, claim_of_revalidated rfl rfl rfl rfl hvalid]
  rfl

/-- The record of the build, reported as terminal. -/
def sampleSettled : ExecutionRecord :=
  observedRecord sampleClaimed .terminal 0 .null

theorem observe_sample :
    transact (sampleAccepted sampleClaimed)
        (.observe sampleExecution sampleAcceptance.fingerprint .terminal 1 0 .null) =
      sampleAccepted sampleSettled := by
  have htime : isDatetime (toISOString 0) = true := by decide +kernel
  have hconforms : sampleSettled.conforms = true := by
    simp [ExecutionRecord.conforms, sampleSettled, observedRecord, sampleClaimed, claimedRecord,
      acceptedRecord, sampleAcceptance_conforms, htime, ExecutionPhase.settled]
  have hcurrent : (sampleClaimed.dispatchClaimedAt.isNone ||
      decide (sampleRow.connectionEpoch ≠ 1) ||
      sampleRow.runtimeRegistration.any (fun runtime => runtime.endedAt.isSome) ||
      decide (sampleClaimed.acceptance.fingerprint ≠
        sampleAcceptance.fingerprint)) = false := by
    simp [sampleClaimed, claimedRecord, acceptedRecord, sampleRow]
  have hopen : executionSettled sampleClaimed = false :=
    rfl
  have hreported : (ExecutionPhase.terminal.reported = false) = False := eq_false (by decide)
  have hobserve : observe sampleExecution sampleAcceptance.fingerprint .terminal 1 0 .null
      (sampleAccepted sampleClaimed) =
      .ok (true, sampleAccepted sampleSettled) := by
    rw [observe, withOwner_sample rfl]
    simp only [hcurrent, hopen, hreported, Bool.false_eq_true, if_false]
    rw [Transaction.require_bind_eq_ok]
    refine ⟨hconforms, ?_⟩
    rw [Transaction.bind_eq_ok]
    exact ⟨(), _, writeExecution_sample rfl, rfl⟩
  rw [transact, Transaction.committed, hobserve]

/-- An execution that ended, a later report that it was lost, and its
acknowledgment. -/
theorem settlement_final_sample :
    sampleSettled.WellFormed ∧ executionSettled sampleSettled = true ∧
      ∃ later, ((transact (transact (sampleAccepted sampleSettled)
            (.observe sampleExecution sampleAcceptance.fingerprint .lost 1 1 .null))
            (.acknowledge sampleExecution sampleAcceptance.fingerprint 1)).record
          (.process sampleExecution.workspaceId) = some later) ∧
        sampleSettled.Evolves later ∧ later.phase = .terminal := by
  have hrecord : (sampleAccepted sampleSettled).record (.process sampleExecution.workspaceId) =
      some sampleSettled := rfl
  obtain ⟨hwell, later, hlater, hevolves⟩ := settlement_final sampleStore_fresh
    (.cons accept_sample.symm (.cons claim_sample.symm (.single observe_sample.symm)))
    (.cons rfl (.single rfl)) hrecord
  exact ⟨hwell, rfl, later, hlater, hevolves, (hevolves.settled rfl).1⟩

end PocketCoder.Executions
