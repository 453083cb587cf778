import PocketCoder.Executions.Settlement

/-!
The facts of a finite process only move forward, and they agree with the
execution record of the process.

The fact and the record are written by different transactions, so the
agreement is an invariant of the row (`FactsAgree`): an exited fact is the
outcome of a terminal record, and an ended runtime leaves no process open.
`FiniteProcessFact.Evolves` compares a fact with a later one and is a
preorder, as it is for records.
-/

namespace PocketCoder.Executions

open PocketCoder.Foundation PocketCoder.Workspaces

/-! ### One fact and a later one -/

/-- The order of the phases: claimed, running, and then exited or lost. -/
def ProcessPhase.rank : ProcessPhase → Nat
  | .claimed => 0
  | .running => 1
  | .exited => 2
  | .lost => 2

/-- What a stored fact never takes back. -/
structure FiniteProcessFact.Evolves (fact later : FiniteProcessFact) : Prop where
  phase : fact.phase.rank ≤ later.phase.rank
  /-- An exited or lost fact is final. -/
  ended : fact.ended = true → later = fact
  execution : later.execution = fact.execution
  fingerprint : later.fingerprint = fact.fingerprint
  claimedAt : later.claimedAt = fact.claimedAt
  /-- A process group keeps its start. -/
  processGroup : fact.processGroupId.isSome = true →
    later.processGroupId = fact.processGroupId ∧ later.startedAt = fact.startedAt

namespace FiniteProcessFact

theorem Evolves.refl (fact : FiniteProcessFact) : fact.Evolves fact :=
  ⟨le_refl _, fun _ => rfl, rfl, rfl, rfl, fun _ => ⟨rfl, rfl⟩⟩

theorem Evolves.trans {fact later last : FiniteProcessFact} (h : fact.Evolves later)
    (h' : later.Evolves last) : fact.Evolves last where
  phase := h.phase.trans h'.phase
  ended hended := by
    obtain rfl := h.ended hended
    exact h'.ended hended
  execution := h'.execution.trans h.execution
  fingerprint := h'.fingerprint.trans h.fingerprint
  claimedAt := h'.claimedAt.trans h.claimedAt
  processGroup hsome := by
    obtain ⟨hgroup, hstarted⟩ := h.processGroup hsome
    obtain ⟨hgroup', hstarted'⟩ := h'.processGroup (hgroup ▸ hsome)
    exact ⟨hgroup'.trans hgroup, hstarted'.trans hstarted⟩

theorem ended_eq_false {fact : FiniteProcessFact} (h : fact.ended = false) :
    fact.phase = .claimed ∨ fact.phase = .running := by
  unfold ended at h
  cases hphase : fact.phase with
  | claimed => exact .inl rfl
  | running => exact .inr rfl
  | exited => simp [hphase] at h
  | lost => simp [hphase] at h

end FiniteProcessFact

/-- A recordable fact does not contradict the stored one. -/
theorem canRecord_evolves {previous next : FiniteProcessFact}
    (h : canRecord (some previous) next = true) : previous.Evolves next := by
  unfold canRecord at h
  dsimp only at h
  split_ifs at h with hidentity hended hback hgroup
  · obtain rfl := of_decide_eq_true h
    exact .refl previous
  · simp only [Bool.or_eq_true, decide_eq_true_eq, not_or, not_not] at hidentity
    obtain ⟨⟨hexecution, hfingerprint⟩, hclaimedAt⟩ := hidentity
    refine ⟨?_, fun hended' => absurd hended' hended, hexecution.symm, hfingerprint.symm,
      hclaimedAt.symm, fun hsome => ?_⟩
    · rcases FiniteProcessFact.ended_eq_false (Bool.not_eq_true _ ▸ hended) with hphase | hphase
      · rw [hphase]
        exact Nat.zero_le _
      · -- A running process is not reported claimed again.
        rw [hphase] at hback ⊢
        revert hback
        cases next.phase <;> simp [ProcessPhase.rank]
    · simp only [hsome, Bool.true_and, Bool.or_eq_true, decide_eq_true_eq, not_or, not_not] at hgroup
      exact ⟨hgroup.1.symm, hgroup.2.symm⟩

theorem endFact_evolves (now : Nat) (fact : FiniteProcessFact) : fact.Evolves (endFact now fact) := by
  unfold endFact
  split_ifs with hended
  · exact .refl fact
  · refine ⟨?_, fun hended' => absurd hended' hended, rfl, rfl, rfl, fun _ => ⟨rfl, rfl⟩⟩
    cases fact.phase <;> simp [ProcessPhase.rank]

theorem endFact_ended (now : Nat) (fact : FiniteProcessFact) : (endFact now fact).ended = true := by
  unfold endFact
  split_ifs with hended
  · exact hended
  · rfl

/-! ### The row of a workspace -/

/-- The stored fact, the runtime and the record of a process agree. -/
structure FactsAgree (row : WorkspaceRow) : Prop where
  /-- An exited fact is the outcome of a terminal record. -/
  exited : ∀ {fact}, row.finiteProcess = some fact → fact.phase = .exited →
    ∃ record, row.processExecution = some record ∧ record.phase = .terminal ∧
      record.outcome = JsonValue.of fact.toJson
  /-- An ended runtime leaves no fact claimed or running. -/
  ended : ∀ {runtime fact}, row.runtimeRegistration = some runtime →
    runtime.endedAt.isSome = true → row.finiteProcess = some fact → fact.ended = true
  /-- Only a registered runtime reports facts. -/
  registered : row.runtimeRegistration = none → row.finiteProcess = none

theorem factsAgree_of_none {row : WorkspaceRow} (h : row.finiteProcess = none) : FactsAgree row :=
  ⟨fun hfact => by rw [h] at hfact; exact absurd hfact (by simp),
    fun _ _ hfact => by rw [h] at hfact; exact absurd hfact (by simp), fun _ => h⟩

/-- What `recordFiniteProcess` has checked. -/
theorem recordsFact_eq_true {row : WorkspaceRow} {id : String} {connectionEpoch : Nat}
    {fact : FiniteProcessFact} (h : recordsFact row id connectionEpoch fact = true) :
    (∃ runtime, row.runtimeRegistration = some runtime ∧ runtime.endedAt.isNone = true) ∧
      canRecord row.finiteProcess fact = true ∧
      acceptsProcessFact row.processExecution fact = true := by
  simp only [recordsFact, Bool.and_eq_true] at h
  obtain ⟨⟨⟨⟨-, hregistered⟩, -⟩, hrecord⟩, haccepts⟩ := h
  refine ⟨?_, hrecord, haccepts⟩
  cases hruntime : row.runtimeRegistration with
  | none => simp [hruntime] at hregistered
  | some runtime =>
      simp only [hruntime, Option.any_some, Bool.and_eq_true] at hregistered
      exact ⟨runtime, rfl, hregistered.1.1⟩

/-- Every operation on a row keeps its fact going forward. -/
theorem RowMoves.fact_evolves {row later : WorkspaceRow} (h : RowMoves row later)
    {fact : FiniteProcessFact} (hfact : row.finiteProcess = some fact) :
    ∃ fact', later.finiteProcess = some fact' ∧ fact.Evolves fact' := by
  cases h with
  | fact next hconforms hrecords =>
      obtain ⟨-, hrecord, -⟩ := recordsFact_eq_true hrecords
      rw [hfact] at hrecord
      exact ⟨next, rfl, canRecord_evolves hrecord⟩
  | ended now =>
      refine ⟨endFact now fact, ?_, endFact_evolves now fact⟩
      rw [endRow, hfact]
      rfl
  | record _ => exact ⟨fact, hfact, .refl fact⟩
  | bound _ _ => exact ⟨fact, hfact, .refl fact⟩
  | ready _ => exact ⟨fact, hfact, .refl fact⟩
  | columns _ => exact ⟨fact, hfact, .refl fact⟩

/-- Every operation on a row keeps the agreement, if it keeps the record going
forward. -/
theorem RowMoves.factsAgree {row later : WorkspaceRow} (h : RowMoves row later)
    (hrecord : ∀ record, row.processExecution = some record →
      ∃ record', later.processExecution = some record' ∧ record.Evolves record')
    (hagree : FactsAgree row) : FactsAgree later := by
  -- A terminal record keeps its phase and outcome, whatever the operation is.
  have hexited : ∀ {fact}, row.finiteProcess = some fact → fact.phase = .exited →
      ∃ record, later.processExecution = some record ∧ record.phase = .terminal ∧
        record.outcome = JsonValue.of fact.toJson := by
    intro fact hfact hphase
    obtain ⟨record, hsome, hterminal, houtcome⟩ := hagree.exited hfact hphase
    obtain ⟨record', hsome', hevolves⟩ := hrecord record hsome
    obtain ⟨hphase', houtcome', -⟩ := hevolves.settled (by rw [executionSettled, hterminal]; rfl)
    exact ⟨record', hsome', hphase'.trans hterminal, houtcome'.trans houtcome⟩
  cases h with
  | record _ => exact ⟨hexited, hagree.ended, hagree.registered⟩
  | columns _ => exact ⟨hexited, hagree.ended, hagree.registered⟩
  | bound runtime hnone => exact factsAgree_of_none (hagree.registered hnone)
  | ready now =>
      refine ⟨hexited, fun hruntime hended hfact => ?_, fun hnone => ?_⟩
      · obtain ⟨runtime, hruntime', rfl⟩ := Option.map_eq_some_iff.mp hruntime
        exact hagree.ended hruntime' hended hfact
      · exact hagree.registered (Option.map_eq_none_iff.mp hnone)
  | fact next hconforms hrecords =>
      obtain ⟨⟨runtime, hruntime, hopen⟩, -, haccepts⟩ := recordsFact_eq_true hrecords
      refine ⟨fun hfact hphase => ?_, fun hruntime' hended _ => ?_, fun hnone => ?_⟩
      · obtain rfl := Option.some.inj hfact
        cases hprocess : row.processExecution with
        | none => simp [hprocess, acceptsProcessFact] at haccepts
        | some record =>
            refine ⟨observedProcessExecution record next, by rw [factRow, hprocess]; rfl, ?_, rfl⟩
            rw [observedProcessExecution, hphase]
            rfl
      · obtain rfl := Option.some.inj (hruntime.symm.trans hruntime')
        rw [Option.isNone_iff_eq_none.mp hopen] at hended
        exact absurd hended (by simp)
      · exact absurd (hruntime.symm.trans hnone) (by simp)
  | ended now =>
      refine ⟨fun hfact hphase => ?_, fun _ _ hfact => ?_, fun hnone => ?_⟩
      · obtain ⟨fact, hfact', rfl⟩ := Option.map_eq_some_iff.mp hfact
        -- an ended fact stays as it is; an open one becomes lost, not exited
        by_cases hended : fact.ended = true
        · rw [(endFact_evolves now fact).ended hended] at hphase ⊢
          exact hexited hfact' hphase
        · rw [endFact, if_neg hended] at hphase
          exact absurd hphase (by simp)
      · obtain ⟨fact, -, rfl⟩ := Option.map_eq_some_iff.mp hfact
        exact endFact_ended now fact
      · rw [endRow, hagree.registered (Option.map_eq_none_iff.mp hnone)]
        rfl

/-! ### The store -/

/-- The records are sound, and every row agrees with its fact. -/
structure Database.Agrees (db : Database) : Prop where
  sound : db.Sound
  facts : ∀ {id row}, db.workspaces.get? id = some row → FactsAgree row

/-- Every row is still there, with its fact further on. -/
def Database.FactsEvolve (db db' : Database) : Prop :=
  ∀ id row, db.workspaces.get? id = some row →
    ∃ later, db'.workspaces.get? id = some later ∧
      ∀ fact, row.finiteProcess = some fact →
        ∃ fact', later.finiteProcess = some fact' ∧ fact.Evolves fact'

theorem Database.FactsEvolve.refl (db : Database) : db.FactsEvolve db :=
  fun _ row hrow => ⟨row, hrow, fun fact hfact => ⟨fact, hfact, .refl fact⟩⟩

theorem Database.FactsEvolve.trans {db db' db'' : Database} (h : db.FactsEvolve db')
    (h' : db'.FactsEvolve db'') : db.FactsEvolve db'' := by
  intro id row hrow
  obtain ⟨later, hlater, hfacts⟩ := h id row hrow
  obtain ⟨last, hlast, hfacts'⟩ := h' id later hlater
  refine ⟨last, hlast, fun fact hfact => ?_⟩
  obtain ⟨fact', hfact', hevolves⟩ := hfacts fact hfact
  obtain ⟨fact'', hfact'', hevolves'⟩ := hfacts' fact' hfact'
  exact ⟨fact'', hfact'', hevolves.trans hevolves'⟩

theorem Database.Fresh.agrees {db : Database} (h : db.Fresh) : db.Agrees :=
  ⟨h.sound, fun hrow => factsAgree_of_none (h.finiteProcess _ (Table.get?_eq_some.mp hrow).1)⟩

/-- The record of a row is the one in its slot. -/
theorem record_process {db : Database} {id : String} {row : WorkspaceRow}
    (hrow : db.workspaces.get? id = some row) :
    db.record (.process id) = row.processExecution := by
  rw [Database.record, hrow]
  rfl

theorem Refines.agrees {db db' : Database} (h : Refines db db') (hagrees : db.Agrees) :
    db'.Agrees where
  sound := h.sound hagrees.sound
  facts {id later} hlater := by
    cases hrow : db.workspaces.get? id with
    | none => exact factsAgree_of_none (h.fresh hrow hlater).2
    | some row =>
        obtain ⟨later', hlater', hmoves⟩ := h.rows hrow
        obtain rfl := Option.some.inj (hlater.symm.trans hlater')
        refine hmoves.factsAgree (fun record hrecord => ?_) (hagrees.facts hrow)
        rw [← record_process hrow] at hrecord
        obtain ⟨record', hrecord', hevolves⟩ := h.evolves hagrees.sound _ record hrecord
        exact ⟨record', record_process hlater ▸ hrecord', hevolves⟩

theorem Refines.factsEvolve {db db' : Database} (h : Refines db db') : db.FactsEvolve db' := by
  intro id row hrow
  obtain ⟨later, hlater, hmoves⟩ := h.rows hrow
  exact ⟨later, hlater, fun _ hfact => hmoves.fact_evolves hfact⟩

theorem Transacts.agrees {db db' : Database} {operation : Operation}
    (h : Transacts db operation db') (hagrees : db.Agrees) : db'.Agrees := by
  rw [show db' = transact db operation from h]
  exact (transact_refines hagrees.sound.owned operation).agrees hagrees

theorem Transacts.factsEvolve {db db' : Database} {operation : Operation}
    (h : Transacts db operation db') (hagrees : db.Agrees) : db.FactsEvolve db' := by
  rw [show db' = transact db operation from h]
  exact (transact_refines hagrees.sound.owned operation).factsEvolve

/-! ### Runs -/

/-- **Facts move forward and agree with the execution.** In every state of
every run, an exited fact is the outcome of a terminal record and an ended
runtime leaves no fact open; and every later state has a fact that the stored
one evolves to. -/
theorem finiteProcess_forward {db₀ db db' : Database} {before after : List Operation}
    (hfresh : db₀.Fresh) (hbefore : Run Transacts db₀ before db)
    (hafter : Run Transacts db after db') {id : String} {row : WorkspaceRow}
    (hrow : db.workspaces.get? id = some row) :
    FactsAgree row ∧ ∃ later, db'.workspaces.get? id = some later ∧
      ∀ fact, row.finiteProcess = some fact →
        ∃ fact', later.finiteProcess = some fact' ∧ fact.Evolves fact' := by
  have hagrees : db.Agrees := hbefore.invariant Transacts.agrees hfresh.agrees
  have hevolves : db.FactsEvolve db' :=
    hafter.relates Database.FactsEvolve.refl Database.FactsEvolve.trans Transacts.agrees
      Transacts.factsEvolve hagrees
  exact ⟨hagrees.facts hrow, hevolves id row hrow⟩

/-! ### A small process -/

def sampleFact : FiniteProcessFact where
  execution := sampleExecution
  fingerprint := sampleAcceptance.fingerprint
  phase := .running
  processGroupId := some 7
  claimedAt := "1970-01-01T00:00:00Z"
  startedAt := some "1970-01-01T00:00:00Z"
  endedAt := none
  exitCode := none
  signal := none

/-- The row of the running process. -/
def sampleRunning : WorkspaceRow :=
  factRow sampleFact { sampleRow with processExecution := some sampleClaimed }

theorem sampleFact_conforms : sampleFact.conforms = true := by
  obtain ⟨hexecution, htime⟩ : sampleExecution.conforms = true ∧
      isDatetime "1970-01-01T00:00:00Z" = true := by decide
  have hdigest : isDigest sampleAcceptance.fingerprint = true := isDigest_digestOf _
  have howner : sampleExecution.owner = .process := rfl
  simp [FiniteProcessFact.conforms, sampleFact, hexecution, htime, hdigest, howner,
    FiniteProcessFact.ended, MAX_SAFE_INTEGER]

theorem recordFiniteProcess_sample :
    transact (sampleAccepted sampleClaimed)
        (.recordFiniteProcess sampleExecution.workspaceId 1 sampleFact) =
      { sampleAccepted sampleClaimed with workspaces := ⟨[sampleRunning], by simp⟩ } := by
  have hrecords : recordsFact { sampleRow with processExecution := some sampleClaimed }
      sampleExecution.workspaceId 1 sampleFact = true := by
    simp [recordsFact, sampleRow, sampleFact, sampleExecution, canRecord, acceptsProcessFact,
      sampleClaimed, claimedRecord, acceptedRecord, executionSettled, ExecutionPhase.settled,
      sampleAcceptance, WorkloadAcceptance.sealed]
  have hrow : (sampleAccepted sampleClaimed).workspaces.get? sampleExecution.workspaceId =
      some { sampleRow with processExecution := some sampleClaimed } := rfl
  have hrecord : recordFiniteProcess sampleExecution.workspaceId 1 sampleFact
      (sampleAccepted sampleClaimed) = .ok (true,
        { sampleAccepted sampleClaimed with workspaces := ⟨[sampleRunning], by simp⟩ }) := by
    rw [recordFiniteProcess, Transaction.require_bind_eq_ok]
    refine ⟨sampleFact_conforms, ?_⟩
    rw [Transaction.get_bind, hrow]
    dsimp only
    rw [hrecords]
    rfl
  rw [transact, Transaction.committed, hrecord]

/-- A running process whose runtime is ended. -/
theorem finiteProcess_forward_sample :
    FactsAgree sampleRunning ∧
      ∃ later, (transact
          { sampleAccepted sampleClaimed with workspaces := ⟨[sampleRunning], by simp⟩ }
          (.endWorkspaceRuntime sampleExecution.workspaceId "first" 1)).workspaces.get?
          sampleExecution.workspaceId = some later ∧
        ∀ fact, sampleRunning.finiteProcess = some fact →
          ∃ fact', later.finiteProcess = some fact' ∧ fact.Evolves fact' :=
  finiteProcess_forward sampleStore_fresh
    (.cons accept_sample.symm (.cons claim_sample.symm (.single recordFiniteProcess_sample.symm)))
    (.single rfl) rfl

end PocketCoder.Executions
