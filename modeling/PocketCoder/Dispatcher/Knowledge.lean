import PocketCoder.Dispatcher.System

/-!
What the dispatcher knows of the store. Its tasks hold records and rows they
read some time ago; the facts below are the ones that outlive a read, because
the store only ever adds to them (`Advances`).
-/

namespace PocketCoder.Dispatcher

open PocketCoder.Foundation PocketCoder.Workspaces PocketCoder.Executions

/-! ### Facts that last -/

/-- A record of the store with this acceptance and a property. -/
def Stored (db : Database) (acceptance : WorkloadAcceptance) (P : ExecutionRecord → Prop) : Prop :=
  ∃ slot record, db.record slot = some record ∧ record.acceptance = acceptance ∧ P record

/-- The execution was accepted. -/
def Known (db : Database) (acceptance : WorkloadAcceptance) : Prop :=
  Stored db acceptance fun _ => True

/-- The execution was claimed. -/
def Claimed (db : Database) (acceptance : WorkloadAcceptance) : Prop :=
  Stored db acceptance fun record => record.dispatchClaimedAt.isSome = true

def Settled (db : Database) (acceptance : WorkloadAcceptance) : Prop :=
  Stored db acceptance fun record => executionSettled record = true

/-- The producer of the execution can look it up and takes it only once. -/
def Reconcilable (db : Database) (acceptance : WorkloadAcceptance) : Prop :=
  ∃ row, db.workspaces.get? acceptance.execution.workspaceId = some row ∧
    canReconcile row acceptance = true

/-- A row the workspace had. -/
def RowOf (db : Database) (workspaceId : String) (row : WorkspaceRow) : Prop :=
  ∀ acceptance : WorkloadAcceptance, acceptance.execution.workspaceId = workspaceId →
    canReconcile row acceptance = true → Reconcilable db acceptance

/-- Everything that was known is still so. -/
structure Advances (db db' : Database) : Prop where
  evolves : db.Evolves db'
  reconcilable : ∀ {acceptance}, Reconcilable db acceptance → Reconcilable db' acceptance

theorem Stored.mono {db db' : Database} {acceptance : WorkloadAcceptance}
    {P Q : ExecutionRecord → Prop} (hadvances : Advances db db')
    (hkept : ∀ {record later}, record.Evolves later → P record → Q later)
    (h : Stored db acceptance P) : Stored db' acceptance Q := by
  obtain ⟨slot, record, hrecord, hacceptance, hP⟩ := h
  obtain ⟨later, hlater, hevolves⟩ := hadvances.evolves slot record hrecord
  exact ⟨slot, later, hlater, hevolves.acceptance.trans hacceptance, hkept hevolves hP⟩

section Advances

variable {db db' : Database} {acceptance : WorkloadAcceptance} (hadvances : Advances db db')

include hadvances

theorem Known.mono (h : Known db acceptance) : Known db' acceptance :=
  Stored.mono hadvances (fun _ h => h) h

theorem Claimed.mono (h : Claimed db acceptance) : Claimed db' acceptance :=
  Stored.mono hadvances (fun hevolves hsome => by rw [hevolves.dispatchClaimedAt hsome, hsome]) h

theorem Settled.mono (h : Settled db acceptance) : Settled db' acceptance :=
  Stored.mono hadvances (fun hevolves hsettled => hevolves.executionSettled hsettled) h

theorem RowOf.mono {workspaceId : String} {row : WorkspaceRow} (h : RowOf db workspaceId row) :
    RowOf db' workspaceId row :=
  fun acceptance hid hcan => hadvances.reconcilable (h acceptance hid hcan)

end Advances

theorem rowOf_get {db : Database} {workspaceId : String} {row : WorkspaceRow}
    (h : db.workspaces.get? workspaceId = some row) : RowOf db workspaceId row := by
  rintro acceptance rfl hcan
  exact ⟨row, h, hcan⟩

/-- The capabilities come with the runtime, which keeps its template and
producer. -/
theorem canReconcile_kept {row later : WorkspaceRow} {acceptance : WorkloadAcceptance}
    (h : RowMoves row later) (hcan : canReconcile row acceptance = true) :
    canReconcile later acceptance = true := by
  cases hruntime : row.runtimeRegistration with
  | none => simp [canReconcile, capabilities, hruntime] at hcan
  | some runtime =>
      obtain ⟨runtime', hruntime', hkept⟩ := h.runtime hruntime
      have hsame : capabilities later acceptance = capabilities row acceptance := by
        rw [capabilities, capabilities, hruntime, hruntime']
        dsimp only
        rw [hkept.template, hkept.producer]
      rw [canReconcile, hsame]
      exact hcan

theorem advances_of_refines {db db' : Database} (h : Refines db db') (hsound : db.Sound) :
    Advances db db' where
  evolves := h.evolves hsound
  reconcilable := by
    rintro acceptance ⟨row, hrow, hcan⟩
    obtain ⟨later, hlater, hmoves⟩ := h.rows hrow
    exact ⟨later, hlater, canReconcile_kept hmoves hcan⟩

/-! ### One record for each execution -/

section Owned

variable {db : Database} (howned : db.Owned)

include howned

/-- An execution has one acceptance. -/
theorem Stored.unique {acceptance acceptance' : WorkloadAcceptance} {P Q : ExecutionRecord → Prop}
    (h : Stored db acceptance P) (h' : Stored db acceptance' Q)
    (hexecution : acceptance.execution = acceptance'.execution) : acceptance = acceptance' := by
  obtain ⟨slot, record, hrecord, rfl, -⟩ := h
  obtain ⟨slot', record', hrecord', rfl, -⟩ := h'
  obtain rfl := howned.unique hrecord hrecord' hexecution
  obtain rfl := Option.some.inj (hrecord.symm.trans hrecord')
  rfl

/-- Two facts about an execution are about one record. -/
theorem Stored.and {acceptance : WorkloadAcceptance} {P Q : ExecutionRecord → Prop}
    (h : Stored db acceptance P) (h' : Stored db acceptance Q) :
    Stored db acceptance fun record => P record ∧ Q record := by
  obtain ⟨slot, record, hrecord, rfl, hP⟩ := h
  obtain ⟨slot', record', hrecord', hacceptance, hQ⟩ := h'
  obtain rfl := howned.unique hrecord hrecord' (by rw [hacceptance])
  obtain rfl := Option.some.inj (hrecord.symm.trans hrecord')
  exact ⟨slot, record, hrecord, rfl, hP, hQ⟩

/-- A known execution is read. -/
theorem getExecution_of_known {acceptance : WorkloadAcceptance} (h : Known db acceptance) :
    ∃ record, Task.getExecution db acceptance.execution = some record ∧
      record.acceptance = acceptance := by
  obtain ⟨slot, record, hrecord, rfl, -⟩ := h
  obtain ⟨row, hrow, -, -⟩ := howned.hosted hrecord
  cases hread : readExecution db row record.acceptance.execution with
  | none => exact absurd rfl (readExecution_eq_none howned hrow hread hrecord)
  | some read =>
      obtain ⟨hexecution, slot', hrecord'⟩ := readExecution_eq_some hrow hread
      obtain rfl := howned.unique hrecord hrecord' hexecution.symm
      obtain rfl := Option.some.inj (hrecord.symm.trans hrecord')
      exact ⟨record, by rw [Task.getExecution, hrow]; exact hread, rfl⟩

end Owned

/-- A record that is read is stored. -/
theorem stored_of_getExecution {db : Database} {execution : WorkloadExecutionReference}
    {record : ExecutionRecord} (h : Task.getExecution db execution = some record) :
    record.acceptance.execution = execution ∧ Stored db record.acceptance (· = record) := by
  obtain ⟨row, hrow, hread⟩ := Option.bind_eq_some_iff.mp h
  obtain ⟨hexecution, slot, hrecord⟩ := readExecution_eq_some hrow hread
  exact ⟨hexecution, slot, record, hrecord, rfl, rfl⟩

theorem Stored.known {db : Database} {acceptance : WorkloadAcceptance} {P : ExecutionRecord → Prop}
    (h : Stored db acceptance P) : Known db acceptance := by
  obtain ⟨slot, record, hrecord, hacceptance, -⟩ := h
  exact ⟨slot, record, hrecord, hacceptance, trivial⟩

/-! ### Claims -/

/-- A claim that is granted: the execution was open, is claimed now, and is
claimed for the first time only if it was not before. -/
theorem claim_eq_some {db db' : Database} (howned : db.Owned)
    {execution : WorkloadExecutionReference} {now : Nat} {result : Claim}
    (h : claim execution now db = .ok (some result, db')) :
    result.record.acceptance.execution = execution ∧
      Stored db result.record.acceptance (fun record => executionSettled record = false ∧
        (result.first = true → record.dispatchClaimedAt = none)) ∧
      Claimed db' result.record.acceptance := by
  obtain ⟨workspace, record, hrow, hread, hcase⟩ := claim_eq_ok h
  obtain ⟨hexecution, slot, hrecord⟩ := readExecution_eq_some hrow hread
  rcases hcase with ⟨-, hresult, rfl⟩ | ⟨-, -, hresult, -⟩ | ⟨-, -, hresult, -⟩ |
    ⟨-, hopen, -, hresult, hwrite⟩
  · unfold reconcileExecution at hresult
    split_ifs at hresult with hguard
    obtain rfl := Option.some.inj hresult
    exact ⟨hexecution, ⟨slot, record, hrecord, rfl, hguard.2.1, fun hfirst => (nomatch hfirst)⟩,
      slot, record, hrecord, rfl, hguard.1⟩
  · exact (nomatch hresult)
  · exact (nomatch hresult)
  · obtain rfl := Option.some.inj hresult
    have hputs : Puts db slot (claimedRecord record now) db' :=
      writeExecution_puts howned hrecord rfl (.refl db) hwrite
    refine ⟨hexecution, ⟨slot, record, hrecord, rfl, hopen, ?_⟩, slot, claimedRecord record now,
      ?_, rfl, ?_⟩
    · exact fun hfirst => Option.isNone_iff_eq_none.mp hfirst
    · rw [hputs.record, Function.update_self]
    · show (record.dispatchClaimedAt.or (some (toISOString now))).isSome = true
      rw [Option.isSome_or]
      simp

/-- A reconciled execution is one that was claimed before. -/
theorem reconcile_eq_some {db db' : Database} {execution : WorkloadExecutionReference}
    {result : Claim} (h : reconcile execution db = .ok (some result, db')) :
    result.record.acceptance.execution = execution ∧ Known db result.record.acceptance ∧
      result.first = false ∧ db' = db := by
  obtain ⟨workspace, record, hrow, hread, hresult, rfl⟩ := reconcile_same h
  obtain ⟨hexecution, slot, hrecord⟩ := readExecution_eq_some hrow hread
  unfold reconcileExecution at hresult
  split_ifs at hresult with hguard
  obtain rfl := Option.some.inj hresult
  exact ⟨hexecution, ⟨slot, record, hrecord, rfl, trivial⟩, rfl, rfl⟩

theorem acknowledge_settled {db db' : Database} {execution : WorkloadExecutionReference}
    {fingerprint : String} {now : Nat} {u : Unit}
    (h : acknowledge execution fingerprint now db = .ok (u, db')) :
    ∃ acceptance, acceptance.execution = execution ∧ Settled db acceptance := by
  obtain ⟨workspace, record, hrow, hread, h⟩ := withOwner_eq_ok h
  obtain ⟨hguard, -⟩ := Transaction.require_bind_eq_ok.mp h
  rw [Bool.and_eq_true] at hguard
  obtain ⟨hexecution, slot, hrecord⟩ := readExecution_eq_some hrow hread
  exact ⟨record.acceptance, hexecution, slot, record, hrecord, rfl, hguard.2⟩

/-- A cancel answers with a record of the store. -/
theorem cancel_known {db db' : Database} {input : WorkloadCancel} {now : Nat}
    {result : ExecutionRecord} (h : Executions.cancel input now db = .ok (result, db')) :
    Known db result.acceptance := by
  obtain ⟨-, h⟩ := Transaction.require_bind_eq_ok.mp h
  obtain ⟨-, h⟩ := Transaction.require_bind_eq_ok.mp h
  obtain ⟨workspace, record, hrow, hread, h⟩ := withOwner_eq_ok h
  obtain ⟨-, slot, hrecord⟩ := readExecution_eq_some hrow hread
  have hknown : Known db record.acceptance := ⟨slot, record, hrecord, rfl, trivial⟩
  cases hcancel : record.cancel with
  | some intent =>
      rw [hcancel] at h
      obtain ⟨-, h⟩ := Transaction.require_bind_eq_ok.mp h
      obtain ⟨rfl, -⟩ := Transaction.pure_eq_ok.mp h
      exact hknown
  | none =>
      rw [hcancel] at h
      dsimp only at h
      split_ifs at h
      · obtain ⟨rfl, -⟩ := Transaction.pure_eq_ok.mp h
        exact hknown
      · obtain ⟨_, _, -, h⟩ := Transaction.bind_eq_ok.mp h
        obtain ⟨rfl, -⟩ := Transaction.pure_eq_ok.mp h
        exact hknown
      · obtain ⟨_, _, -, h⟩ := Transaction.bind_eq_ok.mp h
        obtain ⟨_, _, -, h⟩ := Transaction.bind_eq_ok.mp h
        obtain ⟨rfl, -⟩ := Transaction.pure_eq_ok.mp h
        exact hknown

end PocketCoder.Dispatcher
