import PocketCoder.Recovery.Completion
import PocketCoder.Workspaces.History

/-!
The copies that a purge waits for
(`server/src/persistence/persistence-purge.ts`): before it deletes the storage of
a workspace, a purge ends the restores that still read from it.

A restore from a controller archive is ended by ending its result workspace. A
workspace that runs is terminated by the scheduler. A queued one is moved to
`failed`, and the table of transitions has no such edge: the store refuses, the
workspace stays queued, and the restore keeps blocking the purge
(`hasActiveCopies_settles`).
-/

namespace PocketCoder.Persistence

open Foundation Workspaces Workspaces.Lifecycle
open Executions (Failure)
open Recovery.Completion (OperationKind OperationState)
open Foundation.Transaction (bind_eq_ok bind_of_ok get_bind pure_eq_ok require_bind_eq_ok)

/-! ### Rows -/

structure WorkspaceOperation where
  id : String
  kind : OperationKind
  state : OperationState
  workspaceId : Option String
  checkpointId : Option String
  resultWorkspaceId : Option String
  reasonCode : Option ReasonCode
  completedAt : Option Nat

def WorkspaceOperation.incomplete (operation : WorkspaceOperation) : Bool :=
  operation.state = .pending || operation.state = .running

structure CheckpointRow where
  id : String
  providerKind : String

/-- The store that a purge works on. The operations are in the order of their creation. -/
structure System where
  store : Store
  operations : Table WorkspaceOperation.id
  checkpoints : Table CheckpointRow.id

abbrev Task (α : Type) := Transaction System Failure α

namespace System

def getWorkspace (sys : System) (id : String) : Option LifecycleRow := sys.store.workspaces.get? id

def listIncompleteOperations (sys : System) : List WorkspaceOperation :=
  sys.operations.rows.filter WorkspaceOperation.incomplete

end System

/-- The scheduler of the controller, as a purge uses it. -/
structure Scheduler where
  beginTermination (target : LifecycleRow) (state : WorkspaceState) (reason : ReasonCode) (now : Nat) :
    System → System
  drain : System → System

/-! ### The source -/

/-- A transaction of the store. -/
def onStore {α : Type} (task : Lifecycle.Transaction α) : Task α := fun sys =>
  match task sys.store with
  | .ok (result, store) => .ok (result, { sys with store })
  | .error failure => .error failure

def failOperation (id : String) (reasonCode : ReasonCode) (now : Nat) : Task Unit :=
  modify fun sys =>
    { sys with
      operations := sys.operations.updateAt id
        (fun operation =>
          { operation with
            state := .failed, reasonCode := some reasonCode, completedAt := some now })
        fun _ => rfl }

def transfersFrom (operation : WorkspaceOperation) (sys : System) : Bool :=
  (operation.checkpointId.bind sys.checkpoints.get?).any fun checkpoint =>
    checkpoint.providerKind = "controller-archive"

/-- The transition of `endRestore`. -/
def endQueued (now : Nat) : TransitionInput where
  sources := [.queued]
  target := .failed
  expectedConnectionEpoch := none
  reason := some (some .restoreFailed)
  now := now
  patch := {}
  passes := true

section

variable (scheduler : Scheduler) (now : Nat)

def endRestore (target : LifecycleRow) : Task (Option LifecycleRow) := do
  if target.state = .queued then
    let _ ← onStore (transitionWorkspace target.id (endQueued now))
    modify scheduler.drain
    return (← get).getWorkspace target.id
  else if target.state ≠ .terminating then
    modify (scheduler.beginTermination target .failed .restoreFailed now)
    modify scheduler.drain
    return (← get).getWorkspace target.id
  else
    modify scheduler.drain
    return (← get).getWorkspace target.id

/-- The end of `settleRestore`, with the result workspace as it is now. -/
def settleTarget (operation : WorkspaceOperation) (workspaceId : String) (queued : Bool)
    (target : Option LifecycleRow) : Task Bool := do
  if target.any fun row => row.state.isTerminal then
    failOperation operation.id .restoreFailed now
    return true
  else if queued && operation.resultWorkspaceId = some workspaceId then
    failOperation operation.id .canceledByCaller now
    return true
  else return false

/-- The answer is true when the restore no longer blocks the purge. `queued`
says that the workspace of the purge is queued. -/
def settleRestore (operation : WorkspaceOperation) (workspaceId : String) (queued : Bool) :
    Task Bool := do
  match operation.resultWorkspaceId with
  | none => return false
  | some resultId =>
      let sys ← get
      let transferred := transfersFrom operation sys
      match (sys.getWorkspace resultId).filter fun row => !row.state.isTerminal with
      | none => settleTarget now operation workspaceId queued (sys.getWorkspace resultId)
      | some target =>
          if transferred && target.id = workspaceId && !queued then return true
          else if transferred && operation.workspaceId = some workspaceId then
            settleTarget now operation workspaceId queued (← endRestore scheduler now target)
          else settleTarget now operation workspaceId queued (some target)

def settled (workspaceId : String) (queued : Bool) (operation : WorkspaceOperation) : Task Bool :=
  if operation.kind = .restore then settleRestore scheduler now operation workspaceId queued
  else pure false

/-- The operation blocks the purge. -/
def blocksPurge (workspaceId : String) (queued : Bool) (operation : WorkspaceOperation) :
    Task Bool := do
  let settled ← settled scheduler now workspaceId queued operation
  return operation.kind ≠ .purge && !settled &&
    (operation.workspaceId = some workspaceId || operation.resultWorkspaceId = some workspaceId)

/-- The loop of `hasActiveCopies`. -/
def anyBlocks (workspaceId : String) (queued active : Bool) : List WorkspaceOperation → Task Bool
  | [] => return active
  | operation :: operations => do
      let blocks ← blocksPurge scheduler now workspaceId queued operation
      anyBlocks workspaceId queued (active || blocks) operations

def hasActiveCopies (workspaceId : String) (queued : Bool) : Task Bool := do
  anyBlocks scheduler now workspaceId queued false (← get).listIncompleteOperations

end

/-! ### What the scheduler does -/

def Ended (sys : System) (id : String) : Prop :=
  ∃ row, sys.getWorkspace id = some row ∧ row.state.isTerminal = true

/-- The scheduler ends what it terminates, and no operation is deleted. -/
structure Scheduler.Terminates (scheduler : Scheduler) : Prop where
  drain_ends : ∀ {sys : System} {row : LifecycleRow}, sys.getWorkspace row.id = some row →
    row.state = .terminating → Ended (scheduler.drain sys) row.id
  begin_ends : ∀ {sys : System} {row : LifecycleRow} (now : Nat),
    sys.getWorkspace row.id = some row →
    row.state ∈ [WorkspaceState.provisioning, .connected, .ready, .preserving] →
    Ended (scheduler.drain (scheduler.beginTermination row .failed .restoreFailed now sys)) row.id
  drain_operation : ∀ {sys : System} {id : String}, (sys.operations.get? id).isSome = true →
    ((scheduler.drain sys).operations.get? id).isSome = true
  begin_operation : ∀ {sys : System} {id : String} (row : LifecycleRow) (now : Nat),
    (sys.operations.get? id).isSome = true →
    ((scheduler.beginTermination row .failed .restoreFailed now sys).operations.get? id).isSome = true

/-! ### One restore -/

/-- A restore that copies from a controller archive of the workspace into another one,
which has not ended. -/
structure CopiesFrom (sys : System) (workspaceId : String) (operation : WorkspaceOperation)
    (target : LifecycleRow) : Prop where
  kind : operation.kind = .restore
  archive : transfersFrom operation sys = true
  source : operation.workspaceId = some workspaceId
  result : operation.resultWorkspaceId = some target.id
  other : target.id ≠ workspaceId
  row : sys.getWorkspace target.id = some target
  live : target.state.isTerminal = false

/-- The restore is ended: its result workspace is terminal, it failed with
`restore_failed`, and it does not block the purge. -/
def Settles (scheduler : Scheduler) (now : Nat) (workspaceId : String) (queued : Bool) (sys : System)
    (operation : WorkspaceOperation) (target : LifecycleRow) : Prop :=
  ∃ sys', settleRestore scheduler now operation workspaceId queued sys = .ok (true, sys') ∧
    Ended sys' target.id ∧ ∃ row, sys'.operations.get? operation.id = some row ∧
      row.state = .failed ∧ row.reasonCode = some .restoreFailed

section

variable {scheduler : Scheduler} {now : Nat} {sys : System} {workspaceId : String} {queued : Bool}
  {operation : WorkspaceOperation} {target : LifecycleRow}

/-- No edge of the lifecycle leads from `queued` to `failed`. -/
theorem permitsTransition_endQueued (state : WorkspaceState) (epoch : Nat) :
    permitsTransition state epoch (endQueued now).toTransitionRequest = false := by
  cases state <;> rfl

/-- The store refuses to end a queued workspace this way. -/
theorem transitionWorkspace_endQueued (id : String) (store : Store) :
    transitionWorkspace id (endQueued now) store = .ok (none, store) := by
  refine require_bind_eq_ok.mpr ⟨rfl, ?_⟩
  rw [get_bind]
  cases store.workspaces.get? id with
  | none => rfl
  | some row =>
      dsimp only
      rw [permitsTransition_endQueued]
      rfl

/-- The system after `endRestore`. -/
def Scheduler.after (scheduler : Scheduler) (now : Nat) (target : LifecycleRow) (sys : System) :
    System :=
  if target.state = .queued ∨ target.state = .terminating then scheduler.drain sys
  else scheduler.drain (scheduler.beginTermination target .failed .restoreFailed now sys)

theorem endRestore_eq (target : LifecycleRow) (sys : System) :
    endRestore scheduler now target sys =
      .ok ((scheduler.after now target sys).getWorkspace target.id,
        scheduler.after now target sys) := by
  unfold endRestore Scheduler.after
  by_cases hqueued : target.state = .queued
  · have hstore : onStore (transitionWorkspace target.id (endQueued now)) sys = .ok (none, sys) := by
      rw [onStore, transitionWorkspace_endQueued]
    rw [if_pos hqueued, if_pos (Or.inl hqueued), bind_of_ok hstore]
    rfl
  · rw [if_neg hqueued]
    by_cases hterminating : target.state = .terminating
    · rw [if_neg (not_not.mpr hterminating), if_pos (Or.inr hterminating)]
      rfl
    · rw [if_pos hterminating, if_neg (not_or.mpr ⟨hqueued, hterminating⟩)]
      rfl

theorem settleTarget_of_ended (h : Ended sys target.id)
    (hoperation : (sys.operations.get? operation.id).isSome = true) :
    ∃ sys', settleTarget now operation workspaceId queued (sys.getWorkspace target.id) sys =
        .ok (true, sys') ∧ Ended sys' target.id ∧ ∃ row, sys'.operations.get? operation.id = some row ∧
          row.state = .failed ∧ row.reasonCode = some .restoreFailed := by
  obtain ⟨row, hrow, hterminal⟩ := h
  obtain ⟨stored, hstored⟩ := Option.isSome_iff_exists.mp hoperation
  unfold settleTarget
  rw [hrow, if_pos (by rw [Option.any_some, hterminal])]
  refine ⟨_, rfl, ⟨row, hrow, hterminal⟩, { stored with
    state := .failed, reasonCode := some .restoreFailed, completedAt := some now }, ?_, rfl, rfl⟩
  dsimp only
  rw [Table.get?_updateAt, if_pos rfl, hstored]
  rfl

theorem settleTarget_of_not_ended (h : ¬Ended sys target.id)
    (hresult : operation.resultWorkspaceId = some target.id) (hother : target.id ≠ workspaceId) :
    settleTarget now operation workspaceId queued (sys.getWorkspace target.id) sys =
      .ok (false, sys) := by
  unfold settleTarget
  rw [if_neg, if_neg]
  · rfl
  · rw [Bool.and_eq_true, decide_eq_true_eq, hresult, Option.some.injEq]
    exact fun hboth => hother hboth.2
  · intro hany
    obtain ⟨row, hrow, hterminal⟩ := (Option.any_eq_true _ _).mp hany
    exact h ⟨row, hrow, hterminal⟩

theorem settleRestore_eq (h : CopiesFrom sys workspaceId operation target) :
    settleRestore scheduler now operation workspaceId queued sys =
      settleTarget now operation workspaceId queued
        ((scheduler.after now target sys).getWorkspace target.id) (scheduler.after now target sys) := by
  unfold settleRestore
  rw [h.result]
  dsimp only
  rw [get_bind, h.row, Option.filter_some_pos (by rw [h.live]; rfl)]
  dsimp only
  rw [if_neg, if_pos, bind_of_ok (endRestore_eq target sys)]
  · rw [h.archive, Bool.true_and, decide_eq_true_eq]
    exact h.source
  · rw [Bool.and_eq_true, Bool.and_eq_true, decide_eq_true_eq]
    exact fun hboth => h.other hboth.1.2

theorem runs_of_live {state : WorkspaceState} (hlive : state.isTerminal = false)
    (hqueued : state ≠ .queued) (hterminating : state ≠ .terminating) :
    state ∈ [WorkspaceState.provisioning, .connected, .ready, .preserving] := by
  cases state <;> simp_all [WorkspaceState.isTerminal]

/-- A restore is ended unless its result workspace is queued and stays so. -/
theorem settles_iff (hscheduler : scheduler.Terminates)
    (h : CopiesFrom sys workspaceId operation target)
    (hoperation : (sys.operations.get? operation.id).isSome = true) :
    Settles scheduler now workspaceId queued sys operation target ↔
      (target.state = .queued → Ended (scheduler.drain sys) target.id) := by
  have hafter : ((scheduler.after now target sys).operations.get? operation.id).isSome = true := by
    unfold Scheduler.after
    split_ifs
    · exact hscheduler.drain_operation hoperation
    · exact hscheduler.drain_operation (hscheduler.begin_operation target now hoperation)
  -- settling comes down to the end of the target, as the operation stays stored
  have hsettles : Settles scheduler now workspaceId queued sys operation target ↔
      Ended (scheduler.after now target sys) target.id := by
    rw [Settles, settleRestore_eq h]
    constructor
    · rintro ⟨sys', hrun, -, -⟩
      by_contra hended
      rw [settleTarget_of_not_ended hended h.result h.other] at hrun
      cases hrun
    · exact fun hended => settleTarget_of_ended hended hafter
  rw [hsettles, Scheduler.after]
  have hlive := h.live
  by_cases hqueued : target.state = .queued
  · rw [if_pos (Or.inl hqueued)]
    exact ⟨fun hended _ => hended, fun hended => hended hqueued⟩
  · refine iff_of_true ?_ fun hstate => absurd hstate hqueued
    -- a target that runs is ended by the transition, one that terminates by the scheduler
    by_cases hterminating : target.state = .terminating
    · rw [if_pos (Or.inr hterminating)]
      exact hscheduler.drain_ends h.row hterminating
    · rw [if_neg (not_or.mpr ⟨hqueued, hterminating⟩)]
      refine hscheduler.begin_ends now h.row ?_
      exact runs_of_live hlive hqueued hterminating

/-! ### The loop -/

/-- The loop over the operations comes to one of them, with the system as it is then. -/
inductive Met (scheduler : Scheduler) (now : Nat) (workspaceId : String) (queued : Bool) :
    List WorkspaceOperation → System → WorkspaceOperation → System → Prop
  | here (operation : WorkspaceOperation) (operations : List WorkspaceOperation) (sys : System) :
      Met scheduler now workspaceId queued (operation :: operations) sys operation sys
  | later {first operation : WorkspaceOperation} {operations : List WorkspaceOperation}
      {sys sys₁ sys₂ : System} {blocks : Bool}
      (hfirst : blocksPurge scheduler now workspaceId queued first sys = .ok (blocks, sys₁))
      (hlater : Met scheduler now workspaceId queued operations sys₁ operation sys₂) :
      Met scheduler now workspaceId queued (first :: operations) sys operation sys₂

theorem Met.mem {operations : List WorkspaceOperation} {sys₁ : System}
    (h : Met scheduler now workspaceId queued operations sys operation sys₁) :
    operation ∈ operations := by
  induction h with
  | here => exact List.mem_cons_self
  | later _ _ ih => exact List.mem_cons_of_mem _ ih

theorem settleTarget_keeps (id : String) (row : Option LifecycleRow) :
    Transaction.Maintains (fun sys => (sys.operations.get? id).isSome = true)
      (settleTarget now operation workspaceId queued row) := by
  have hfail : ∀ reason, Transaction.Maintains
      (fun sys : System => (sys.operations.get? id).isSome = true)
      (failOperation operation.id reason now) := by
    intro reason
    refine Transaction.maintains_modify fun sys hsome => ?_
    dsimp only
    rw [Table.get?_updateAt]
    split_ifs with hid
    · rw [Option.isSome_map, ← hid]
      exact hsome
    · exact hsome
  unfold settleTarget
  split_ifs
  · exact Transaction.maintains_bind (hfail _) fun _ => Transaction.maintains_pure true
  · exact Transaction.maintains_bind (hfail _) fun _ => Transaction.maintains_pure true
  · exact Transaction.maintains_pure false

theorem endRestore_keeps (hscheduler : scheduler.Terminates) (id : String) :
    Transaction.Maintains (fun sys => (sys.operations.get? id).isSome = true)
      (endRestore scheduler now target) := by
  intro sys row sys' hsome hrun
  rw [endRestore_eq] at hrun
  cases hrun
  unfold Scheduler.after
  split_ifs
  · exact hscheduler.drain_operation hsome
  · exact hscheduler.drain_operation (hscheduler.begin_operation target now hsome)

/-- No operation row is lost. -/
theorem blocksPurge_keeps (hscheduler : scheduler.Terminates) (id : String) :
    Transaction.Maintains (fun sys => (sys.operations.get? id).isSome = true)
      (blocksPurge scheduler now workspaceId queued operation) := by
  have hsettle : Transaction.Maintains (fun sys => (sys.operations.get? id).isSome = true)
      (settleRestore scheduler now operation workspaceId queued) := by
    unfold settleRestore
    split
    · exact Transaction.maintains_pure false
    · refine Transaction.maintains_get_bind fun sys hsome => ?_
      dsimp only
      split
      · exact settleTarget_keeps id _
      · split_ifs
        · exact Transaction.maintains_pure true
        · exact Transaction.maintains_bind (endRestore_keeps hscheduler id) fun row =>
            settleTarget_keeps id row
        · exact settleTarget_keeps id _
  unfold blocksPurge
  refine Transaction.maintains_bind ?_ fun settled => Transaction.maintains_pure _
  unfold settled
  split_ifs
  · exact hsettle
  · exact Transaction.maintains_pure false

theorem Met.keeps (hscheduler : scheduler.Terminates) {operations : List WorkspaceOperation}
    {sys₁ : System} (h : Met scheduler now workspaceId queued operations sys operation sys₁)
    {id : String} (hsome : (sys.operations.get? id).isSome = true) :
    (sys₁.operations.get? id).isSome = true := by
  induction h with
  | here => exact hsome
  | later hfirst _ ih => exact ih (blocksPurge_keeps hscheduler id _ _ _ hsome hfirst)

/-- An operation that the answer is due to. -/
theorem anyBlocks_true {active : Bool} {operations : List WorkspaceOperation} {sys' : System}
    (h : anyBlocks scheduler now workspaceId queued active operations sys = .ok (true, sys')) :
    active = true ∨ ∃ operation sys₁ sys₂,
      Met scheduler now workspaceId queued operations sys operation sys₁ ∧
      blocksPurge scheduler now workspaceId queued operation sys₁ = .ok (true, sys₂) := by
  induction operations generalizing active sys with
  | nil => exact Or.inl (pure_eq_ok.mp h).1.symm
  | cons first operations ih =>
      obtain ⟨blocks, sys₁, hfirst, h⟩ := bind_eq_ok.mp h
      rcases ih h with hactive | ⟨operation, sys₂, sys₃, hmet, hblocks⟩
      · rcases (Bool.or_eq_true _ _).mp hactive with hactive | rfl
        · exact Or.inl hactive
        · exact Or.inr ⟨first, sys, sys₁, .here _ _ _, hfirst⟩
      · exact Or.inr ⟨operation, sys₂, sys₃, .later hfirst hmet, hblocks⟩

/-- What blocks a purge is an operation of the workspace; a restore that settles does not. -/
theorem blocksPurge_true {sys' : System}
    (h : blocksPurge scheduler now workspaceId queued operation sys = .ok (true, sys')) :
    operation.kind ≠ .purge ∧
      (operation.workspaceId = some workspaceId ∨ operation.resultWorkspaceId = some workspaceId) ∧
      (operation.kind = .restore →
        ∀ sys₁, settleRestore scheduler now operation workspaceId queued sys ≠ .ok (true, sys₁)) := by
  obtain ⟨done, sys₁, hsettled, h⟩ := bind_eq_ok.mp h
  obtain ⟨hblocks, -⟩ := pure_eq_ok.mp h
  have hall := hblocks.symm
  simp only [Bool.and_eq_true, Bool.or_eq_true, decide_eq_true_eq, Bool.not_eq_true'] at hall
  obtain ⟨⟨hkind, hfalse⟩, hworkspace⟩ := hall
  refine ⟨hkind, hworkspace, fun hrestore sys₂ hrun => ?_⟩
  rw [settled, if_pos hrestore, hrun, hfalse] at hsettled
  cases hsettled

end

/-! ### A purge and the restores of its source -/

/-- Every restore from the workspace is settled when the loop comes to it, and what
blocks the purge is another operation. -/
structure RestoresSettled (scheduler : Scheduler) (now : Nat) (workspaceId : String) (queued : Bool)
    (sys : System) : Prop where
  settles : ∀ operation target sys₁,
    Met scheduler now workspaceId queued sys.listIncompleteOperations sys operation sys₁ →
    CopiesFrom sys₁ workspaceId operation target →
    Settles scheduler now workspaceId queued sys₁ operation target
  blocked : ∀ sys', hasActiveCopies scheduler now workspaceId queued sys = .ok (true, sys') →
    ∃ operation sys₁,
      Met scheduler now workspaceId queued sys.listIncompleteOperations sys operation sys₁ ∧
      operation.kind ≠ .purge ∧
      (operation.workspaceId = some workspaceId ∨ operation.resultWorkspaceId = some workspaceId) ∧
      ∀ target, ¬CopiesFrom sys₁ workspaceId operation target

/-- The restores are settled unless the loop comes to one whose result workspace is
queued and is not ended by the scheduler itself. -/
theorem hasActiveCopies_settles (scheduler : Scheduler) (hscheduler : scheduler.Terminates) (now : Nat)
    (workspaceId : String) (queued : Bool) (sys : System) :
    RestoresSettled scheduler now workspaceId queued sys ↔
      ∀ operation target sys₁,
        Met scheduler now workspaceId queued sys.listIncompleteOperations sys operation sys₁ →
        CopiesFrom sys₁ workspaceId operation target → target.state = .queued →
        Ended (scheduler.drain sys₁) target.id := by
  -- the single restore, at the system as the loop finds it
  have hiff : ∀ operation target sys₁,
      Met scheduler now workspaceId queued sys.listIncompleteOperations sys operation sys₁ →
      CopiesFrom sys₁ workspaceId operation target →
      (Settles scheduler now workspaceId queued sys₁ operation target ↔
        (target.state = .queued → Ended (scheduler.drain sys₁) target.id)) := by
    intro operation target sys₁ hmet hcopies
    refine settles_iff hscheduler hcopies (hmet.keeps hscheduler ?_)
    rw [Table.get?_of_mem (List.mem_filter.mp hmet.mem).1]
    rfl
  constructor
  · intro h operation target sys₁ hmet hcopies
    exact (hiff operation target sys₁ hmet hcopies).mp (h.settles operation target sys₁ hmet hcopies)
  · intro h
    have hsettles := fun operation target sys₁ hmet hcopies =>
      (hiff operation target sys₁ hmet hcopies).mpr (h operation target sys₁ hmet hcopies)
    refine ⟨hsettles, fun sys' hrun => ?_⟩
    rcases anyBlocks_true hrun with hfalse | ⟨operation, sys₁, sys₂, hmet, hblocks⟩
    · cases hfalse
    · obtain ⟨hkind, hworkspace, hunsettled⟩ := blocksPurge_true hblocks
      refine ⟨operation, sys₁, hmet, hkind, hworkspace, fun target hcopies => ?_⟩
      obtain ⟨sys₃, hsettled, -, -⟩ := hsettles operation target sys₁ hmet hcopies
      exact hunsettled hcopies.kind sys₃ hsettled

/-! ### A restore into a workspace of any state -/

def terminatedRow (row : LifecycleRow) : LifecycleRow :=
  { row with state := if row.state = .queued then .queued else .terminating }

def finishedRow (row : LifecycleRow) : LifecycleRow :=
  { row with state := if row.state = .terminating then .failed else row.state }

/-- A scheduler that ends what is terminating, and nothing else, when it drains. -/
def promptScheduler : Scheduler where
  beginTermination target _ _ _ sys :=
    { sys with store := sys.store.write target.id terminatedRow fun _ => rfl }
  drain sys :=
    { sys with
      store :=
        { sys.store with workspaces := sys.store.workspaces.update finishedRow fun _ => rfl } }

theorem getWorkspace_drain (sys : System) (id : String) :
    (promptScheduler.drain sys).getWorkspace id = (sys.getWorkspace id).map finishedRow :=
  Table.get?_update sys.store.workspaces finishedRow (fun _ => rfl) id

theorem getWorkspace_begin (sys : System) (target : LifecycleRow) (now : Nat) :
    (promptScheduler.beginTermination target .failed .restoreFailed now sys).getWorkspace target.id =
      (sys.getWorkspace target.id).map terminatedRow :=
  (Table.get?_updateAt sys.store.workspaces target.id terminatedRow (fun _ => rfl) target.id).trans
    (if_pos rfl)

theorem promptScheduler_terminates : promptScheduler.Terminates where
  drain_ends {sys row} hrow hstate := by
    refine ⟨finishedRow row, ?_, ?_⟩
    · rw [getWorkspace_drain, hrow, Option.map_some]
    · rw [finishedRow, if_pos hstate]
      rfl
  begin_ends {sys row} now hrow hstate := by
    have hqueued : row.state ≠ .queued := fun h => absurd (h ▸ hstate) (by decide)
    refine ⟨finishedRow (terminatedRow row), ?_, ?_⟩
    · rw [getWorkspace_drain, getWorkspace_begin, hrow, Option.map_some, Option.map_some]
    · rw [finishedRow, terminatedRow, if_neg hqueued]
      rfl
  drain_operation hsome := hsome
  begin_operation _ _ hsome := hsome

def restoreOperation : WorkspaceOperation where
  id := "restore"
  kind := .restore
  state := .running
  workspaceId := some "source"
  checkpointId := some "checkpoint"
  resultWorkspaceId := some "workspace"
  reasonCode := none
  completedAt := none

/-- The workspace `source` is restored into `workspace`, which is in this state. -/
def restoring (state : WorkspaceState) : System where
  store := { emptyStore with workspaces := Table.empty.insert { sampleInsert.row with state } }
  operations := Table.empty.insert restoreOperation
  checkpoints := Table.empty.insert { id := "checkpoint", providerKind := "controller-archive" }

theorem restoring_operations (state : WorkspaceState) :
    (restoring state).listIncompleteOperations = [restoreOperation] := rfl

theorem restoring_copies {state : WorkspaceState} (h : state.isTerminal = false) :
    CopiesFrom (restoring state) "source" restoreOperation { sampleInsert.row with state } where
  kind := rfl
  archive := rfl
  source := rfl
  result := rfl
  other := show "workspace" ≠ "source" by decide
  row := rfl
  live := h

/-- A workspace that is ready is ended, and its restore does not block the purge. -/
theorem hasActiveCopies_settles_ready :
    RestoresSettled promptScheduler 0 "source" false (restoring .ready) :=
  (hasActiveCopies_settles promptScheduler promptScheduler_terminates 0 "source" false
    (restoring .ready)).mpr fun operation target sys₁ hmet hcopies hqueued => by
      rw [restoring_operations] at hmet
      cases hmet with
      | here =>
          have hrow := hcopies.row
          rw [← Option.some.inj hcopies.result] at hrow
          rw [← Option.some.inj hrow] at hqueued
          cases hqueued
      | later _ hlater => cases hlater

/-- A queued workspace is not ended: its restore stays as it was and blocks the purge. -/
theorem hasActiveCopies_queued :
    CopiesFrom (restoring .queued) "source" restoreOperation { sampleInsert.row with state := .queued } ∧
      ¬RestoresSettled promptScheduler 0 "source" false (restoring .queued) := by
  have hcopies := @restoring_copies .queued rfl
  refine ⟨hcopies, fun h => ?_⟩
  have hsettles := h.settles restoreOperation _ _ (.here _ _ _) hcopies
  obtain ⟨row, hrow, hterminal⟩ := (settles_iff promptScheduler_terminates hcopies rfl).mp hsettles rfl
  rw [getWorkspace_drain, hcopies.row, Option.map_some] at hrow
  rw [← Option.some.inj hrow] at hterminal
  cases hterminal

end PocketCoder.Persistence
