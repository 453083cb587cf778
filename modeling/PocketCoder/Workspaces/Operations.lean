import PocketCoder.Secrets.Leases
import PocketCoder.Foundation.Transitions

/-!
The store of the lifecycle as one transition system: the transactions on
workspaces, leases, secrets and warm runtimes, in any order and with any
arguments.

`Change` says what a transaction may do to workspaces, history and outbox.
It has one case for each way in which a commit is made, and every fact about
histories is derived from it.
-/

namespace PocketCoder.Workspaces.Lifecycle

open PocketCoder.Foundation
open PocketCoder.Foundation.Transaction

/-! ### Warm runtimes -/

/-- The columns that the manager of the warm pools patches. -/
structure WarmPoolRuntimePatch where
  state : Option WarmPoolRuntimeState := none
  providerRef : Option (Option JsonValue) := none
  enrollmentDigest : Option (Option Bytes) := none
  enrollmentExpiresAt : Option (Option Nat) := none
  readyAt : Option (Option Nat) := none
  failureCode : Option (Option String) := none

def WarmPoolRuntimePatch.apply (patch : WarmPoolRuntimePatch) (row : WarmPoolRuntimeRow) :
    WarmPoolRuntimeRow :=
  { row with
    state := patch.state.getD row.state
    providerRef := patch.providerRef.getD row.providerRef
    enrollmentDigest := patch.enrollmentDigest.getD row.enrollmentDigest
    enrollmentExpiresAt := patch.enrollmentExpiresAt.getD row.enrollmentExpiresAt
    readyAt := patch.readyAt.getD row.readyAt
    failureCode := patch.failureCode.getD row.failureCode }

/-- `insertWarmPoolRuntime`: nothing where the identifier is taken. -/
def insertWarmPoolRuntime (row : WarmPoolRuntimeRow) (db : Store) : Store :=
  { db with warmPoolRuntimes := db.warmPoolRuntimes.insert row }

def updateWarmPoolRuntime (id : String) (patch : WarmPoolRuntimePatch) (db : Store) : Store :=
  { db with warmPoolRuntimes := db.warmPoolRuntimes.updateAt id patch.apply fun _ => rfl }

/-! ### Operations -/

/-- The transactions of the store, with their arguments. -/
inductive Operation where
  | insertWorkspace (input : WorkspaceInsert) (maxQueuedWorkspaces : Option Nat)
  | updateWorkspace (id : String) (patch : WorkspacePatch)
  | transition (id : String) (req : TransitionInput)
  | setQueuedAdmissionReason (id : String) (reason : Option AdmissionReason)
  | claimWorkspaceAdmission (claim : WorkspaceAdmissionClaim)
  | claimWarmPoolRuntime (claim : WarmPoolClaim) (choice : Option String)
  | admitPurge (id : String) (now : Nat)
  | requestWorkspaceLease (id : String) (input : WorkspaceLeaseRequest)
  | recordWorkspaceLeaseIssued (id issuerLeaseId : String) (expiresAt : Nat)
      (credentialBytes : Int) (now : Nat)
  | recordWorkspaceLeaseDelivered (id : String) (now : Nat)
  | requestWorkspaceLeaseRevocation (id : String)
  | fenceWorkspaceLeases (workspaceId : String)
  | recordWorkspaceLeaseRevoked (id requestId : String) (now : Nat)
  | recordWorkspaceLeaseExpired (id : String) (now : Nat)
  | writeSecret (authorized : Bool) (name : String) (type : SecretType) (versionId : String)
  | retireSecret (authorized : Bool) (name : String) (now : Nat)
  | insertWarmPoolRuntime (row : WarmPoolRuntimeRow)
  | updateWarmPoolRuntime (id : String) (patch : WarmPoolRuntimePatch)

/-- The store after an operation, committed or rolled back. -/
def transact (db : Store) : Operation → Store
  | .insertWorkspace input limit => committed (insertWorkspace input limit) db
  | .updateWorkspace id patch => committed (updateWorkspace id patch) db
  | .transition id req => committed (transitionWorkspace id req) db
  | .setQueuedAdmissionReason id reason => committed (setQueuedAdmissionReason id reason) db
  | .claimWorkspaceAdmission claim => committed (claimWorkspaceAdmission claim) db
  | .claimWarmPoolRuntime claim choice => committed (claimWarmPoolRuntime claim choice) db
  | .admitPurge id now => committed (admitPurge id now) db
  | .requestWorkspaceLease id input => committed (requestWorkspaceLease id input) db
  | .recordWorkspaceLeaseIssued id issuerLeaseId expiresAt credentialBytes now =>
      committed (recordWorkspaceLeaseIssued id issuerLeaseId expiresAt credentialBytes now) db
  | .recordWorkspaceLeaseDelivered id now => committed (recordWorkspaceLeaseDelivered id now) db
  | .requestWorkspaceLeaseRevocation id => committed (requestWorkspaceLeaseRevocation id) db
  | .fenceWorkspaceLeases workspaceId => committed (fenceWorkspaceLeases workspaceId) db
  | .recordWorkspaceLeaseRevoked id requestId now =>
      committed (recordWorkspaceLeaseRevoked id requestId now) db
  | .recordWorkspaceLeaseExpired id now => committed (recordWorkspaceLeaseExpired id now) db
  | .writeSecret authorized name type versionId =>
      committed (writeSecret authorized name type versionId) db
  | .retireSecret authorized name now => committed (retireSecret authorized name now) db
  | .insertWarmPoolRuntime row => insertWarmPoolRuntime row db
  | .updateWarmPoolRuntime id patch => updateWarmPoolRuntime id patch db

/-- One step of the store. -/
def Transacts (db : Store) (operation : Operation) (db' : Store) : Prop :=
  db' = transact db operation

/-! ### Changes of workspaces -/

/-- The tables of the lifecycle are the same. -/
structure SameWorkspaces (db db' : Store) : Prop where
  workspaces : db'.workspaces = db.workspaces
  history : db'.workspaceStateHistory = db.workspaceStateHistory
  outbox : db'.eventOutbox = db.eventOutbox

theorem SameWorkspaces.refl (db : Store) : SameWorkspaces db db := ⟨rfl, rfl, rfl⟩

theorem SameWorkspaces.trans {db db' db'' : Store} (h : SameWorkspaces db db')
    (h' : SameWorkspaces db' db'') : SameWorkspaces db db'' :=
  ⟨h'.workspaces.trans h.workspaces, h'.history.trans h.history, h'.outbox.trans h.outbox⟩

/-- A row whose state is not changed. -/
structure Patches (row row' : LifecycleRow) : Prop where
  state : row'.state = row.state
  changeSeq : row.changeSeq ≤ row'.changeSeq
  terminalAt : row'.terminalAt = row.terminalAt

/-- A row that moves along an edge of the lifecycle. -/
structure MovesTo (row row' : LifecycleRow) : Prop where
  state : row.state.canTransition row'.state = true
  changeSeq : row.changeSeq < row'.changeSeq
  terminal : row'.state.isTerminal = true →
    row'.terminalAt.isSome = true ∧ row'.launchInput = none ∧ row'.registrationDigest = none
  terminalAt : row'.state.isTerminal = false → row'.terminalAt = row.terminalAt
  purgeRequestedAt : row'.purgeRequestedAt = row.purgeRequestedAt

/-- The history row of a move. -/
def Records (entry : StateHistoryRow) (id : String) (origin : Option WorkspaceState)
    (target : WorkspaceState) : Prop :=
  entry.workspaceId = id ∧ entry.fromState = origin ∧ entry.toState = target

/-- What a commit writes to the history and the outbox. -/
def Appends (db db' : Store) (row : LifecycleRow) (origin : Option WorkspaceState) : Prop :=
  ∃ entry event, Records entry row.id origin row.state ∧ event.workspaceId = row.id ∧
    db'.workspaceStateHistory = db.workspaceStateHistory ++ [entry] ∧
    db'.eventOutbox =
      if row.purgeRequestedAt.isSome then db.eventOutbox else db.eventOutbox ++ [event]

/-- What an operation does to the workspaces: nothing, or one of three
commits for one workspace. -/
inductive Change (db db' : Store) : Prop
  | same (h : SameWorkspaces db db')
  | created (row : LifecycleRow) (hnone : db.workspaces.get? row.id = none)
      (hrows : ∀ id, db'.workspaces.get? id =
        if row.id = id then some row else db.workspaces.get? id)
      (hstate : row.state = .queued) (hterminal : row.terminalAt = none)
      (hpurge : row.purgeRequestedAt = none) (happends : Appends db db' row none)
  | patched (row row' : LifecycleRow) (hrow : db.workspaces.get? row.id = some row)
      (hrows : ∀ id, db'.workspaces.get? id =
        if row.id = id then some row' else db.workspaces.get? id)
      (hpatches : Patches row row')
      (hhistory : db'.workspaceStateHistory = db.workspaceStateHistory)
      (houtbox : db'.eventOutbox = db.eventOutbox)
  | moved (row row' : LifecycleRow) (hrow : db.workspaces.get? row.id = some row)
      (hrows : ∀ id, db'.workspaces.get? id =
        if row.id = id then some row' else db.workspaces.get? id)
      (hid : row'.id = row.id) (hmoves : MovesTo row row')
      (happends : Appends db db' row' (some row.state))

/-- A write to one row. -/
theorem get?_write {db : Store} {id : String} {row : LifecycleRow}
    {f : LifecycleRow → LifecycleRow} (hrow : db.workspaces.get? id = some row)
    (hf : ∀ row, (f row).id = row.id) (id' : String) :
    (db.write id f hf).workspaces.get? id' =
      if row.id = id' then some (f row) else db.workspaces.get? id' := by
  have hid := Table.key_of_get? hrow
  rw [Store.write, Table.get?_updateAt, hrow, hid]
  by_cases h : id' = id
  · rw [if_pos h, if_pos h.symm]
    rfl
  · rw [if_neg h, if_neg fun heq => h heq.symm]

theorem write_of_none {db : Store} {id : String} {f : LifecycleRow → LifecycleRow}
    {hf : ∀ row, (f row).id = row.id} (hrow : db.workspaces.get? id = none) :
    SameWorkspaces db (db.write id f hf) :=
  ⟨Table.updateAt_of_none hrow f hf, rfl, rfl⟩

/-- A patch of one row, when there is one. -/
theorem Change.write {db : Store} {id : String} {f : LifecycleRow → LifecycleRow}
    {hf : ∀ row, (f row).id = row.id}
    (hpatches : ∀ row, db.workspaces.get? id = some row → Patches row (f row)) :
    Change db (db.write id f hf) := by
  cases hrow : db.workspaces.get? id with
  | none => exact .same (write_of_none hrow)
  | some row =>
      have hid := Table.key_of_get? hrow
      exact .patched row (f row) (hid ▸ hrow) (get?_write hrow hf) (hpatches row hrow) rfl rfl

/-! ### Every operation -/

variable {db db' : Store}

theorem appends_appendTransition (db₁ : Store) (row : LifecycleRow)
    (origin : Option WorkspaceState) (reason : Option ReasonCode) (now : Nat)
    (hhistory : db₁.workspaceStateHistory = db.workspaceStateHistory)
    (houtbox : db₁.eventOutbox = db.eventOutbox) :
    Appends db (appendTransition row origin reason now db₁) row origin := by
  refine ⟨{ workspaceId := row.id, fromState := origin, toState := row.state, reasonCode := reason
            occurredAt := now }, { workspaceId := row.id, payload := buildEventEnvelope row now },
    ⟨rfl, rfl, rfl⟩, rfl, ?_, ?_⟩
  · rw [appendTransition, hhistory]
  · rw [appendTransition, houtbox]

theorem insertWorkspace_eq_ok {input : WorkspaceInsert} {limit : Option Nat}
    {result : WorkspaceInsertResult} (h : insertWorkspace input limit db = .ok (result, db')) :
    db' = db ∨ (db.workspaces.get? input.id = none ∧
      db' = appendTransition input.row none none input.createdAt
        { db with workspaces := db.workspaces.insert input.row }) := by
  rw [insertWorkspace, get_bind] at h
  cases hconflict : conflict db input with
  | some other =>
      rw [hconflict] at h
      exact .inl (pure_eq_ok.mp h).2
  | none =>
      rw [hconflict] at h
      dsimp only at h
      split_ifs at h
      · exact .inl (pure_eq_ok.mp h).2
      · obtain ⟨hnone, h⟩ := require_bind_eq_ok.mp h
        rw [set_bind] at h
        exact .inr ⟨Option.isNone_iff_eq_none.mp hnone, (pure_eq_ok.mp h).2⟩

/-- The rows after an insertion. -/
theorem get?_inserted {row : LifecycleRow} (hnone : db.workspaces.get? row.id = none)
    (id : String) :
    (db.workspaces.insert row).get? id = if row.id = id then some row else db.workspaces.get? id := by
  rw [Table.get?_insert]
  by_cases hid : row.id = id
  · rw [if_pos hid, if_pos hid, ← hid, hnone, Option.none_or]
  · rw [if_neg hid, if_neg hid, Option.or_none]

theorem insertWorkspace_change {input : WorkspaceInsert} {limit : Option Nat}
    {result : WorkspaceInsertResult} (h : insertWorkspace input limit db = .ok (result, db')) :
    Change db db' := by
  rcases insertWorkspace_eq_ok h with rfl | ⟨hnone, rfl⟩
  · exact .same (.refl _)
  · exact .created input.row hnone (get?_inserted hnone) rfl rfl rfl
      (appends_appendTransition _ _ _ _ _ rfl rfl)

theorem patchedRow_patches (patch : WorkspacePatch) (row : LifecycleRow) :
    Patches row (patchedRow patch row) := by
  have hseq : (patchedRow patch row).changeSeq =
      if patch.bumpsChange then row.changeSeq + 1 else row.changeSeq := rfl
  refine ⟨?_, ?_, ?_⟩
  · unfold patchedRow
    split <;> rfl
  · rw [hseq]
    split <;> omega
  · unfold patchedRow
    split <;> rfl

theorem updateWorkspace_change {id : String} {patch : WorkspacePatch} {u : Unit}
    (h : updateWorkspace id patch db = .ok (u, db')) : Change db db' := by
  rw [modify_eq_ok.mp h]
  exact .write fun row _ => patchedRow_patches patch row

theorem setQueuedAdmissionReason_change {id : String} {reason : Option AdmissionReason} {u : Unit}
    (h : setQueuedAdmissionReason id reason db = .ok (u, db')) : Change db db' := by
  rw [setQueuedAdmissionReason, get_bind] at h
  split_ifs at h
  · rw [set_eq_ok.mp h]
    exact .write fun row _ => ⟨rfl, Nat.le_succ _, rfl⟩
  · obtain ⟨-, rfl⟩ := pure_eq_ok.mp h
    exact .same (.refl _)

theorem admitPurge_change {id : String} {now : Nat} {u : Unit}
    (h : admitPurge id now db = .ok (u, db')) : Change db db' := by
  rw [modify_eq_ok.mp h]
  exact .write fun row _ => ⟨rfl, le_rfl, rfl⟩

theorem prepareLeaseTransition_same {id : String} {target : WorkspaceState} {prepared : Bool}
    (h : prepareLeaseTransition id target db = .ok (prepared, db')) : SameWorkspaces db db' := by
  rw [prepareLeaseTransition] at h
  split_ifs at h
  · obtain ⟨-, rfl⟩ := pure_eq_ok.mp h
    exact .refl _
  · rw [modify_bind, get_bind] at h
    obtain ⟨-, rfl⟩ := pure_eq_ok.mp h
    exact ⟨rfl, rfl, rfl⟩

theorem transitionedRow_moves {req : TransitionInput} {row : LifecycleRow}
    (hpermits : row.state.canTransition req.target = true) :
    MovesTo row (transitionedRow req row) := by
  have hstate : (transitionedRow req row).state = req.target := by
    unfold transitionedRow
    dsimp only
    split <;> split <;> rfl
  have hseq : (transitionedRow req row).changeSeq = row.changeSeq + 1 := by
    unfold transitionedRow
    dsimp only
    split <;> rfl
  refine ⟨hstate ▸ hpermits, by omega, fun hterminal => ?_, fun hterminal => ?_, ?_⟩
  · rw [hstate] at hterminal
    unfold transitionedRow
    dsimp only
    rw [if_pos hterminal]
    exact ⟨rfl, rfl, rfl⟩
  · rw [hstate] at hterminal
    unfold transitionedRow
    dsimp only
    rw [if_neg (by rw [hterminal]; decide)]
    split <;> rfl
  · unfold transitionedRow
    dsimp only
    split <;> split <;> rfl

/-- What a transition does: nothing, fence the leases, or move the row. -/
theorem transitionWorkspace_eq_ok {id : String} {req : TransitionInput}
    {result : Option LifecycleRow} (h : transitionWorkspace id req db = .ok (result, db')) :
    (result = none ∧ db' = db) ∨
    ∃ current db₁ prepared, db.workspaces.get? id = some current ∧
      permitsTransition current.state current.connectionEpoch req.toTransitionRequest = true ∧
      (req.target = .ready → setupLeaseClosed db current = true) ∧
      prepareLeaseTransition id req.target db = .ok (prepared, db₁) ∧
      ((prepared = false ∧ result = none ∧ db' = db₁) ∨
        (prepared = true ∧ result = some (transitionedRow req current) ∧
          db' = appendTransition (transitionedRow req current) (some current.state)
            (transitionedRow req current).reasonCode req.now
            (db₁.write id (transitionedRow req) (transitionedRow_id req)))) := by
  obtain ⟨-, h⟩ := require_bind_eq_ok.mp h
  rw [get_bind] at h
  cases hrow : db.workspaces.get? id with
  | none =>
      rw [hrow] at h
      exact .inl (pure_eq_ok.mp h)
  | some current =>
      rw [hrow] at h
      dsimp only at h
      split_ifs at h with hpermits hpurge hsetup
      · exact .inl (pure_eq_ok.mp h)
      · exact .inl (pure_eq_ok.mp h)
      · exact .inl (pure_eq_ok.mp h)
      · obtain ⟨prepared, db₁, hprepare, h⟩ := bind_eq_ok.mp h
        refine .inr ⟨current, db₁, prepared, rfl, by simpa using hpermits, fun hready => ?_,
          hprepare, ?_⟩
        · rw [hready] at hsetup
          simpa using hsetup
        · cases prepared with
          | false => exact .inl ⟨rfl, pure_eq_ok.mp h⟩
          | true =>
              rw [Bool.not_true, if_neg (by decide), modify_bind] at h
              obtain ⟨hresult, rfl⟩ := pure_eq_ok.mp h
              exact .inr ⟨rfl, hresult, rfl⟩

theorem transitionWorkspace_change {id : String} {req : TransitionInput}
    {result : Option LifecycleRow} (h : transitionWorkspace id req db = .ok (result, db')) :
    Change db db' := by
  rcases transitionWorkspace_eq_ok h with ⟨-, rfl⟩ |
    ⟨current, db₁, prepared, hrow, hpermits, -, hprepare, hcase⟩
  · exact .same (.refl _)
  · have hsame := prepareLeaseTransition_same hprepare
    rcases hcase with ⟨-, -, rfl⟩ | ⟨-, -, rfl⟩
    · exact .same hsame
    · have hid := Table.key_of_get? hrow
      have hcan : current.state.canTransition req.target = true := by
        rw [permitsTransition, Bool.and_eq_true, Bool.and_eq_true] at hpermits
        exact hpermits.1.2
      have hrow₁ : db₁.workspaces.get? id = some current := by rw [hsame.workspaces, hrow]
      refine .moved current (transitionedRow req current) (hid ▸ hrow) (fun id' => ?_)
        (transitionedRow_id req current) (transitionedRow_moves hcan)
        (appends_appendTransition _ _ _ _ _ hsame.history hsame.outbox)
      rw [← hsame.workspaces]
      exact get?_write hrow₁ (transitionedRow_id req) id'

theorem claimWorkspaceAdmission_eq_ok {claim : WorkspaceAdmissionClaim}
    {result : Option LifecycleRow} (h : claimWorkspaceAdmission claim db = .ok (result, db')) :
    db' = db ∨ ∃ current, db.workspaces.get? claim.workspaceId = some current ∧
      current.state = .queued ∧ current.purgeRequestedAt = none ∧
      hasCapacity db claim.limits current = true ∧
      db' = appendTransition (admittedRow claim current) (some .queued) none claim.now
        (db.write claim.workspaceId (admittedRow claim) fun _ => rfl) := by
  rw [claimWorkspaceAdmission, get_bind] at h
  cases hrow : db.workspaces.get? claim.workspaceId with
  | none =>
      rw [hrow] at h
      exact .inl (pure_eq_ok.mp h).2
  | some current =>
      rw [hrow] at h
      dsimp only at h
      split_ifs at h with hqueued hcapacity
      · exact .inl (pure_eq_ok.mp h).2
      · exact .inl (pure_eq_ok.mp h).2
      · rw [set_bind] at h
        simp only [Bool.or_eq_true, decide_eq_true_eq, not_or, not_not, Bool.not_eq_true,
          Option.isSome_eq_false_iff, Option.isNone_iff_eq_none] at hqueued
        exact .inr ⟨current, rfl, hqueued.1, hqueued.2, by simpa using hcapacity,
          (pure_eq_ok.mp h).2⟩

/-- A queued workspace starts provisioning. -/
theorem movesTo_provisioning {row row' : LifecycleRow} (hqueued : row.state = .queued)
    (hstate : row'.state = .provisioning) (hseq : row'.changeSeq = row.changeSeq + 1)
    (hterminal : row'.terminalAt = row.terminalAt)
    (hpurge : row'.purgeRequestedAt = row.purgeRequestedAt) : MovesTo row row' := by
  refine ⟨?_, by omega, fun h => ?_, fun _ => hterminal, hpurge⟩
  · rw [hqueued, hstate]
    rfl
  · rw [hstate] at h
    cases h

theorem claimWorkspaceAdmission_change {claim : WorkspaceAdmissionClaim}
    {result : Option LifecycleRow} (h : claimWorkspaceAdmission claim db = .ok (result, db')) :
    Change db db' := by
  rcases claimWorkspaceAdmission_eq_ok h with rfl | ⟨current, hrow, hqueued, -, -, rfl⟩
  · exact .same (.refl _)
  · have hid := Table.key_of_get? hrow
    refine .moved current (admittedRow claim current) (hid ▸ hrow)
      (get?_write (f := admittedRow claim) hrow fun _ => rfl) rfl
      (movesTo_provisioning hqueued rfl rfl rfl rfl) ?_
    rw [hqueued]
    exact appends_appendTransition _ _ _ _ _ rfl rfl

theorem claimWarmPoolRuntime_eq_ok {claim : WarmPoolClaim} {choice : Option String}
    {result : Option WarmClaimResult} (h : claimWarmPoolRuntime claim choice db = .ok (result, db')) :
    ((result = none ∨ result = some .stale) ∧ db' = db) ∨
    ∃ locked runtime, db.workspaces.get? claim.workspace.id = some locked ∧
      locked.state = .queued ∧ locked.purgeRequestedAt = none ∧
      locked.changeSeq = claim.workspace.changeSeq ∧ locked.outputs = claim.workspace.outputs ∧
      candidate db claim locked.templateDigest choice = some runtime ∧
      result = some (.leased (leasedRuntime claim.workspace.id claim.now runtime)
        (warmRow claim runtime locked)) ∧ db' = warmClaimed claim runtime db := by
  rw [claimWarmPoolRuntime, get_bind] at h
  cases hrow : db.workspaces.get? claim.workspace.id with
  | none =>
      rw [hrow] at h
      obtain ⟨hresult, hdb⟩ := pure_eq_ok.mp h
      exact .inl ⟨.inl hresult, hdb⟩
  | some locked =>
      rw [hrow] at h
      dsimp only at h
      split_ifs at h with hqueued hfresh
      · obtain ⟨hresult, hdb⟩ := pure_eq_ok.mp h
        exact .inl ⟨.inl hresult, hdb⟩
      · obtain ⟨hresult, hdb⟩ := pure_eq_ok.mp h
        exact .inl ⟨.inr hresult, hdb⟩
      · simp only [Bool.or_eq_true, decide_eq_true_eq, not_or, not_not, Bool.not_eq_true,
          Option.isSome_eq_false_iff, Option.isNone_iff_eq_none] at hqueued hfresh
        cases hcandidate : candidate db claim locked.templateDigest choice with
        | none =>
            rw [hcandidate] at h
            obtain ⟨hresult, hdb⟩ := pure_eq_ok.mp h
            exact .inl ⟨.inl hresult, hdb⟩
        | some runtime =>
            rw [hcandidate] at h
            dsimp only at h
            rw [set_bind] at h
            obtain ⟨hresult, hdb⟩ := pure_eq_ok.mp h
            exact .inr ⟨locked, runtime, rfl, hqueued.1, hqueued.2, hfresh.1, hfresh.2, hcandidate,
              hresult, hdb⟩

theorem claimWarmPoolRuntime_change {claim : WarmPoolClaim} {choice : Option String}
    {result : Option WarmClaimResult} (h : claimWarmPoolRuntime claim choice db = .ok (result, db')) :
    Change db db' := by
  rcases claimWarmPoolRuntime_eq_ok h with ⟨-, rfl⟩ |
    ⟨locked, runtime, hrow, hqueued, hpurge, -, -, -, -, rfl⟩
  · exact .same (.refl _)
  · have hid := Table.key_of_get? hrow
    refine .moved locked (warmRow claim runtime locked) (hid ▸ hrow)
      (get?_write (f := warmRow claim runtime) hrow fun _ => rfl) rfl
      (movesTo_provisioning hqueued rfl rfl rfl rfl)
      ⟨_, { workspaceId := claim.workspace.id, payload := warmEnvelope claim },
        ⟨hid.symm, congrArg some hqueued.symm, rfl⟩, hid.symm, rfl, ?_⟩
    have hnone : (warmRow claim runtime locked).purgeRequestedAt = none := hpurge
    rw [hnone]
    rfl

end PocketCoder.Workspaces.Lifecycle
