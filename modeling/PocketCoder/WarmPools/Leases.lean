import Mathlib.Data.List.ReduceOption
import PocketCoder.WarmPools.Manager
import PocketCoder.Workspaces.History

/-!
A warm runtime serves at most one workspace, in every interleaving that leaves
`markReady` alone: between its last read of a runtime and its write no operation
leases the runtime, and none begins or ends its removal. What `markReady` checks
in its read then still holds when it writes.
-/

namespace PocketCoder.WarmPools

open PocketCoder.Foundation PocketCoder.Foundation.Async PocketCoder.Foundation.Transaction
open PocketCoder.Workspaces PocketCoder.Workspaces.Lifecycle

/-! ### What the manager performs -/

/-- The runtime is not ready yet. -/
def Provisioning (db : Store) (id : String) : Prop :=
  ∃ runtime, db.warmPoolRuntimes.get? id = some runtime ∧ runtime.state = .provisioning

/-- What the manager performs, by the store that it has read last. A patch of a
runtime keeps its state, or removes the runtime, or offers it; it offers only
what it has found `provisioning`. -/
def Ordinary (db : Store) : Operation → Prop
  | .insertWarmPoolRuntime row => row.state = .provisioning
  | .updateWarmPoolRuntime id patch =>
      patch.state = none ∨ patch.state = some .draining ∨ patch.state = some .failed ∨
        patch.state = some .ready ∧ Provisioning db id
  | _ => True

theorem Foreign.ordinary {operation : Operation} (h : Foreign operation) (db : Store) :
    Ordinary db operation := by
  cases operation with
  | insertWarmPoolRuntime => cases h
  | updateWarmPoolRuntime => cases h
  | _ => exact trivial

variable {deps : Deps}

theorem performs_update {id : String} {patch : WarmPoolRuntimePatch}
    (h : patch.state = none ∨ patch.state = some .draining ∨ patch.state = some .failed) :
    Performs Ordinary (updateWarmPoolRuntime id patch) := by
  refine performs_perform (fun db => ?_) _
  rcases h with h | h | h
  · exact .inl h
  · exact .inr (.inl h)
  · exact .inr (.inr (.inl h))

theorem performs_ensure (condition : Bool) : Performs Ordinary (ensure condition) :=
  performs_ite (fun _ => performs_pure _) fun _ => performs_throw

theorem performs_currentTermination (id : String) : Performs Ordinary (currentTermination id) :=
  performs_bind (performs_read _) fun _ => performs_pure _

theorem performs_stopProvider (refs : ProviderRefs) (workspace : ProviderRefs.Termination) :
    Performs Ordinary (stopProvider refs workspace) := by
  refine performs_bind (performs_attempt performs_call) fun stopped => ?_
  cases stopped with
  | ok evidence => exact performs_pure _
  | error _ =>
      refine performs_bind (performs_currentTermination _) fun current => ?_
      exact performs_bind (performs_ensure _) fun _ => performs_pure _

theorem performs_saveEvidence (refs : ProviderRefs) (workspace : ProviderRefs.Termination)
    (evidence : JsonValue) : Performs Ordinary (saveEvidence refs workspace evidence) := by
  refine performs_bind (performs_currentTermination _) fun current => ?_
  split
  · exact performs_throw
  · exact performs_bind (performs_ensure _) fun _ => performs_update (.inl rfl)

theorem performs_stopWorkspaceProvider (refs : ProviderRefs) (workspace : ProviderRefs.Termination) :
    Performs Ordinary (stopWorkspaceProvider refs workspace) := by
  refine performs_ite (fun _ => performs_pure _) fun _ => ?_
  refine performs_bind (performs_stopProvider refs workspace) fun evidence => ?_
  refine performs_bind (performs_option_forM fun evidence => ?_) fun _ => performs_call
  exact performs_saveEvidence refs workspace evidence

theorem performs_uncommittedProvider (row : WarmPoolRuntimeRow) :
    Performs Ordinary (uncommittedProvider deps row) := by
  refine performs_ite (fun _ => performs_call) fun _ => ?_
  refine performs_bind (performs_ensure _) fun _ => performs_bind performs_call fun providers => ?_
  exact performs_bind (performs_ensure _) fun _ => performs_pure _

theorem performs_committedRef (row : WarmPoolRuntimeRow) :
    Performs Ordinary (committedRef deps row) := by
  rw [committedRef]
  split
  · exact performs_pure _
  · refine performs_bind (performs_uncommittedProvider row) fun ref => ?_
    refine performs_bind (performs_option_forM fun ref => ?_) fun _ => performs_pure _
    exact performs_update (.inl rfl)

theorem performs_withWorkspaceEvidence (row : WarmPoolRuntimeRow) (ref : JsonValue) :
    Performs Ordinary (withWorkspaceEvidence deps row ref) := by
  rw [withWorkspaceEvidence.eq_def]
  split
  · refine performs_bind (performs_read _) fun workspace => ?_
    split
    · exact performs_pure _
    · exact performs_bind (performs_update (.inl rfl)) fun _ => performs_pure _
  · exact performs_pure _

theorem performs_cleanupWarmProvider (row : WarmPoolRuntimeRow) :
    Performs Ordinary (cleanupWarmProvider deps row) := by
  refine performs_bind (performs_committedRef row) fun ref => performs_option_forM fun ref => ?_
  refine performs_bind (performs_withWorkspaceEvidence row ref) fun ref => ?_
  exact performs_stopWorkspaceProvider _ _

theorem performs_destroy (row : WarmPoolRuntimeRow) (reason : String) :
    Performs Ordinary (destroy deps row reason) := by
  refine performs_bind (performs_update (.inr (.inl rfl))) fun _ => ?_
  refine performs_bind (performs_attempt (performs_cleanupWarmProvider row)) fun cleaned => ?_
  cases cleaned with
  | error _ => exact performs_pure _
  | ok _ => exact performs_bind (performs_update (.inr (.inr rfl))) fun _ => performs_pure _

theorem performs_releaseLease (row : LifecycleRow) (runtime : WarmPoolRuntimeRow) :
    Performs Ordinary (releaseLease deps row runtime) := by
  refine performs_bind (performs_destroy runtime _) fun destroyed => ?_
  refine performs_bind performs_outside fun now => performs_ite (fun _ => ?_) fun _ => ?_
  · exact performs_bind (performs_perform (fun _ => trivial) _) fun _ => performs_pure _
  · exact performs_bind (performs_perform (fun _ => trivial) _) fun _ => performs_pure _

theorem performs_tryLease (row : LifecycleRow) (registrationDigest : Bytes)
    (registrationExpiresAt : Nat) :
    Performs Ordinary (tryLease deps row registrationDigest registrationExpiresAt) := by
  rw [tryLease]
  split
  · exact performs_pure _
  · refine performs_bind performs_outside fun started => performs_bind performs_outside fun choice => ?_
    refine performs_bind (performs_perform (fun _ => trivial) _) fun result => ?_
    split
    · exact performs_pure _
    · exact performs_pure _
    · refine performs_bind performs_outside fun assigned => ?_
      exact performs_ite (fun _ => performs_pure _) fun _ => performs_releaseLease row _

/-- What follows the loop may use the row, which is the last one that was read. -/
theorem performs_awaitRef {α : Type} (id : String) (attempts : Nat)
    {rest : Option WarmPoolRuntimeRow → Task α}
    (hrest : ∀ db, PerformsFrom Ordinary db (rest (db.warmPoolRuntimes.get? id))) (db : Store) :
    PerformsFrom Ordinary db (awaitRef id attempts (db.warmPoolRuntimes.get? id) >>= rest) := by
  induction attempts generalizing db with
  | zero => exact hrest db
  | succ attempts ih =>
      rw [awaitRef]
      split
      · exact ⟨fun _ ho => (by cases ho), fun db' => ih db'⟩
      · exact hrest db

theorem performs_markReady (id : String) : Performs Ordinary (markReady id) := by
  refine performs_read_bind (performs_awaitRef id 50 fun db => ?_)
  split
  · rename_i hfound
    obtain ⟨row, hrow, hstate⟩ := (Option.any_eq_true _ _).mp hfound
    have hprovisioning := of_decide_eq_true (Bool.and_eq_true_iff.mp hstate).1
    refine .outside fun now => PerformsFrom.bind ?_ fun _ => performs_pure _
    exact .perform (.inr (.inr (.inr ⟨rfl, row, hrow, hprovisioning⟩))) _
  · exact performs_pure _ _

theorem performs_disconnected (id : String) : Performs Ordinary (disconnected deps id) := by
  refine performs_bind (performs_read _) fun row => ?_
  split
  · exact performs_pure _
  · exact performs_discard (performs_destroy _ _)

theorem performs_create (pool : ResolvedWarmPool) : Performs Ordinary (create deps pool) := by
  refine performs_bind performs_outside fun now => performs_bind performs_outside fun id => ?_
  refine performs_bind performs_outside fun enrollmentDigest => ?_
  have hinsert : ∀ db, Ordinary db (.insertWarmPoolRuntime
      (newRuntime deps pool id enrollmentDigest now)) := fun _ => rfl
  refine performs_bind (performs_perform hinsert _) fun _ => ?_
  refine performs_bind (performs_attempt (performs_bind performs_call fun ref => ?_)) fun created => ?_
  · exact performs_update (.inl rfl)
  · cases created with
    | ok _ => exact performs_pure _
    | error _ =>
        refine performs_bind (performs_update (.inr (.inl rfl))) fun _ => ?_
        exact performs_discard (performs_destroy _ _)

theorem performs_cleanupReason (row : WarmPoolRuntimeRow) (pool : Option ResolvedWarmPool)
    (now : Nat) : Performs Ordinary (cleanupReason row pool now) := by
  rw [cleanupReason.eq_def]
  split
  · exact performs_pure _
  · refine performs_ite (fun _ => performs_pure _) fun _ => ?_
    refine performs_ite (fun _ => performs_pure _) fun _ => ?_
    rw [workspaceEnded]
    split
    · exact performs_pure _
    · exact performs_bind (performs_read _) fun _ => performs_pure _

theorem performs_reconcileRow (row : WarmPoolRuntimeRow) (pool : Option ResolvedWarmPool)
    (now : Nat) : Performs Ordinary (reconcileRow deps row pool now) := by
  refine performs_ite (fun _ => performs_discard (performs_destroy _ _)) fun _ => ?_
  refine performs_bind (performs_cleanupReason row pool now) fun reason => ?_
  cases reason with
  | some reason =>
      exact performs_ite (fun _ => performs_pure _) fun _ => performs_discard (performs_destroy _ _)
  | none =>
      refine performs_ite (fun _ => performs_pure _) fun _ => performs_bind performs_call fun state => ?_
      exact performs_ite (fun _ => performs_discard (performs_destroy _ _)) fun _ => performs_pure _

theorem performs_adopt (listing : Listing) (provider : WarmProvider) :
    Performs Ordinary (adopt deps listing provider) := by
  rw [adopt]
  split
  · exact performs_pure _
  · refine performs_ite (fun _ => ?_) fun _ => performs_pure _
    exact performs_bind (performs_update (.inl rfl)) fun _ => performs_pure _

theorem performs_reconcile : Performs Ordinary (reconcile deps) := by
  refine performs_bind performs_outside fun now => performs_bind (performs_read _) fun rows => ?_
  refine performs_bind performs_call fun providers => ?_
  refine performs_bind (performs_foldlM fun listing provider _ => performs_adopt listing provider)
    fun listing => ?_
  refine performs_bind (performs_forM fun row _ => ?_) fun _ => ?_
  · exact performs_ite (fun _ => performs_pure _) fun _ => performs_reconcileRow row _ now
  · refine performs_bind (performs_read _) fun fresh => performs_forM fun pool _ => ?_
    exact performs_forM fun _ _ => performs_create pool

theorem Starts.performs {task : Task Unit} (h : Starts deps task) : Performs Ordinary task := by
  cases h with
  | create pool => exact performs_create pool
  | markReady id => exact performs_discard (performs_markReady id)
  | disconnected id => exact performs_disconnected id
  | reconcile => exact performs_reconcile
  | tryLease row digest expiresAt => exact performs_discard (performs_tryLease row digest expiresAt)

/-! ### The table of the runtimes -/

/-- The runtimes are the ones of the table. -/
def HasRuntimes (runtimes : Table WarmPoolRuntimeRow.id) (db : Store) : Prop :=
  db.warmPoolRuntimes = runtimes

variable {runtimes : Table WarmPoolRuntimeRow.id}

theorem maintains_updateLease (lease : WorkspaceLeaseRow) :
    Maintains (HasRuntimes runtimes) (updateLease lease) :=
  maintains_bind (maintains_modify fun _ h => h) fun _ => maintains_pure _

theorem maintains_writable {α : Type} {id : String}
    {task : WorkspaceLeaseRow → LifecycleRow → Lifecycle.Transaction α}
    (h : ∀ lease owner, Maintains (HasRuntimes runtimes) (task lease owner)) :
    Maintains (HasRuntimes runtimes) (writable id task) := by
  refine maintains_get_bind fun db hdb => ?_
  split
  · exact maintains_throw _
  · split
    · exact maintains_throw _
    · exact h _ _

theorem fenceWorkspaceLeaseRows_runtimes (ids : List String) (db : Store) :
    (ids.foldl (fun db id => fenceWorkspaceLeaseRows id db) db).warmPoolRuntimes =
      db.warmPoolRuntimes := by
  induction ids generalizing db with
  | nil => rfl
  | cons id ids ih => exact ih _

theorem maintains_prepareLeaseTransition (id : String) (target : WorkspaceState) :
    Maintains (HasRuntimes runtimes) (prepareLeaseTransition id target) := by
  rw [prepareLeaseTransition]
  split
  · exact maintains_pure _
  · refine maintains_bind (maintains_modify fun _ h => h) fun _ => ?_
    exact maintains_get_bind fun _ _ => maintains_pure _

theorem maintains_transitionWorkspace (id : String) (req : TransitionInput) :
    Maintains (HasRuntimes runtimes) (Lifecycle.transitionWorkspace id req) := by
  refine maintains_bind (maintains_check _) fun _ => maintains_get_bind fun db hdb => ?_
  split
  · exact maintains_pure _
  · split_ifs
    · exact maintains_pure _
    · exact maintains_pure _
    · exact maintains_pure _
    · refine maintains_bind (maintains_prepareLeaseTransition _ _) fun prepared => ?_
      split_ifs
      · exact maintains_pure _
      · exact maintains_bind (maintains_modify fun _ h => h) fun _ => maintains_pure _

theorem maintains_requestWorkspaceLease (id : String) (input : WorkspaceLeaseRequest) :
    Maintains (HasRuntimes runtimes) (requestWorkspaceLease id input) := by
  refine maintains_get_bind fun db hdb => ?_
  split
  · exact maintains_throw _
  · refine maintains_bind (maintains_check _) fun _ => maintains_bind (maintains_check _) fun _ => ?_
    refine maintains_bind (maintains_check _) fun _ => ?_
    split
    · exact maintains_bind (maintains_check _) fun _ => maintains_pure _
    · refine maintains_bind (maintains_check _) fun source => ?_
      refine maintains_bind ?_ fun _ => maintains_get_bind fun db hdb => ?_
      · refine maintains_bind (maintains_modify fun _ h => h) fun _ => ?_
        exact maintains_get_bind fun _ _ => maintains_check _
      · refine maintains_bind (maintains_check _) fun _ => ?_
        exact maintains_bind (maintains_set hdb) fun _ => maintains_pure _

theorem committed_runtimes {α : Type} {db : Store} {task : Lifecycle.Transaction α}
    (h : Maintains (HasRuntimes db.warmPoolRuntimes) task) :
    (committed task db).warmPoolRuntimes = db.warmPoolRuntimes :=
  h.committed rfl

/-- The transactions that are not about warm runtimes leave them alone. -/
theorem Foreign.same_runtimes {operation : Operation} (h : Foreign operation) (db : Store) :
    (transact db operation).warmPoolRuntimes = db.warmPoolRuntimes := by
  cases operation with
  | insertWorkspace input limit =>
      refine committed_runtimes (maintains_get_bind fun db hdb => ?_)
      split
      · exact maintains_pure _
      · split_ifs
        · exact maintains_pure _
        · refine maintains_bind (maintains_check _) fun _ => ?_
          exact maintains_bind (maintains_set hdb) fun _ => maintains_pure _
  | updateWorkspace id patch => exact committed_runtimes (maintains_modify fun _ h => h)
  | transition id req => exact committed_runtimes (maintains_transitionWorkspace id req)
  | setQueuedAdmissionReason id reason =>
      refine committed_runtimes (maintains_get_bind fun db hdb => ?_)
      dsimp only
      split_ifs
      · exact maintains_set hdb
      · exact maintains_pure _
  | claimWorkspaceAdmission claim =>
      refine committed_runtimes (maintains_get_bind fun db hdb => ?_)
      split
      · exact maintains_pure _
      · split_ifs
        · exact maintains_pure _
        · exact maintains_pure _
        · exact maintains_bind (maintains_set hdb) fun _ => maintains_pure _
  | admitPurge id now => exact committed_runtimes (maintains_modify fun _ h => h)
  | requestWorkspaceLease id input =>
      exact committed_runtimes (maintains_requestWorkspaceLease id input)
  | recordWorkspaceLeaseIssued id issuerLeaseId expiresAt credentialBytes now =>
      refine committed_runtimes (maintains_writable fun lease owner => ?_)
      split_ifs
      · exact maintains_pure _
      · refine maintains_bind (maintains_check _) fun _ => maintains_bind (maintains_check _) fun _ => ?_
        exact maintains_get_bind fun _ _ => maintains_map (maintains_updateLease _)
  | recordWorkspaceLeaseDelivered id now =>
      refine committed_runtimes (maintains_writable fun lease owner => ?_)
      refine maintains_get_bind fun _ _ => ?_
      split_ifs
      · exact maintains_pure _
      · exact maintains_map (maintains_updateLease _)
  | requestWorkspaceLeaseRevocation id =>
      refine committed_runtimes (maintains_writable fun lease owner => ?_)
      split_ifs
      · exact maintains_pure _
      · exact maintains_updateLease _
  | fenceWorkspaceLeases workspaceId =>
      refine committed_runtimes (maintains_get_bind fun db hdb => ?_)
      exact maintains_bind (maintains_check _) fun _ => maintains_set hdb
  | recordWorkspaceLeaseRevoked id requestId now =>
      refine committed_runtimes (maintains_writable fun lease owner => ?_)
      refine maintains_bind (maintains_check _) fun _ => ?_
      split_ifs
      · exact maintains_pure _
      · exact maintains_pure _
      · exact maintains_map (maintains_updateLease _)
  | recordWorkspaceLeaseExpired id now =>
      refine committed_runtimes (maintains_writable fun lease owner => ?_)
      split_ifs
      · exact maintains_pure _
      · exact maintains_pure _
      · exact maintains_map (maintains_updateLease _)
  | writeSecret authorized name type versionId =>
      refine committed_runtimes (maintains_bind (maintains_check _) fun _ => ?_)
      exact maintains_modify fun _ h => h
  | retireSecret authorized name now =>
      refine committed_runtimes (maintains_bind (maintains_check _) fun _ => ?_)
      refine maintains_get_bind fun db hdb => maintains_bind (maintains_check _) fun _ => ?_
      exact maintains_set ((fenceWorkspaceLeaseRows_runtimes _ _).trans hdb)
  | insertWarmPoolRuntime row => cases h
  | updateWarmPoolRuntime id patch => cases h
  | claimWarmPoolRuntime claim choice => cases h

/-! ### What an operation does to a runtime -/

/-- The states that a runtime does not leave for `provisioning` or `ready`. -/
def taken : WarmPoolRuntimeState → Bool
  | .leased | .draining | .failed => true
  | .provisioning | .ready | .leasing => false

/-- The runtime was leased, or its removal has begun. -/
def Taken (db : Store) (id : String) : Prop :=
  ∃ runtime, db.warmPoolRuntimes.get? id = some runtime ∧ taken runtime.state = true

/-- The operation offers no runtime that is taken. -/
def InTime (db : Store) : Operation → Prop
  | .updateWarmPoolRuntime id patch => patch.state = some .ready → ¬Taken db id
  | _ => True

variable {db db' : Store} {operation : Operation}

theorem claim_cases (claim : WarmPoolClaim) (choice : Option String) (db : Store) :
    ((∀ runtime workspace, claimed claim choice db ≠ some (.leased runtime workspace)) ∧
      transact db (.claimWarmPoolRuntime claim choice) = db) ∨
    ∃ locked runtime, db.workspaces.get? claim.workspace.id = some locked ∧
      candidate db claim locked.templateDigest choice = some runtime ∧
      claimed claim choice db = some (.leased (leasedRuntime claim.workspace.id claim.now runtime)
        (warmRow claim runtime locked)) ∧
      transact db (.claimWarmPoolRuntime claim choice) = warmClaimed claim runtime db := by
  have htransact : transact db (.claimWarmPoolRuntime claim choice) =
      committed (claimWarmPoolRuntime claim choice) db := rfl
  rw [htransact, committed, claimed]
  cases hrun : claimWarmPoolRuntime claim choice db with
  | error failure => exact .inl ⟨fun _ _ h => (nomatch h), rfl⟩
  | ok answer =>
      obtain ⟨result, db'⟩ := answer
      rcases claimWarmPoolRuntime_eq_ok hrun with ⟨hresult, rfl⟩ |
        ⟨locked, runtime, hlocked, -, -, -, -, hcandidate, rfl, rfl⟩
      · refine .inl ⟨fun runtime workspace h => ?_, rfl⟩
        rcases hresult with rfl | rfl
        · cases h
        · cases h
      · exact .inr ⟨locked, runtime, hlocked, hcandidate, rfl, rfl⟩

/-- The candidate of a claim is a runtime that is ready. -/
theorem candidate_ready {claim : WarmPoolClaim} {choice : Option String} {digest : String}
    {runtime : WarmPoolRuntimeRow} (h : candidate db claim digest choice = some runtime) :
    db.warmPoolRuntimes.get? runtime.id = some runtime ∧ runtime.state = .ready ∧
      runtime.providerRef.isSome = true := by
  rw [candidate, Option.filter_eq_some_iff, Option.bind_eq_some_iff] at h
  obtain ⟨⟨id, -, hruntime⟩, heligible⟩ := h
  rw [eligible] at heligible
  simp only [Bool.and_eq_true, decide_eq_true_eq] at heligible
  exact ⟨Table.key_of_get? hruntime ▸ hruntime, heligible.1.2, heligible.2⟩

theorem get?_warmClaimed (claim : WarmPoolClaim) (runtime : WarmPoolRuntimeRow) (db : Store)
    (id : String) : (warmClaimed claim runtime db).warmPoolRuntimes.get? id =
      if id = runtime.id then
        (db.warmPoolRuntimes.get? runtime.id).map (leasedRuntime claim.workspace.id claim.now)
      else db.warmPoolRuntimes.get? id :=
  Table.get?_updateAt db.warmPoolRuntimes runtime.id (leasedRuntime claim.workspace.id claim.now)
    (fun _ => rfl) id

theorem get?_warmClaimed_workspaces (claim : WarmPoolClaim) (runtime : WarmPoolRuntimeRow)
    (db : Store) (id : String) : (warmClaimed claim runtime db).workspaces.get? id =
      if id = claim.workspace.id then
        (db.workspaces.get? claim.workspace.id).map (warmRow claim runtime)
      else db.workspaces.get? id :=
  Table.get?_updateAt db.workspaces claim.workspace.id (warmRow claim runtime) (fun _ => rfl) id

/-- A runtime that is taken stays taken. -/
theorem Taken.transact {id : String} {seen : Store} (h : Taken db id)
    (hordinary : Ordinary seen operation) (htime : InTime db operation) :
    Taken (transact db operation) id := by
  obtain ⟨runtime, hruntime, htaken⟩ := h
  have hforeign : Foreign operation → Taken (Lifecycle.transact db operation) id := by
    intro hforeign
    exact ⟨runtime, by rw [hforeign.same_runtimes, hruntime], htaken⟩
  cases operation with
  | insertWarmPoolRuntime row =>
      refine ⟨runtime, ?_, htaken⟩
      exact (Table.get?_insert _ _ _).trans (by rw [hruntime, Option.some_or])
  | updateWarmPoolRuntime id' patch =>
      have hget : (Lifecycle.transact db (.updateWarmPoolRuntime id' patch)).warmPoolRuntimes.get? id =
          if id = id' then (db.warmPoolRuntimes.get? id').map patch.apply
          else db.warmPoolRuntimes.get? id := Table.get?_updateAt _ _ patch.apply (fun _ => rfl) _
      by_cases hid : id = id'
      · subst hid
        rw [if_pos rfl, hruntime] at hget
        refine ⟨_, hget, ?_⟩
        show taken (patch.state.getD runtime.state) = true
        -- a runtime is offered again only by a ready write, and one in time does not find it taken
        rcases hordinary with hstate | hstate | hstate | ⟨hstate, -⟩
        · rw [hstate]
          exact htaken
        · rw [hstate]
          rfl
        · rw [hstate]
          rfl
        · exact absurd ⟨runtime, hruntime, htaken⟩ (htime hstate)
      · rw [if_neg hid] at hget
        exact ⟨runtime, hget.trans hruntime, htaken⟩
  | claimWarmPoolRuntime claim choice =>
      rcases claim_cases claim choice db with ⟨-, hsame⟩ | ⟨locked, leased, -, hcandidate, -, hstore⟩
      · rw [hsame]
        exact ⟨runtime, hruntime, htaken⟩
      · obtain ⟨hleased, hready, -⟩ := candidate_ready hcandidate
        -- a claim takes a ready runtime, which is not this one
        have hid : id ≠ leased.id := by
          rintro rfl
          rw [hleased] at hruntime
          obtain rfl := Option.some.inj hruntime
          rw [hready] at htaken
          cases htaken
        refine ⟨runtime, ?_, htaken⟩
        rw [hstore, get?_warmClaimed, if_neg hid, hruntime]
  | _ => exact hforeign trivial

/-! ### Leases -/

/-- The lease that an operation makes: the runtime, and the workspace. -/
def leaseOf (db : Store) : Operation → Option (String × String)
  | .claimWarmPoolRuntime claim choice =>
      match claimed claim choice db with
      | some (.leased runtime workspace) => some (runtime.id, workspace.id)
      | _ => none
  | _ => none

/-- The leases of a run of operations. -/
def leases (db : Store) : List Operation → List (String × String)
  | [] => []
  | operation :: operations =>
      (leaseOf db operation).toList ++ leases (transact db operation) operations

/-- A lease takes a runtime that was not taken, for a workspace that then runs
on its provider. -/
theorem leaseOf_eq_some {lease : String × String} (h : leaseOf db operation = some lease) :
    ¬Taken db lease.1 ∧ Taken (transact db operation) lease.1 ∧
    ∃ runtime workspace,
      (transact db operation).warmPoolRuntimes.get? lease.1 = some runtime ∧
      (transact db operation).workspaces.get? lease.2 = some workspace ∧
      runtime.state = .leased ∧ runtime.workspaceId = some lease.2 ∧
      workspace.provisioningMode = some .warm ∧ workspace.providerRef.isSome = true ∧
      workspace.providerRef = runtime.providerRef := by
  cases operation with
  | claimWarmPoolRuntime claim choice =>
      rw [leaseOf] at h
      rcases claim_cases claim choice db with ⟨hnone, -⟩ |
        ⟨locked, runtime, hlocked, hcandidate, hclaimed, hstore⟩
      · cases hresult : claimed claim choice db with
        | none =>
            rw [hresult] at h
            cases h
        | some result =>
            cases result with
            | stale =>
                rw [hresult] at h
                cases h
            | leased runtime workspace => exact absurd hresult (hnone runtime workspace)
      · rw [hclaimed] at h
        obtain rfl := Option.some.inj h
        -- the claim found the runtime ready and wrote both rows in one transaction
        obtain ⟨hruntime, hready, href⟩ := candidate_ready hcandidate
        have hid : locked.id = claim.workspace.id :=
          @Table.key_of_get? _ _ _ _ db.workspaces _ _ hlocked
        have hleased : (warmClaimed claim runtime db).warmPoolRuntimes.get? runtime.id =
            some (leasedRuntime claim.workspace.id claim.now runtime) := by
          rw [get?_warmClaimed, if_pos rfl, hruntime, Option.map_some]
        have hadmitted : (warmClaimed claim runtime db).workspaces.get? locked.id =
            some (warmRow claim runtime locked) := by
          rw [get?_warmClaimed_workspaces, if_pos hid, hlocked, Option.map_some]
        rw [hstore]
        refine ⟨?_, ⟨_, hleased, rfl⟩, _, _, hleased, hadmitted, rfl, congrArg some hid.symm, rfl,
          href, rfl⟩
        rintro ⟨other, hother, htaken⟩
        have hsame : runtime = other := Option.some.inj (hruntime.symm.trans hother)
        rw [← hsame, hready] at htaken
        cases htaken
  | _ => cases h

/-- What the manager performs in a store, whichever store it has read, and in
time. -/
def Timely (db : Store) (operation : Operation) : Prop :=
  (∃ seen, Ordinary seen operation) ∧ InTime db operation

def TimelyOperation (db : Store) (operation : Operation) (db' : Store) : Prop :=
  Timely db operation ∧ db' = transact db operation

theorem taken_of_run {operations : List Operation} {id : String}
    (h : Run TimelyOperation db operations db') (hid : Taken db id) : Taken db' id := by
  refine h.invariant (I := (Taken · id)) ?_ hid
  rintro db operation _ ⟨⟨⟨_, hordinary⟩, htime⟩, rfl⟩ htaken
  exact htaken.transact hordinary htime

/-- The leases of a run are of different runtimes, none of which was taken
before. -/
theorem leases_of_run {operations : List Operation}
    (h : Run TimelyOperation db operations db') :
    ((leases db operations).map Prod.fst).Nodup ∧
      ∀ lease ∈ leases db operations, ¬Taken db lease.1 := by
  induction h with
  | nil => exact ⟨List.nodup_nil, fun _ hlease => (nomatch hlease)⟩
  | @cons db _ db'' operation operations hstep hrun ih =>
      obtain ⟨⟨⟨_, hordinary⟩, htime⟩, rfl⟩ := hstep
      obtain ⟨hnodup, hlater⟩ := ih
      -- a runtime that is taken stays so, and a later lease does not find it
      have hbefore : ∀ lease ∈ leases (transact db operation) operations, ¬Taken db lease.1 :=
        fun lease hlease htaken => hlater lease hlease (htaken.transact hordinary htime)
      rw [leases]
      cases hlease : leaseOf db operation with
      | none => exact ⟨hnodup, hbefore⟩
      | some lease =>
          obtain ⟨hfree, htaken, -⟩ := leaseOf_eq_some hlease
          rw [Option.toList_some, List.singleton_append]
          refine ⟨List.nodup_cons.mpr ⟨fun hmem => ?_, hnodup⟩, fun other hother => ?_⟩
          · obtain ⟨other, hother, hsame⟩ := List.mem_map.mp hmem
            exact hlater other hother (hsame ▸ htaken)
          · rcases List.mem_cons.mp hother with rfl | hother
            · exact hfree
            · exact hbefore other hother

/-! ### Between a read and a write -/

/-- The operation leases the runtime, or its removal begins or ends with it. -/
def Takes (id : String) (db : Store) : Operation → Prop
  | .updateWarmPoolRuntime id' patch =>
      id' = id ∧ (patch.state = some .draining ∨ patch.state = some .failed)
  | operation => ∃ workspace, leaseOf db operation = some (id, workspace)

/-- The schedule leaves `markReady` alone: nothing has taken the runtime since
its last read when it writes. -/
def Undisturbed (since : List (Store × Operation)) : Operation → Prop
  | .updateWarmPoolRuntime id patch =>
      patch.state = some .ready → ∀ step ∈ since, ¬Takes id step.1 step.2
  | _ => True

/-- A runtime that is there and not taken stays so until an operation takes it. -/
theorem not_taken_transact {id : String} {seen : Store} (h : ¬Taken db id)
    (hordinary : Ordinary seen operation) (htakes : ¬Takes id db operation) :
    ¬Taken (transact db operation) id := by
  rintro ⟨runtime, hruntime, htaken⟩
  have hforeign : Foreign operation → False := by
    intro hforeign
    rw [hforeign.same_runtimes] at hruntime
    exact h ⟨runtime, hruntime, htaken⟩
  cases operation with
  | insertWarmPoolRuntime row =>
      have hget := (Table.get?_insert db.warmPoolRuntimes row id).symm.trans hruntime
      cases hold : db.warmPoolRuntimes.get? id with
      | some old =>
          rw [hold, Option.some_or] at hget
          exact h ⟨runtime, hold.trans hget, htaken⟩
      | none =>
          rw [hold, Option.none_or] at hget
          split_ifs at hget
          have hstate : runtime.state = .provisioning := Option.some.inj hget ▸ hordinary
          rw [hstate] at htaken
          cases htaken
  | updateWarmPoolRuntime id' patch =>
      have hget : (Lifecycle.transact db (.updateWarmPoolRuntime id' patch)).warmPoolRuntimes.get? id =
          if id = id' then (db.warmPoolRuntimes.get? id').map patch.apply
          else db.warmPoolRuntimes.get? id := Table.get?_updateAt _ _ patch.apply (fun _ => rfl) _
      rw [hruntime] at hget
      split_ifs at hget with hid
      · subst hid
        obtain ⟨old, hold, rfl⟩ := Option.map_eq_some_iff.mp hget.symm
        have hstate : taken (patch.state.getD old.state) = true := htaken
        -- the writes that take a runtime are the removals, and a ready write frees it
        rcases hordinary with hnone | hdraining | hfailed | ⟨hready, -⟩
        · rw [hnone] at hstate
          exact h ⟨old, hold, hstate⟩
        · exact htakes ⟨rfl, .inl hdraining⟩
        · exact htakes ⟨rfl, .inr hfailed⟩
        · rw [hready] at hstate
          cases hstate
      · exact h ⟨runtime, hget.symm, htaken⟩
  | claimWarmPoolRuntime claim choice =>
      rcases claim_cases claim choice db with
        ⟨-, hsame⟩ | ⟨locked, leased, -, hcandidate, hclaimed, hstore⟩
      · rw [hsame] at hruntime
        exact h ⟨runtime, hruntime, htaken⟩
      · rw [hstore, get?_warmClaimed] at hruntime
        split_ifs at hruntime with hid
        · subst hid
          refine htakes ⟨(warmRow claim leased locked).id, ?_⟩
          rw [leaseOf, hclaimed]
          rfl
        · exact h ⟨runtime, hruntime, htaken⟩
  | _ => exact hforeign trivial

/-- The history of a process, by operations in time. -/
abbrev History := Run (Interleaving.Recorded transact Timely)

/-- What `markReady` has found holds when it writes. -/
theorem not_taken_of_history {since : List (Store × Operation)} {seen : Store} {id : String}
    (h : History seen since db) (hseen : ¬Taken seen id)
    (hsince : ∀ step ∈ since, ¬Takes id step.1 step.2) : ¬Taken db id := by
  induction h with
  | nil => exact hseen
  | @cons s _ _ entry entries hstep _ ih =>
      obtain ⟨hentry, ⟨⟨_, hordinary⟩, -⟩, rfl⟩ := hstep
      have htakes := hsince entry List.mem_cons_self
      rw [hentry] at htakes
      exact ih (not_taken_transact hseen hordinary htakes)
        fun step hmem => hsince step (List.mem_cons_of_mem _ hmem)

theorem Provisioning.not_taken {id : String} (h : Provisioning db id) : ¬Taken db id := by
  rintro ⟨runtime, hruntime, htaken⟩
  obtain ⟨found, hfound, hstate⟩ := h
  rw [hruntime] at hfound
  rw [Option.some.inj hfound, hstate] at htaken
  cases htaken

/-- An operation of the manager that the schedule allows is in time. -/
theorem Undisturbed.inTime {since : List (Store × Operation)} {seen : Store}
    (h : Undisturbed since operation) (hordinary : Ordinary seen operation)
    (hhistory : History seen since db) : InTime db operation := by
  cases operation with
  | updateWarmPoolRuntime id patch =>
      intro hready
      rcases hordinary with hnone | hdraining | hfailed | ⟨-, hprovisioning⟩
      · rw [hready] at hnone
        cases hnone
      · rw [hready] at hdraining
        cases hdraining
      · rw [hready] at hfailed
        cases hfailed
      · exact not_taken_of_history hhistory hprovisioning.not_taken (h hready)
  | _ => exact trivial

theorem Foreign.timely (h : Foreign operation) (db : Store) : Timely db operation := by
  refine ⟨⟨db, h.ordinary db⟩, ?_⟩
  cases operation with
  | updateWarmPoolRuntime => cases h
  | _ => exact trivial

/-! ### Every interleaving -/

/-- The interleavings that leave `markReady` alone between its read and its
write. -/
def TimelySteps (deps : Deps) : System → Option Operation → System → Prop :=
  Interleaving.Step transact (Starts deps) Foreign Undisturbed

/-- Every process has read a store from which its history leads to this one. -/
def Seen (system : System) : Prop :=
  ∀ thread ∈ system.threads,
    Interleaving.Sees transact Ordinary Timely system.state thread

theorem TimelySteps.timely {system system' : System} {operation : Operation}
    (h : TimelySteps deps system (some operation) system') (hsystem : Seen system) :
    Timely system.state operation := by
  rcases h.found hsystem rfl with hforeign | ⟨since, seen, hmay, hordinary, hhistory⟩
  · exact hforeign.timely _
  · exact ⟨⟨seen, hordinary⟩, hmay.inTime hordinary hhistory⟩

theorem TimelySteps.seen {system system' : System} {label : Option Operation}
    (h : TimelySteps deps system label system') (hsystem : Seen system) : Seen system' := by
  refine h.sees hsystem (fun _ => Starts.performs) fun operation ho => ?_
  subst ho
  exact h.timely hsystem

/-- A run of the system is a run of its operations on the store. -/
theorem store_run {system system' : System} {labels : List (Option Operation)}
    (h : Run (TimelySteps deps) system labels system') (hsystem : Seen system) :
    Run TimelyOperation system.state labels.reduceOption system'.state ∧ Seen system' := by
  induction h with
  | nil system => exact ⟨.nil _, hsystem⟩
  | @cons system system₁ system' label labels hstep hrun ih =>
      obtain ⟨hstore, hlast⟩ := ih (hstep.seen hsystem)
      have hstate := Interleaving.Step.state_eq hstep
      refine ⟨?_, hlast⟩
      cases label with
      | none =>
          rw [List.reduceOption_cons_of_none]
          exact (show system₁.state = system.state from hstate) ▸ hstore
      | some operation =>
          rw [List.reduceOption_cons_of_some]
          exact .cons ⟨hstep.timely hsystem, hstate⟩ hstore

/-- Nothing runs yet. -/
def System.start (db : Store) : System := ⟨db, []⟩

theorem System.start_seen (db : Store) : Seen (System.start db) := fun _ h => (by cases h)

/-- In every interleaving that leaves `markReady` alone between its read and its
write, a runtime is leased at most once, and one that is taken stays so; in
every interleaving a lease puts the workspace on the provider of its runtime. -/
theorem warmRuntimes_leased_once {init : Store} {system system' : System}
    {before after : List (Option Operation)} (h : Run (TimelySteps deps) (.start init) before system)
    (h' : Run (TimelySteps deps) system after system') :
    ((leases init (before ++ after).reduceOption).map Prod.fst).Nodup ∧
    (∀ runtime ∈ system.state.warmPoolRuntimes.rows, taken runtime.state = true →
      Taken system'.state runtime.id) ∧
    ∀ {db : Store} {operation : Operation} {lease : String × String},
      leaseOf db operation = some lease → ∃ runtime workspace,
        (transact db operation).warmPoolRuntimes.get? lease.1 = some runtime ∧
        (transact db operation).workspaces.get? lease.2 = some workspace ∧
        runtime.state = .leased ∧ runtime.workspaceId = some lease.2 ∧
        workspace.provisioningMode = some .warm ∧ workspace.providerRef.isSome = true ∧
        workspace.providerRef = runtime.providerRef := by
  obtain ⟨-, hsystem⟩ := store_run h (System.start_seen init)
  refine ⟨?_, fun runtime hmem htaken => ?_, fun hlease => (leaseOf_eq_some hlease).2.2⟩
  · exact (leases_of_run (store_run (h.append h') (System.start_seen init)).1).1
  · exact taken_of_run (store_run h' hsystem).1 ⟨runtime, Table.get?_of_mem hmem, htaken⟩

/-- An operation deletes no runtime. -/
theorem isSome_transact {seen : Store} {id : String} (hordinary : Ordinary seen operation)
    (h : (db.warmPoolRuntimes.get? id).isSome = true) :
    ((transact db operation).warmPoolRuntimes.get? id).isSome = true := by
  have hforeign : Foreign operation →
      ((Lifecycle.transact db operation).warmPoolRuntimes.get? id).isSome = true := by
    intro hforeign
    rwa [hforeign.same_runtimes]
  cases operation with
  | insertWarmPoolRuntime row =>
      have hget := Table.get?_insert db.warmPoolRuntimes row id
      exact (congrArg Option.isSome hget).trans (by rw [Option.isSome_or, h, Bool.true_or])
  | updateWarmPoolRuntime id' patch =>
      have hget : (Lifecycle.transact db (.updateWarmPoolRuntime id' patch)).warmPoolRuntimes.get? id =
          if id = id' then (db.warmPoolRuntimes.get? id').map patch.apply
          else db.warmPoolRuntimes.get? id := Table.get?_updateAt _ _ patch.apply (fun _ => rfl) _
      rw [hget]
      split_ifs with hid
      · rwa [Option.isSome_map, ← hid]
      · exact h
  | claimWarmPoolRuntime claim choice =>
      rcases claim_cases claim choice db with ⟨-, hsame⟩ | ⟨locked, leased, -, -, -, hstore⟩
      · rwa [hsame]
      · rw [hstore, get?_warmClaimed]
        split_ifs with hid
        · rwa [Option.isSome_map, ← hid]
        · exact h
  | _ => exact hforeign trivial

theorem Takes.taken {id : String} (h : Takes id db operation)
    (hrow : (db.warmPoolRuntimes.get? id).isSome = true) : Taken (transact db operation) id := by
  have hlease : (∃ workspace, leaseOf db operation = some (id, workspace)) →
      Taken (Lifecycle.transact db operation) id :=
    fun hlease => (leaseOf_eq_some hlease.choose_spec).2.1
  cases operation with
  | updateWarmPoolRuntime id' patch =>
      obtain ⟨rfl, hstate⟩ := h
      obtain ⟨runtime, hruntime⟩ := Option.isSome_iff_exists.mp hrow
      refine ⟨patch.apply runtime, ?_, ?_⟩
      · have hget := Table.get?_updateAt db.warmPoolRuntimes id' patch.apply (fun _ => rfl) id'
        rwa [if_pos rfl, hruntime] at hget
      · show taken (patch.state.getD runtime.state) = true
        rcases hstate with hstate | hstate
        · rw [hstate]
          rfl
        · rw [hstate]
          rfl
  | _ => exact hlease h

/-- The condition on the interleaving is exact: a write of `markReady` that does
not meet it finds its runtime taken and puts it back on offer. -/
theorem offered_of_disturbed {init : Store} {system : System} {labels : List (Option Operation)}
    {β : Type} {i : Nat} {id : String} {patch : WarmPoolRuntimePatch} {answer : Store → β}
    {next : β → Process Store Operation (Except Unit Unit)} {since : List (Store × Operation)}
    (h : Run (TimelySteps deps) (.start init) labels system)
    (hthread : system.threads[i]? =
      some ⟨.access (some (.updateWarmPoolRuntime id patch)) answer next, since⟩)
    (hdisturbed : ¬Undisturbed since (.updateWarmPoolRuntime id patch)) :
    Taken system.state id ∧ ¬Taken (transact system.state (.updateWarmPoolRuntime id patch)) id := by
  obtain ⟨hready, entry, hentry, htakes⟩ : patch.state = some .ready ∧
      ∃ step ∈ since, Takes id step.1 step.2 := by
    simp only [Undisturbed, not_forall, not_not, exists_prop] at hdisturbed
    exact hdisturbed
  obtain ⟨seen, ⟨hordinary, -⟩, hhistory⟩ :=
    (store_run h (System.start_seen init)).2 _ (List.mem_of_getElem? hthread)
  have hseen : (seen.warmPoolRuntimes.get? id).isSome = true := by
    rcases hordinary _ rfl with hstate | hstate | hstate | ⟨-, runtime, hruntime, -⟩
    · rw [hready] at hstate
      cases hstate
    · rw [hready] at hstate
      cases hstate
    · rw [hready] at hstate
      cases hstate
    · rw [hruntime, Option.isSome_some]
  obtain ⟨before, after, db, db', hbefore, ⟨rfl, -, rfl⟩, hafter⟩ := Run.of_mem hhistory hentry
  have hrow : (entry.1.warmPoolRuntimes.get? id).isSome = true := by
    refine hbefore.invariant (I := fun db => (db.warmPoolRuntimes.get? id).isSome = true) ?_ hseen
    rintro db entry _ ⟨-, ⟨⟨_, hentry⟩, -⟩, rfl⟩ hrow
    exact isSome_transact hentry hrow
  -- taken since the read, and nothing in time has offered it since
  have htaken : Taken system.state id := by
    refine hafter.invariant (I := (Taken · id)) ?_ (htakes.taken hrow)
    rintro db entry _ ⟨-, ⟨⟨_, hentry⟩, htime⟩, rfl⟩ htaken
    exact htaken.transact hentry htime
  refine ⟨htaken, ?_⟩
  rintro ⟨offered, hoffered, hstate⟩
  obtain ⟨runtime, hruntime, -⟩ := htaken
  have hget := Table.get?_updateAt system.state.warmPoolRuntimes id patch.apply (fun _ => rfl) id
  rw [if_pos rfl, hruntime] at hget
  obtain rfl := Option.some.inj (hget.symm.trans hoffered)
  have hfree : taken (patch.state.getD runtime.state) = true := hstate
  rw [hready] at hfree
  cases hfree

/-! ### Two runs of `markReady` -/

variable {system system' : System}

theorem Steps.access {β : Type} {i : Nat} {operation : Option Operation} {answer : Store → β}
    {next : β → Process Store Operation (Except Unit Unit)} {since : List (Store × Operation)}
    (h : system.threads[i]? = some ⟨.access operation answer next, since⟩) :
    Steps deps system operation ⟨operation.elim system.state (transact system.state),
      (Interleaving.record system.state operation system.threads).set i
        ⟨next (answer system.state), (operation.map fun o => (system.state, o)).toList⟩⟩ :=
  Interleaving.Step.access h fun _ _ => trivial

theorem Steps.ask {β : Type} {i : Nat} {next : β → Process Store Operation (Except Unit Unit)}
    {since : List (Store × Operation)} (h : system.threads[i]? = some ⟨.ask next, since⟩) (b : β) :
    Steps deps system none ⟨system.state, system.threads.set i ⟨next b, since⟩⟩ :=
  Interleaving.Step.ask b h

/-- A run of `markReady` that has found its runtime ready to be offered. -/
def offers (id : String) : Process Store Operation (Except Unit Unit) :=
  (discard (do
    let now ← clock
    updateWarmPoolRuntime id (readyPatch now)
    return true) : Task Unit).run

theorem Steps.found {i : Nat} {id : String} {since : List (Store × Operation)}
    (h : system.threads[i]? = some ⟨(discard (markReady id)).run, since⟩)
    (hrow : (system.state.warmPoolRuntimes.get? id).any (fun row =>
      row.state = .provisioning && row.providerRef.isSome) = true) :
    Steps deps system none ⟨system.state, system.threads.set i ⟨offers id, []⟩⟩ := by
  have hstep := @Steps.access deps system _ i none _ _ since h
  refine (congrArg (fun process => Steps deps system none
    ⟨system.state, system.threads.set i ⟨process, []⟩⟩) ?_).mp hstep
  obtain ⟨row, hget⟩ : ∃ row, system.state.warmPoolRuntimes.get? id = some row := by
    cases hget : system.state.warmPoolRuntimes.get? id with
    | none => simp [hget] at hrow
    | some row => exact ⟨row, rfl⟩
  rw [hget, Option.any_some] at hrow
  have hawait : awaitRef id 50 (some row) = pure (some row) := by
    have hand := Bool.and_eq_true_iff.mp hrow
    rw [awaitRef, if_neg]
    simp [Option.isSome_iff_ne_none.mp hand.2]
  show (discard (awaitRef id 50 (system.state.warmPoolRuntimes.get? id) >>= fun row =>
    if row.any fun row => row.state = .provisioning && row.providerRef.isSome then _ else _)).run = _
  rw [hget, hawait]
  show (discard (if (row.state = WarmPoolRuntimeState.provisioning && row.providerRef.isSome) = true
    then _ else _ : Task Bool)).run = _
  rw [if_pos hrow]
  rfl

/-- The claim of `tryLease`. -/
def claimOf (deps : Deps) (pool : ResolvedWarmPool) (row : LifecycleRow) (now : Nat)
    (choice : Option String) : Operation :=
  .claimWarmPoolRuntime
    { workspace := row, driverKind := deps.driverKind
      eligibilityFingerprint := pool.eligibilityFingerprint
      registrationDigest := [], registrationExpiresAt := now, now := now } choice

/-- A run of `tryLease` for a workspace with a pool makes its claim. -/
theorem claim_run {i : Nat} {row : LifecycleRow} {pool : ResolvedWarmPool} {now : Nat}
    {since : List (Store × Operation)} (hpool : poolFor deps row = some pool)
    (h : system.threads[i]? = some ⟨(discard (tryLease deps row [] now)).run, since⟩)
    (choice : Option String) : ∃ thread, Run (Steps deps) system
      [none, none, some (claimOf deps pool row now choice)]
      ⟨transact system.state (claimOf deps pool row now choice),
        (Interleaving.record system.state (some (claimOf deps pool row now choice))
          system.threads).set i thread⟩ := by
  rw [tryLease, hpool] at h
  have hi := (List.getElem?_eq_some_iff.mp h).1
  have hself : ∀ {thread thread' : Thread Store Operation},
      ((system.threads.set i thread).set i thread')[i]? = some thread' :=
    List.getElem?_set_self (by rwa [List.length_set])
  have hnow : Steps deps system none _ := Steps.ask h now
  have hrun := Run.cons hnow (.cons (Steps.ask (i := i) (List.getElem?_set_self hi) choice)
    (.single (Steps.access (i := i) hself)))
  rw [List.set_set, Interleaving.record, List.map_set, List.set_set] at hrun
  exact ⟨_, hrun⟩

/-- A run without a write of `markReady` leaves it alone. -/
theorem timely_run {labels : List (Option Operation)} (h : Run (Steps deps) system labels system')
    (hlabels : ∀ id patch, some (.updateWarmPoolRuntime id patch) ∈ labels →
      patch.state ≠ some .ready) : Run (TimelySteps deps) system labels system' := by
  induction h with
  | nil system => exact .nil system
  | @cons system _ _ label labels hstep _ ih =>
      refine .cons (Interleaving.Step.mono hstep ?_)
        (ih fun id patch hmem => hlabels id patch (List.mem_cons_of_mem _ hmem))
      rintro since operation rfl -
      cases operation with
      | updateWarmPoolRuntime id patch =>
          exact fun hready => absurd hready (hlabels id patch List.mem_cons_self)
      | _ => exact trivial

namespace Registration

def pool : ResolvedWarmPool where
  templateName := "template"
  templateVersion := "1"
  templateDigest := "template"
  startTimeoutMs := 100
  eligibilityFingerprint := "fingerprint"
  minReady := 1
  maxWarmAgeMs := 1000

/-- A driver whose references have none of the properties. -/
def docker : Deps where
  driverKind := "docker"
  uncommittedWarmProvider := false
  pools := [pool]
  refs := ⟨fun _ _ => none, fun ref _ _ => ref⟩

def queued (id : String) : LifecycleRow := { sampleInsert.row with id := id }

/-- Two workspaces that wait. -/
def init : Store :=
  { emptyStore with workspaces := ⟨[queued "first", queued "second"], by decide⟩ }

def insert : Operation := .insertWarmPoolRuntime (newRuntime docker pool "runtime" [] 0)

def commit : Operation :=
  .updateWarmPoolRuntime "runtime" { providerRef := some (some emptyObject) }

def ready : Operation := .updateWarmPoolRuntime "runtime" (readyPatch 1)

def claim (workspace : String) : Operation :=
  claimOf docker pool (queued workspace) 1 (some "runtime")

/-- The store after the operations of a run. -/
def after (operations : List Operation) : Store := operations.foldl transact init

/-- A run of `create`. -/
def created : List (Option Operation) := [none, none, none, none, some insert, none, some commit]

theorem created_run :
    ∃ thread, Run (Steps docker) (.start init) created ⟨after [insert, commit], [thread]⟩ :=
  ⟨_, .cons (.start (.create pool)) <| .cons (Steps.ask (i := 0) rfl 0) <|
    .cons (Steps.ask (i := 0) rfl "runtime") <| .cons (Steps.ask (i := 0) rfl []) <|
    .cons (Steps.access (i := 0) rfl) <| .cons (Steps.ask (i := 0) rfl (.ok emptyObject)) <|
    .single (Steps.access (i := 0) rfl)⟩

theorem runtime_found : ((after [insert, commit]).warmPoolRuntimes.get? "runtime").any
    (fun row => row.state = .provisioning && row.providerRef.isSome) = true := by
  decide +kernel

theorem pool_found (id : String) : poolFor docker (queued id) = some pool := by
  have hdigest : pool.templateDigest = sampleInsert.row.templateDigest := rfl
  exact List.find?_cons_of_pos (decide_eq_true hdigest)

/-- Two runs of `markReady` read the runtime; the first offers it before its
lease, the second after. -/
def raced : List (Option Operation) :=
  [none, none, none, none, none, some ready, none, none, none, some (claim "first"),
    none, some ready, none, none, none, some (claim "second")]

theorem raced_run (thread : Thread Store Operation) :
    ∃ system, Run (Steps docker) ⟨after [insert, commit], [thread]⟩ raced system := by
  obtain ⟨first, hfirst⟩ := @claim_run docker
    ⟨after [insert, commit, ready], [_, _, _, _]⟩ 3 _ _ 1 _ (pool_found "first") rfl
    (some "runtime")
  obtain ⟨second, hsecond⟩ := @claim_run docker
    ⟨after [insert, commit, ready, claim "first", ready], [_, _, _, _, _]⟩ 4 _ _ 1 _
    (pool_found "second") rfl (some "runtime")
  exact ⟨_, .cons (.start (.markReady "runtime")) <|
    .cons (Steps.found (i := 1) rfl runtime_found) <| .cons (.start (.markReady "runtime")) <|
    .cons (Steps.found (i := 2) rfl runtime_found) <| .cons (Steps.ask (i := 1) rfl 1) <|
    .cons (Steps.access (i := 1) rfl) <| .cons (.start (.tryLease (queued "first") [] 1)) <|
    .append hfirst <| .cons (Steps.ask (i := 2) rfl 1) <| .cons (Steps.access (i := 2) rfl) <|
    .cons (.start (.tryLease (queued "second") [] 1)) hsecond⟩

/-- Two runs of `markReady` read the runtime and offer it, with no lease between. -/
def offered : List (Option Operation) :=
  [none, none, none, none, none, some ready, none, some ready]

theorem offered_run (thread : Thread Store Operation) :
    ∃ threads, Run (TimelySteps docker) ⟨after [insert, commit], [thread]⟩ offered
      ⟨after [insert, commit, ready, ready], threads⟩ := by
  have hfound : Run (Steps docker) ⟨after [insert, commit], [thread]⟩ [none, none, none, none, none]
      ⟨after [insert, commit], [thread, _, _]⟩ :=
    .cons (.start (.markReady "runtime")) <| .cons (Steps.found (i := 1) rfl runtime_found) <|
      .cons (.start (.markReady "runtime")) <| .cons (Steps.found (i := 2) rfl runtime_found) <|
      .single (Steps.ask (i := 1) rfl 1)
  refine ⟨_, (timely_run hfound (by simp)).append <| .cons (.access (i := 1) rfl ?_) <|
    .cons (.ask (i := 2) 1 rfl) (.single (.access (i := 2) rfl ?_))⟩
  · rintro operation ⟨⟩ - step hstep
    cases hstep
  · rintro operation ⟨⟩ - step hstep htakes
    obtain rfl := List.mem_singleton.mp hstep
    rcases htakes with ⟨-, hstate | hstate⟩
    · cases hstate
    · cases hstate

end Registration

theorem warmRuntimes_leased_twice :
    ¬∀ {deps : Deps} {init : Store} {before after : List (Option Operation)}
        {system system' : System},
      Run (Steps deps) (.start init) before system → Run (Steps deps) system after system' →
        ((leases init (before ++ after).reduceOption).map Prod.fst).Nodup ∧
        (∀ runtime ∈ system.state.warmPoolRuntimes.rows, taken runtime.state = true →
          Taken system'.state runtime.id) ∧
        ∀ {db : Store} {operation : Operation} {lease : String × String},
          leaseOf db operation = some lease → ∃ runtime workspace,
            (transact db operation).warmPoolRuntimes.get? lease.1 = some runtime ∧
            (transact db operation).workspaces.get? lease.2 = some workspace ∧
            workspace.providerRef = runtime.providerRef := by
  intro h
  obtain ⟨thread, hcreated⟩ := Registration.created_run
  obtain ⟨system, hraced⟩ := Registration.raced_run thread
  have hnodup := (h hcreated hraced).1
  have htwice : (leases Registration.init
      (Registration.created ++ Registration.raced).reduceOption).map Prod.fst =
        ["runtime", "runtime"] := by
    decide +kernel
  rw [htwice] at hnodup
  exact absurd hnodup (by decide)

/-- The runtime is created and offered twice; a claim then leases it. -/
theorem warmRuntimes_leased_first :
    ((leases Registration.init (Registration.created ++ Registration.offered).reduceOption).map
      Prod.fst).Nodup ∧
    ∃ runtime workspace,
      (Registration.after [Registration.insert, Registration.commit, Registration.ready,
        Registration.ready, Registration.claim "first"]).warmPoolRuntimes.get? "runtime" = some runtime ∧
      (Registration.after [Registration.insert, Registration.commit, Registration.ready,
        Registration.ready, Registration.claim "first"]).workspaces.get? "first" = some workspace ∧
      runtime.state = .leased ∧ workspace.providerRef = runtime.providerRef := by
  obtain ⟨thread, hcreated⟩ := Registration.created_run
  obtain ⟨threads, hoffered⟩ := Registration.offered_run thread
  have htimely := timely_run hcreated fun id patch hmem => by
    simp only [Registration.created, Registration.insert, Registration.commit, List.mem_cons,
      reduceCtorEq, Option.some.injEq, Operation.updateWarmPoolRuntime.injEq, List.not_mem_nil,
      or_false, false_or] at hmem
    rw [hmem.2]
    exact fun h => (by cases h)
  obtain ⟨hnodup, -, hlease⟩ := warmRuntimes_leased_once htimely hoffered
  refine ⟨hnodup, ?_⟩
  have hclaim : leaseOf (Registration.after [Registration.insert, Registration.commit,
      Registration.ready, Registration.ready]) (Registration.claim "first") =
      some ("runtime", "first") := by
    decide +kernel
  obtain ⟨runtime, workspace, hruntime, hworkspace, hstate, -, -, -, href⟩ := hlease hclaim
  exact ⟨runtime, workspace, hruntime, hworkspace, hstate, href⟩

end PocketCoder.WarmPools
