import PocketCoder.Workspaces.Operations

/-!
What the transactions on leases do. A report or a fence rewrites the leases
that are there: a closed lease keeps its state, and a lease of a fenced
workspace is revoking or closed. Only a request inserts a lease, after the
checks that `Requested` lists.
-/

namespace PocketCoder.Workspaces.Lifecycle

open PocketCoder.Foundation
open PocketCoder.Foundation.Transaction

/-! ### Rewrites -/

/-- The lease of a workspace that is fenced. -/
def LeaseState.ends (state : LeaseState) : Bool := state = .revoking || state.isClosed

/-- What a transaction may do to a lease, where `fences` are the workspaces
fenced before it and `fences'` those fenced after it. -/
structure LeaseMoves (fences fences' : List String) (lease lease' : WorkspaceLeaseRow) : Prop where
  workspaceId : lease'.workspaceId = lease.workspaceId
  secretName : lease'.secretName = lease.secretName
  purpose : lease'.purpose = lease.purpose
  /-- Revoked and expired are final. -/
  closed : lease.state.isClosed = true → lease'.state = lease.state
  fenced : lease.workspaceId ∈ fences' →
    (lease'.state = lease.state ∧ lease.workspaceId ∈ fences) ∨ lease'.state.ends = true

/-- The leases are rewritten, and no fence is lifted. -/
structure RewritesLeases (db db' : Store) : Prop where
  same : SameWorkspaces db db'
  fences : db.workspaceLeaseFences ⊆ db'.workspaceLeaseFences
  leases : ∃ f hf, db'.workspaceLeases = db.workspaceLeases.update f hf ∧
    ∀ lease ∈ db.workspaceLeases.rows,
      LeaseMoves db.workspaceLeaseFences db'.workspaceLeaseFences lease (f lease)

variable {db db' : Store}

/-- Nothing happens to workspaces, leases and fences. -/
theorem RewritesLeases.of_same (h : SameWorkspaces db db')
    (hfences : db'.workspaceLeaseFences = db.workspaceLeaseFences)
    (hleases : db'.workspaceLeases = db.workspaceLeases) : RewritesLeases db db' := by
  refine ⟨h, by rw [hfences]; exact List.Subset.refl _, id, fun _ => rfl, ?_, fun lease _ => ?_⟩
  · rw [hleases, Table.update]
    cases db.workspaceLeases
    simp
  · refine ⟨rfl, rfl, rfl, fun _ => rfl, fun hfenced => ?_⟩
    rw [hfences] at hfenced
    exact .inl ⟨rfl, hfenced⟩

theorem RewritesLeases.refl (db : Store) : RewritesLeases db db :=
  .of_same (.refl db) rfl rfl

theorem LeaseState.ends_of_closed {state : LeaseState} (h : state.isClosed = true) :
    state.ends = true := by
  rw [LeaseState.ends, h, Bool.or_true]

theorem fenceWorkspaceLeaseRows_rewrites (workspaceId : String) (db : Store) :
    RewritesLeases db (fenceWorkspaceLeaseRows workspaceId db) := by
  have hfences : ∀ id, id ∈ (fenceWorkspaceLeaseRows workspaceId db).workspaceLeaseFences ↔
      id ∈ db.workspaceLeaseFences ∨ id = workspaceId := by
    intro id
    rw [fenceWorkspaceLeaseRows]
    dsimp only
    split
    · rename_i hmem
      refine ⟨.inl, fun h => ?_⟩
      rcases h with h | rfl
      · exact h
      · simpa using hmem
    · rw [List.mem_append, List.mem_singleton]
  refine ⟨⟨rfl, rfl, rfl⟩, fun id hid => (hfences id).mpr (.inl hid), fenceLease workspaceId,
    fenceLease_id workspaceId, rfl, fun lease _ => ?_⟩
  unfold fenceLease
  split
  · rename_i hopen
    rw [Bool.and_eq_true, decide_eq_true_eq, Bool.not_eq_true'] at hopen
    refine ⟨rfl, rfl, rfl, fun hclosed => ?_, fun _ => .inr rfl⟩
    rw [hopen.2] at hclosed
    cases hclosed
  · rename_i hkept
    refine ⟨rfl, rfl, rfl, fun _ => rfl, fun hfenced => ?_⟩
    rcases (hfences _).mp hfenced with hold | hnew
    · exact .inl ⟨rfl, hold⟩
    · rw [decide_eq_true hnew, Bool.true_and, Bool.not_eq_true', Bool.not_eq_false] at hkept
      exact .inr (LeaseState.ends_of_closed hkept)

theorem mem_fences (workspaceId : String) (db : Store) :
    workspaceId ∈ (fenceWorkspaceLeaseRows workspaceId db).workspaceLeaseFences := by
  rw [fenceWorkspaceLeaseRows]
  dsimp only
  split
  · rename_i hmem
    simpa using hmem
  · exact List.mem_append_right _ List.mem_cons_self

theorem LeaseMoves.trans {fences fences' fences'' : List String}
    {lease lease' lease'' : WorkspaceLeaseRow} (h : LeaseMoves fences fences' lease lease')
    (h' : LeaseMoves fences' fences'' lease' lease'') : LeaseMoves fences fences'' lease lease'' where
  workspaceId := h'.workspaceId.trans h.workspaceId
  secretName := h'.secretName.trans h.secretName
  purpose := h'.purpose.trans h.purpose
  closed hclosed := by
    have hkept := h.closed hclosed
    rw [← hkept] at hclosed ⊢
    exact h'.closed hclosed
  fenced hfenced := by
    rw [← h.workspaceId] at hfenced
    rcases h'.fenced hfenced with ⟨hkept, hfenced⟩ | hends
    · rw [h.workspaceId] at hfenced
      rw [hkept]
      exact h.fenced hfenced
    · exact .inr hends

theorem RewritesLeases.trans {db'' : Store} (h : RewritesLeases db db')
    (h' : RewritesLeases db' db'') : RewritesLeases db db'' := by
  obtain ⟨f, hf, hleases, hmoves⟩ := h.leases
  obtain ⟨g, hg, hleases', hmoves'⟩ := h'.leases
  refine ⟨h.same.trans h'.same, List.Subset.trans h.fences h'.fences, g ∘ f,
    fun lease => (hg (f lease)).trans (hf lease), ?_, fun lease hlease => ?_⟩
  · rw [hleases', hleases]
    simp only [Table.update, List.map_map]
  · refine (hmoves lease hlease).trans (hmoves' (f lease) ?_)
    rw [hleases]
    exact List.mem_map_of_mem hlease

/-! ### Reports -/

/-- What a report writes to the lease it names. -/
theorem updateLease_rewrites {lease next result : WorkspaceLeaseRow}
    (hlease : db.workspaceLeases.get? lease.id = some lease)
    (h : updateLease next db = .ok (result, db')) (hid : next.id = lease.id)
    (hmoves : LeaseMoves db.workspaceLeaseFences db.workspaceLeaseFences lease next) :
    RewritesLeases db db' := by
  rw [updateLease, modify_bind] at h
  obtain ⟨-, rfl⟩ := pure_eq_ok.mp h
  refine ⟨⟨rfl, rfl, rfl⟩, List.Subset.refl _, replaceLease next, replaceLease_id next, rfl,
    fun other hother => ?_⟩
  unfold replaceLease
  by_cases hsame : other.id = next.id
  · have hget := Table.get?_of_mem hother
    rw [hsame, hid, hlease, Option.some.injEq] at hget
    rw [if_pos hsame, ← hget]
    exact hmoves
  · rw [if_neg hsame]
    exact ⟨rfl, rfl, rfl, fun _ => rfl, fun hfenced => .inl ⟨rfl, hfenced⟩⟩

theorem writable_eq_ok {α : Type} {id : String}
    {task : WorkspaceLeaseRow → LifecycleRow → Transaction α} {a : α}
    (h : writable id task db = .ok (a, db')) :
    ∃ lease owner, db.workspaceLeases.get? lease.id = some lease ∧
      db.workspaces.get? lease.workspaceId = some owner ∧ task lease owner db = .ok (a, db') := by
  rw [writable, get_bind] at h
  cases hlease : db.workspaceLeases.get? id with
  | none =>
      rw [hlease] at h
      exact (throw_eq_ok.mp h).elim
  | some lease =>
      rw [hlease] at h
      dsimp only at h
      cases howner : db.workspaces.get? lease.workspaceId with
      | none =>
          rw [howner] at h
          exact (throw_eq_ok.mp h).elim
      | some owner =>
          rw [howner] at h
          refine ⟨lease, owner, ?_, howner, h⟩
          rw [Table.key_of_get? hlease, hlease]

/-- A report on an open lease that leaves it stopped where it must be. -/
theorem leaseMoves_open {lease next : WorkspaceLeaseRow} {fences : List String}
    (hkeeps : next.workspaceId = lease.workspaceId ∧ next.secretName = lease.secretName ∧
      next.purpose = lease.purpose) (hopen : lease.state.isClosed = false)
    (hfenced : lease.workspaceId ∈ fences → next.state.ends = true) :
    LeaseMoves fences fences lease next := by
  refine ⟨hkeeps.1, hkeeps.2.1, hkeeps.2.2, fun hclosed => ?_, fun h => .inr (hfenced h)⟩
  rw [hopen] at hclosed
  cases hclosed

theorem recordWorkspaceLeaseIssued_rewrites {id issuerLeaseId : String} {expiresAt : Nat}
    {credentialBytes : Int} {now : Nat} {result : Option WorkspaceLeaseRow}
    (h : recordWorkspaceLeaseIssued id issuerLeaseId expiresAt credentialBytes now db =
      .ok (result, db')) : RewritesLeases db db' := by
  obtain ⟨lease, owner, hlease, howner, h⟩ := writable_eq_ok h
  split_ifs at h with hclosed
  · obtain ⟨-, rfl⟩ := pure_eq_ok.mp h
    exact .refl _
  · obtain ⟨-, h⟩ := require_bind_eq_ok.mp h
    obtain ⟨-, h⟩ := require_bind_eq_ok.mp h
    rw [get_bind, map_eq_pure_bind] at h
    obtain ⟨_, _, hupdate, h⟩ := bind_eq_ok.mp h
    obtain ⟨-, rfl⟩ := pure_eq_ok.mp h
    refine updateLease_rewrites hlease hupdate rfl
      (leaseMoves_open ⟨rfl, rfl, rfl⟩ (by simpa using hclosed) fun hfenced => ?_)
    have hid := Table.key_of_get? howner
    have hstopped : db.workspaceLeaseFences.contains owner.id = true := by
      rw [hid]
      simpa using hfenced
    dsimp only
    rw [hstopped, Bool.or_true, Bool.true_or]
    rfl

theorem recordWorkspaceLeaseDelivered_rewrites {id : String} {now : Nat}
    {result : Option WorkspaceLeaseRow}
    (h : recordWorkspaceLeaseDelivered id now db = .ok (result, db')) : RewritesLeases db db' := by
  obtain ⟨lease, owner, hlease, howner, h⟩ := writable_eq_ok h
  rw [get_bind] at h
  split_ifs at h with hstopped
  · obtain ⟨-, rfl⟩ := pure_eq_ok.mp h
    exact .refl _
  · rw [map_eq_pure_bind] at h
    obtain ⟨_, _, hupdate, h⟩ := bind_eq_ok.mp h
    obtain ⟨-, rfl⟩ := pure_eq_ok.mp h
    simp only [Bool.or_eq_true, not_or, Bool.not_eq_true', Bool.not_eq_false, decide_eq_true_eq,
      Bool.not_eq_true] at hstopped
    refine updateLease_rewrites hlease hupdate rfl
      (leaseMoves_open ⟨rfl, rfl, rfl⟩ ?_ fun hfenced => ?_)
    · rcases hstopped.1.1.1 with hstate | hstate <;> rw [hstate] <;> rfl
    · have hid := Table.key_of_get? howner
      have hnot := hstopped.1.2
      rw [hid] at hnot
      simp [hfenced] at hnot

theorem requestWorkspaceLeaseRevocation_rewrites {id : String} {result : WorkspaceLeaseRow}
    (h : requestWorkspaceLeaseRevocation id db = .ok (result, db')) : RewritesLeases db db' := by
  obtain ⟨lease, owner, hlease, -, h⟩ := writable_eq_ok h
  split_ifs at h with hstopped
  · obtain ⟨-, rfl⟩ := pure_eq_ok.mp h
    exact .refl _
  · rw [Bool.or_eq_true, not_or] at hstopped
    exact updateLease_rewrites hlease h rfl
      (leaseMoves_open ⟨rfl, rfl, rfl⟩ (by simpa using hstopped.1) fun _ => rfl)

theorem fenceWorkspaceLeases_rewrites {workspaceId : String} {u : Unit}
    (h : fenceWorkspaceLeases workspaceId db = .ok (u, db')) : RewritesLeases db db' := by
  rw [fenceWorkspaceLeases, get_bind] at h
  obtain ⟨-, h⟩ := require_bind_eq_ok.mp h
  rw [set_eq_ok.mp h]
  exact fenceWorkspaceLeaseRows_rewrites workspaceId db

theorem recordWorkspaceLeaseRevoked_rewrites {id requestId : String} {now : Nat}
    {result : Option WorkspaceLeaseRow}
    (h : recordWorkspaceLeaseRevoked id requestId now db = .ok (result, db')) :
    RewritesLeases db db' := by
  obtain ⟨lease, owner, hlease, -, h⟩ := writable_eq_ok h
  obtain ⟨-, h⟩ := require_bind_eq_ok.mp h
  split_ifs at h with hclosed hrevoking
  · obtain ⟨-, rfl⟩ := pure_eq_ok.mp h
    exact .refl _
  · obtain ⟨-, rfl⟩ := pure_eq_ok.mp h
    exact .refl _
  · rw [map_eq_pure_bind] at h
    obtain ⟨_, _, hupdate, h⟩ := bind_eq_ok.mp h
    obtain ⟨-, rfl⟩ := pure_eq_ok.mp h
    exact updateLease_rewrites hlease hupdate rfl
      (leaseMoves_open ⟨rfl, rfl, rfl⟩ (by simpa using hclosed) fun _ => rfl)

theorem recordWorkspaceLeaseExpired_rewrites {id : String} {now : Nat}
    {result : Option WorkspaceLeaseRow}
    (h : recordWorkspaceLeaseExpired id now db = .ok (result, db')) : RewritesLeases db db' := by
  obtain ⟨lease, owner, hlease, -, h⟩ := writable_eq_ok h
  split_ifs at h with hclosed hexpired
  · obtain ⟨-, rfl⟩ := pure_eq_ok.mp h
    exact .refl _
  · obtain ⟨-, rfl⟩ := pure_eq_ok.mp h
    exact .refl _
  · rw [map_eq_pure_bind] at h
    obtain ⟨_, _, hupdate, h⟩ := bind_eq_ok.mp h
    obtain ⟨-, rfl⟩ := pure_eq_ok.mp h
    exact updateLease_rewrites hlease hupdate rfl
      (leaseMoves_open ⟨rfl, rfl, rfl⟩ (by simpa using hclosed) fun _ => rfl)

/-! ### Secrets -/

theorem writeSecret_rewrites {authorized : Bool} {name : String} {type : SecretType}
    {versionId : String} {u : Unit} (h : writeSecret authorized name type versionId db = .ok (u, db')) :
    RewritesLeases db db' := by
  obtain ⟨-, h⟩ := require_bind_eq_ok.mp h
  rw [modify_eq_ok.mp h]
  exact .of_same ⟨rfl, rfl, rfl⟩ rfl rfl

theorem foldl_fence_rewrites (ids : List String) (db : Store) :
    RewritesLeases db (ids.foldl (fun db id => fenceWorkspaceLeaseRows id db) db) := by
  induction ids generalizing db with
  | nil => exact .refl db
  | cons id ids ih => exact (fenceWorkspaceLeaseRows_rewrites id db).trans (ih _)

theorem retireSecret_rewrites {authorized : Bool} {name : String} {now : Nat} {u : Unit}
    (h : retireSecret authorized name now db = .ok (u, db')) : RewritesLeases db db' := by
  obtain ⟨-, h⟩ := require_bind_eq_ok.mp h
  rw [get_bind] at h
  obtain ⟨-, h⟩ := require_bind_eq_ok.mp h
  rw [set_eq_ok.mp h]
  refine RewritesLeases.trans ?_ (foldl_fence_rewrites _ _)
  exact .of_same ⟨rfl, rfl, rfl⟩ rfl rfl

/-! ### Requests -/

/-- The leases of a reference that have run out are expired first. -/
def Store.expired (db : Store) (input : WorkspaceLeaseRequest) : Store :=
  { db with
    workspaceLeases := db.workspaceLeases.update (expireReference input) (expireReference_id input) }

theorem expired_rewrites (db : Store) (input : WorkspaceLeaseRequest) :
    RewritesLeases db (db.expired input) := by
  refine ⟨⟨rfl, rfl, rfl⟩, List.Subset.refl _, expireReference input, expireReference_id input,
    rfl, fun lease _ => ?_⟩
  unfold expireReference
  split
  · rename_i hopen
    simp only [sameReference, Bool.and_eq_true, Bool.not_eq_true'] at hopen
    exact leaseMoves_open ⟨rfl, rfl, rfl⟩ hopen.1.2 fun _ => rfl
  · exact ⟨rfl, rfl, rfl, fun _ => rfl, fun hfenced => .inl ⟨rfl, hfenced⟩⟩

/-- What a request has checked when it inserts its lease. -/
structure Requested (db : Store) (id : String) (input : WorkspaceLeaseRequest)
    (owner : LifecycleRow) (source : Option String × Option String) : Prop where
  row : db.workspaces.get? input.workspaceId = some owner
  unfenced : owner.id ∉ db.workspaceLeaseFences
  active : leaseWorkspaceActive owner input.purpose input.now = true
  source : leaseSourceIdentity owner input.purpose input.secretName = .ok source
  room : (db.expired input).workspaceLeases.rows.countP (sameReference input) < 2
  fresh : (db.expired input).workspaceLeases.get? id = none

theorem requestWorkspaceLease_eq_ok {id : String} {input : WorkspaceLeaseRequest}
    {result : WorkspaceLeaseRow} (h : requestWorkspaceLease id input db = .ok (result, db')) :
    db' = db ∨ ∃ owner source, Requested db id input owner source ∧
      db' = { db.expired input with
        workspaceLeases := (db.expired input).workspaceLeases.insert
          (requestedLease id owner input source) } := by
  rw [requestWorkspaceLease, get_bind] at h
  cases howner : db.workspaces.get? input.workspaceId with
  | none =>
      rw [howner] at h
      exact (throw_eq_ok.mp h).elim
  | some owner =>
      rw [howner] at h
      dsimp only at h
      obtain ⟨hunfenced, h⟩ := require_bind_eq_ok.mp h
      obtain ⟨hactive, h⟩ := require_bind_eq_ok.mp h
      obtain ⟨-, h⟩ := require_bind_eq_ok.mp h
      cases hexisting : existingLease db input with
      | some existing =>
          rw [hexisting] at h
          obtain ⟨-, h⟩ := require_bind_eq_ok.mp h
          exact .inl (pure_eq_ok.mp h).2
      | none =>
          rw [hexisting] at h
          obtain ⟨source, hsource, h⟩ := check_bind_eq_ok.mp h
          obtain ⟨_, db₁, henforce, h⟩ := bind_eq_ok.mp h
          rw [enforceReferenceLimit, modify_bind, get_bind] at henforce
          obtain ⟨hroom, rfl⟩ := check_eq_ok.mp henforce
          rw [get_bind] at h
          obtain ⟨hfresh, h⟩ := require_bind_eq_ok.mp h
          rw [set_bind] at h
          refine .inr ⟨owner, source, ⟨howner, by simpa using hunfenced, hactive, hsource,
            of_decide_eq_true (require_eq_ok.mp hroom), Option.isNone_iff_eq_none.mp hfresh⟩, ?_⟩
          exact (pure_eq_ok.mp h).2

theorem requestWorkspaceLease_same {id : String} {input : WorkspaceLeaseRequest}
    {result : WorkspaceLeaseRow} (h : requestWorkspaceLease id input db = .ok (result, db')) :
    SameWorkspaces db db' := by
  rcases requestWorkspaceLease_eq_ok h with rfl | ⟨_, _, -, rfl⟩
  · exact .refl _
  · exact ⟨rfl, rfl, rfl⟩

end PocketCoder.Workspaces.Lifecycle
