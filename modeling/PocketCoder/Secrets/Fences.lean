import PocketCoder.Workspaces.History

/-!
Credential leases are fenced for good: in every run of the store the leases
of a fenced workspace are revoking or closed, a workspace that stops is
fenced, and a workspace that has ended has no open lease. A report that comes
late cannot make a lease usable again.

A lease for the setup of a workspace is requested only where its template
names a credential for the source, which is what the check of a transition
to `ready` looks at; with that, a ready workspace has no such lease open.
-/

namespace PocketCoder.Workspaces.Lifecycle

open PocketCoder.Foundation
open PocketCoder.Foundation.Transaction

/-! ### The invariant -/

/-- Two leases per workspace, secret and purpose. -/
def sameTriple (workspaceId secretName : String) (purpose : LeasePurpose)
    (lease : WorkspaceLeaseRow) : Bool :=
  lease.workspaceId = workspaceId && lease.secretName = secretName && lease.purpose = purpose &&
    !lease.state.isClosed

structure Store.Fenced (db : Store) : Prop where
  /-- The leases of a fenced workspace are revoking, revoked or expired. -/
  closing : ∀ {lease}, lease ∈ db.workspaceLeases.rows →
    lease.workspaceId ∈ db.workspaceLeaseFences → lease.state.ends = true
  stopped : ∀ {id row}, db.workspaces.get? id = some row → stops row.state = true →
    id ∈ db.workspaceLeaseFences
  terminal : ∀ {id row lease}, db.workspaces.get? id = some row → row.state.isTerminal = true →
    lease ∈ db.workspaceLeases.rows → lease.workspaceId = id → lease.state.isClosed = true
  limit : ∀ workspaceId secretName purpose,
    db.workspaceLeases.rows.countP (sameTriple workspaceId secretName purpose) ≤ 2
  setup : ∀ {id row lease}, db.workspaces.get? id = some row → row.state = .ready →
    lease ∈ db.workspaceLeases.rows → lease.workspaceId = id → lease.purpose = .setupIssuer →
      lease.state.isClosed = true
  /-- The workspace of a lease is stored, and names the credential of a lease
  for its setup. -/
  hosted : ∀ {lease}, lease ∈ db.workspaceLeases.rows →
    ∃ row, db.workspaces.get? lease.workspaceId = some row ∧
      (lease.purpose = .setupIssuer → (setupCredential row).isSome = true)

variable {db db' : Store}

/-- A store without leases, before its first workspace. -/
theorem Store.Unused.fenced (h : db.Unused) (hleases : db.workspaceLeases.rows = []) :
    db.Fenced := by
  have hnone : ∀ {lease}, lease ∉ db.workspaceLeases.rows := by
    intro lease
    rw [hleases]
    exact List.not_mem_nil
  refine ⟨fun hlease => absurd hlease hnone, fun {id row} hrow => ?_,
    fun _ _ hlease => absurd hlease hnone, fun _ _ _ => ?_,
    fun _ _ hlease => absurd hlease hnone, fun hlease => absurd hlease hnone⟩
  · rw [h.get? id] at hrow
    cases hrow
  · rw [hleases]
    exact Nat.zero_le 2

/-! ### Leases are rewritten -/

theorem LeaseMoves.closed_of {fences fences' : List String} {lease lease' : WorkspaceLeaseRow}
    (h : LeaseMoves fences fences' lease lease') (hclosed : lease.state.isClosed = true) :
    lease'.state.isClosed = true := by
  rw [h.closed hclosed]
  exact hclosed

theorem RewritesLeases.fenced (h : RewritesLeases db db') (hdb : db.Fenced) : db'.Fenced := by
  obtain ⟨f, hf, hleases, hmoves⟩ := h.leases
  -- every lease comes from one that was there, and moves as the state machine allows
  have hmem : ∀ {lease'}, lease' ∈ db'.workspaceLeases.rows →
      ∃ lease ∈ db.workspaceLeases.rows, f lease = lease' := by
    intro lease' hlease'
    rw [hleases] at hlease'
    exact List.mem_map.mp hlease'
  have hrow : ∀ {id row}, db'.workspaces.get? id = some row → db.workspaces.get? id = some row := by
    intro id row hrow
    rw [← h.same.workspaces, hrow]
  refine ⟨fun hlease' hfenced => ?_,
    fun hstored hstops => h.fences (hdb.stopped (hrow hstored) hstops),
    fun hstored hterminal hlease' hid => ?_, fun workspaceId secretName purpose => ?_,
    fun hstored hready hlease' hid hpurpose => ?_, fun hlease' => ?_⟩
  · obtain ⟨lease, hlease, rfl⟩ := hmem hlease'
    have hmove := hmoves lease hlease
    rw [hmove.workspaceId] at hfenced
    rcases hmove.fenced hfenced with ⟨hkept, hold⟩ | hends
    · rw [hkept]
      exact hdb.closing hlease hold
    · exact hends
  · obtain ⟨lease, hlease, rfl⟩ := hmem hlease'
    have hmove := hmoves lease hlease
    rw [hmove.workspaceId] at hid
    exact hmove.closed_of (hdb.terminal (hrow hstored) hterminal hlease hid)
  · refine le_trans ?_ (hdb.limit workspaceId secretName purpose)
    rw [hleases, Table.update, List.countP_map]
    -- no closed lease is opened, so no triple gets more open leases
    refine List.countP_mono_left fun lease hlease hopen => ?_
    have hmove := hmoves lease hlease
    simp only [Function.comp_apply, sameTriple, hmove.workspaceId, hmove.secretName, hmove.purpose,
      Bool.and_eq_true, Bool.not_eq_true'] at hopen ⊢
    refine ⟨hopen.1, ?_⟩
    by_contra hclosed
    rw [hmove.closed_of (by simpa using hclosed)] at hopen
    cases hopen.2
  · obtain ⟨lease, hlease, rfl⟩ := hmem hlease'
    have hmove := hmoves lease hlease
    rw [hmove.workspaceId] at hid
    rw [hmove.purpose] at hpurpose
    exact hmove.closed_of (hdb.setup (hrow hstored) hready hlease hid hpurpose)
  · obtain ⟨lease, hlease, rfl⟩ := hmem hlease'
    have hmove := hmoves lease hlease
    obtain ⟨row, hstored, hcredential⟩ := hdb.hosted hlease
    rw [hmove.workspaceId, hmove.purpose]
    exact ⟨row, by rw [h.same.workspaces, hstored], hcredential⟩

/-! ### A lease is requested -/

/-- A lease for the setup names a credential of the source. -/
theorem setupCredential_of_source {owner : LifecycleRow} {name : String}
    {source : Option String × Option String}
    (h : leaseSourceIdentity owner .setupIssuer name = .ok source) :
    (setupCredential owner).isSome = true := by
  unfold leaseSourceIdentity at h
  cases hsource : owner.sourceDescriptor with
  | none =>
      rw [hsource] at h
      cases h
  | some descriptor =>
      rw [hsource] at h
      dsimp only at h
      cases hrepository : owner.templateSnapshot.repositories.lookup descriptor.repository with
      | none =>
          rw [hrepository] at h
          cases h
      | some repository =>
          rw [hrepository] at h
          obtain ⟨_, hguard, -⟩ := Except.bind_eq_ok.mp h
          have hguard := require_eq_ok.mp hguard
          rw [Bool.and_eq_true, decide_eq_true_eq, decide_eq_true_eq] at hguard
          have hname : decide ("secretRef:" ++ name ≠ "") = true := by
            rw [decide_eq_true_eq]
            intro hempty
            have hlength := congrArg String.length hempty
            rw [String.length_append] at hlength
            have hfirstPart : "secretRef:".length = 10 := rfl
            rw [hfirstPart] at hlength
            simp at hlength
          rw [setupCredential, if_pos hguard.1, hsource, Option.bind_some, hrepository,
            Option.bind_some, hguard.2, Option.filter_some, if_pos hname]
          rfl

theorem active_not_stops {owner : LifecycleRow} {purpose : LeasePurpose} {now : Nat}
    (h : leaseWorkspaceActive owner purpose now = true) :
    owner.state.isTerminal = false ∧ (owner.state = .ready → purpose ≠ .setupIssuer) := by
  unfold leaseWorkspaceActive at h
  rw [Bool.and_eq_true, Bool.and_eq_true] at h
  have hstate := h.1.1
  cases purpose with
  | setupIssuer =>
      have hprovisioning : owner.state = .provisioning := by simpa using hstate
      rw [hprovisioning]
      exact ⟨rfl, fun hready => (by cases hready)⟩
  | runtimeIssuer =>
      have hcases : owner.state = .provisioning ∨ owner.state = .connected ∨
          owner.state = .ready := by simpa using hstate
      refine ⟨?_, fun _ hpurpose => (by cases hpurpose)⟩
      rcases hcases with h | h | h <;> rw [h] <;> rfl

/-- The members of the table after a request. -/
theorem mem_requested {table : Table WorkspaceLeaseRow.id} {lease other : WorkspaceLeaseRow}
    (h : other ∈ (table.insert lease).rows) : other ∈ table.rows ∨ other = lease := by
  unfold Table.insert at h
  split at h
  · exact .inl h
  · rw [List.mem_append, List.mem_singleton] at h
    exact h

theorem countP_requested_le {table : Table WorkspaceLeaseRow.id} {lease : WorkspaceLeaseRow}
    (condition : WorkspaceLeaseRow → Bool) :
    (table.insert lease).rows.countP condition ≤
      table.rows.countP condition + if condition lease then 1 else 0 := by
  unfold Table.insert
  split
  · exact Nat.le_add_right _ _
  · rw [List.countP_append, List.countP_singleton]

theorem Requested.fenced {id : String} {input : WorkspaceLeaseRequest} {owner : LifecycleRow}
    {source : Option String × Option String} (h : Requested db id input owner source)
    (hdb : db.Fenced) :
    Store.Fenced { db.expired input with
      workspaceLeases := (db.expired input).workspaceLeases.insert
        (requestedLease id owner input source) } := by
  -- what has expired is closed first, which keeps everything
  have hexpired := (expired_rewrites db input).fenced hdb
  have hid := Table.key_of_get? h.row
  obtain ⟨hopen, hready⟩ := active_not_stops h.active
  refine ⟨fun hlease hfenced => ?_, hexpired.stopped,
    fun {id' row _} hstored hterminal hlease hlid => ?_,
    fun workspaceId secretName purpose => ?_,
    fun {id' row _} hstored hisReady hlease hlid hpurpose => ?_, fun hlease => ?_⟩
  · rcases mem_requested hlease with hold | rfl
    · exact hexpired.closing hold hfenced
    · exact absurd hfenced h.unfenced
  · rcases mem_requested hlease with hold | rfl
    · exact hexpired.terminal hstored hterminal hold hlid
    · have hstored : db.workspaces.get? id' = some row := hstored
      have hlid : owner.id = id' := hlid
      rw [← hlid, hid, h.row, Option.some.injEq] at hstored
      rw [← hstored, hopen] at hterminal
      cases hterminal
  · refine le_trans (countP_requested_le _) ?_
    split
    · rename_i hsame
      rw [sameTriple, Bool.and_eq_true, Bool.and_eq_true, Bool.and_eq_true, decide_eq_true_eq,
        decide_eq_true_eq, decide_eq_true_eq] at hsame
      obtain ⟨⟨⟨hwid, hname⟩, hpurpose⟩, -⟩ := hsame
      have hwid : owner.id = workspaceId := hwid
      have hname : input.secretName = secretName := hname
      have hpurpose : input.purpose = purpose := hpurpose
      -- the limit that the request was checked against is that of its own triple
      have hreference : sameTriple workspaceId secretName purpose = sameReference input := by
        funext lease
        rw [sameTriple, sameReference, ← hwid, ← hname, ← hpurpose, hid]
      rw [hreference]
      exact h.room
    · exact hexpired.limit workspaceId secretName purpose
  · rcases mem_requested hlease with hold | rfl
    · exact hexpired.setup hstored hisReady hold hlid hpurpose
    · have hstored : db.workspaces.get? id' = some row := hstored
      have hlid : owner.id = id' := hlid
      rw [← hlid, hid, h.row, Option.some.injEq] at hstored
      rw [← hstored] at hisReady
      exact absurd hpurpose (hready hisReady)
  · rcases mem_requested hlease with hold | rfl
    · exact hexpired.hosted hold
    · refine ⟨owner, ?_, fun hpurpose => ?_⟩
      · show db.workspaces.get? owner.id = some owner
        rw [hid, h.row]
      · have hpurpose : input.purpose = .setupIssuer := hpurpose
        have hsource := h.source
        rw [hpurpose] at hsource
        exact setupCredential_of_source hsource

/-! ### A workspace changes -/

/-- The leases and the fences are the same. -/
structure SameLeases (db db' : Store) : Prop where
  leases : db'.workspaceLeases = db.workspaceLeases
  fences : db'.workspaceLeaseFences = db.workspaceLeaseFences

/-- A workspace is written, with what its new state promises. -/
theorem Store.Fenced.write (hdb : db.Fenced) (hsame : SameLeases db db') {row row' : LifecycleRow}
    (hrows : ∀ id, db'.workspaces.get? id =
      if row.id = id then some row' else db.workspaces.get? id)
    (hcredential : ∀ {lease}, lease ∈ db.workspaceLeases.rows → lease.workspaceId = row.id →
      lease.purpose = .setupIssuer → (setupCredential row').isSome = true)
    (hstops : stops row'.state = true → row.id ∈ db.workspaceLeaseFences)
    (hterminal : ∀ {lease}, row'.state.isTerminal = true → lease ∈ db.workspaceLeases.rows →
      lease.workspaceId = row.id → lease.state.isClosed = true)
    (hready : ∀ {lease}, row'.state = .ready → lease ∈ db.workspaceLeases.rows →
      lease.workspaceId = row.id → lease.purpose = .setupIssuer → lease.state.isClosed = true) :
    db'.Fenced := by
  -- only the row that is written is a new one
  have hcases : ∀ {id stored}, db'.workspaces.get? id = some stored →
      (row.id = id ∧ stored = row') ∨ db.workspaces.get? id = some stored := by
    intro id stored hstored
    rw [hrows] at hstored
    split_ifs at hstored with hid
    · exact .inl ⟨hid, (Option.some.inj hstored).symm⟩
    · exact .inr hstored
  obtain ⟨hleases, hfences⟩ := hsame
  refine ⟨fun hlease hfenced => ?_, fun hstored hstop => ?_,
    fun hstored hterm hlease hid => ?_, fun workspaceId secretName purpose => ?_,
    fun hstored hisReady hlease hid hpurpose => ?_, fun {lease} hlease => ?_⟩
  · rw [hleases] at hlease
    rw [hfences] at hfenced
    exact hdb.closing hlease hfenced
  · rw [hfences]
    rcases hcases hstored with ⟨rfl, rfl⟩ | hold
    · exact hstops hstop
    · exact hdb.stopped hold hstop
  · rw [hleases] at hlease
    rcases hcases hstored with ⟨rfl, rfl⟩ | hold
    · exact hterminal hterm hlease hid
    · exact hdb.terminal hold hterm hlease hid
  · rw [hleases]
    exact hdb.limit workspaceId secretName purpose
  · rw [hleases] at hlease
    rcases hcases hstored with ⟨rfl, rfl⟩ | hold
    · exact hready hisReady hlease hid hpurpose
    · exact hdb.setup hold hisReady hlease hid hpurpose
  · rw [hleases] at hlease
    rw [hrows]
    by_cases hid : row.id = lease.workspaceId
    · rw [if_pos hid]
      exact ⟨row', rfl, hcredential hlease hid.symm⟩
    · rw [if_neg hid]
      exact hdb.hosted hlease

/-- A workspace that is written keeps what its state promises. -/
theorem Store.Fenced.patch (hdb : db.Fenced) {id : String} {f : LifecycleRow → LifecycleRow}
    {hf : ∀ row, (f row).id = row.id}
    (hkeeps : ∀ row, (f row).state = row.state ∧ setupCredential (f row) = setupCredential row) :
    (db.write id f hf).Fenced := by
  cases hrow : db.workspaces.get? id with
  | none =>
      have hsame : SameWorkspaces db (db.write id f hf) := write_of_none hrow
      exact (RewritesLeases.of_same hsame rfl rfl).fenced hdb
  | some row =>
      have hid := Table.key_of_get? hrow
      have hstored : db.workspaces.get? row.id = some row := hid ▸ hrow
      obtain ⟨hstate, hcredential⟩ := hkeeps row
      refine hdb.write ⟨rfl, rfl⟩ (get?_write hrow hf) (fun hlease hlid hpurpose => ?_)
        (fun hstop => hdb.stopped hstored (hstate ▸ hstop))
        (fun hterm => hdb.terminal hstored (hstate ▸ hterm))
        (fun hready => hdb.setup hstored (hstate ▸ hready))
      obtain ⟨row', hrow', hnames⟩ := hdb.hosted hlease
      rw [hlid, hstored, Option.some.injEq] at hrow'
      rw [hcredential, hrow']
      exact hnames hpurpose

/-- The fields of the source are never patched. -/
theorem setupCredential_patchedRow (patch : WorkspacePatch) (row : LifecycleRow) :
    setupCredential (patchedRow patch row) = setupCredential row := by
  unfold patchedRow
  split <;> rfl

theorem setupCredential_transitionedRow (req : TransitionInput) (row : LifecycleRow) :
    setupCredential (transitionedRow req row) = setupCredential row := by
  unfold transitionedRow
  dsimp only
  split <;> split <;> rfl

theorem transitionedRow_state (req : TransitionInput) (row : LifecycleRow) :
    (transitionedRow req row).state = req.target := by
  unfold transitionedRow
  dsimp only
  split <;> split <;> rfl

/-! ### Every operation -/

/-- What every operation keeps: the invariant, and the leases that are closed. -/
structure Keeps (db db' : Store) : Prop where
  fenced : db.Fenced → db'.Fenced
  fences : db.workspaceLeaseFences ⊆ db'.workspaceLeaseFences
  /-- Revoked and expired are final. -/
  closed : ∀ {id lease}, db.workspaceLeases.get? id = some lease → lease.state.isClosed = true →
    ∃ lease', db'.workspaceLeases.get? id = some lease' ∧ lease'.state = lease.state

theorem Keeps.refl (db : Store) : Keeps db db :=
  ⟨fun h => h, List.Subset.refl _, fun hlease _ => ⟨_, hlease, rfl⟩⟩

theorem Keeps.trans {db'' : Store} (h : Keeps db db') (h' : Keeps db' db'') : Keeps db db'' where
  fenced hdb := h'.fenced (h.fenced hdb)
  fences := List.Subset.trans h.fences h'.fences
  closed hlease hclosed := by
    obtain ⟨lease', hlease', hstate⟩ := h.closed hlease hclosed
    rw [← hstate] at hclosed ⊢
    exact h'.closed hlease' hclosed

/-- The leases stay as they are. -/
theorem Keeps.of_same (hsame : SameLeases db db') (hfenced : db.Fenced → db'.Fenced) :
    Keeps db db' := by
  refine ⟨hfenced, ?_, fun hlease _ => ⟨_, ?_, rfl⟩⟩
  · rw [hsame.fences]
    exact List.Subset.refl _
  · rw [hsame.leases, hlease]

theorem RewritesLeases.keeps (h : RewritesLeases db db') : Keeps db db' := by
  refine ⟨h.fenced, h.fences, fun {id lease} hlease hclosed => ?_⟩
  obtain ⟨f, hf, hleases, hmoves⟩ := h.leases
  refine ⟨f lease, ?_, (hmoves lease (Table.get?_eq_some.mp hlease).1).closed hclosed⟩
  rw [hleases, Table.get?_update, hlease]
  rfl

theorem insertWorkspace_keeps {input : WorkspaceInsert} {limit : Option Nat}
    {result : WorkspaceInsertResult} (h : insertWorkspace input limit db = .ok (result, db')) :
    Keeps db db' := by
  rcases insertWorkspace_eq_ok h with rfl | ⟨hnone, rfl⟩
  · exact .refl _
  · refine .of_same ⟨rfl, rfl⟩ fun hdb => ?_
    refine hdb.write ⟨rfl, rfl⟩ (get?_inserted hnone) (fun hlease hid => ?_)
      (fun hstops => (by cases hstops)) (fun hterminal => (by cases hterminal))
      (fun hready => (by cases hready))
    obtain ⟨row, hrow, -⟩ := hdb.hosted hlease
    rw [hid] at hrow
    cases hnone.symm.trans hrow

theorem updateWorkspace_keeps {id : String} {patch : WorkspacePatch} {u : Unit}
    (h : updateWorkspace id patch db = .ok (u, db')) : Keeps db db' := by
  rw [modify_eq_ok.mp h]
  exact .of_same ⟨rfl, rfl⟩ fun hdb => hdb.patch fun row =>
    ⟨(patchedRow_patches patch row).state, setupCredential_patchedRow patch row⟩

theorem setQueuedAdmissionReason_keeps {id : String} {reason : Option AdmissionReason} {u : Unit}
    (h : setQueuedAdmissionReason id reason db = .ok (u, db')) : Keeps db db' := by
  rw [setQueuedAdmissionReason, get_bind] at h
  split_ifs at h
  · rw [set_eq_ok.mp h]
    exact .of_same ⟨rfl, rfl⟩ fun hdb => hdb.patch fun row => ⟨rfl, rfl⟩
  · obtain ⟨-, rfl⟩ := pure_eq_ok.mp h
    exact .refl _

theorem admitPurge_keeps {id : String} {now : Nat} {u : Unit}
    (h : admitPurge id now db = .ok (u, db')) : Keeps db db' := by
  rw [modify_eq_ok.mp h]
  exact .of_same ⟨rfl, rfl⟩ fun hdb => hdb.patch fun row => ⟨rfl, rfl⟩

/-- A queued workspace that starts provisioning. -/
theorem Store.Fenced.provision (hdb : db.Fenced) (hsame : SameLeases db db')
    {row row' : LifecycleRow} (hrow : db.workspaces.get? row.id = some row)
    (hrows : ∀ id, db'.workspaces.get? id =
      if row.id = id then some row' else db.workspaces.get? id)
    (hstate : row'.state = .provisioning) (hcredential : setupCredential row' = setupCredential row) :
    db'.Fenced := by
  refine hdb.write hsame hrows (fun hlease hid hpurpose => ?_) (fun hstops => ?_)
    (fun hterminal => ?_) (fun hready => ?_)
  · obtain ⟨stored, hstored, hnames⟩ := hdb.hosted hlease
    rw [hid, hrow, Option.some.injEq] at hstored
    rw [hcredential, hstored]
    exact hnames hpurpose
  · rw [hstate] at hstops
    cases hstops
  · rw [hstate] at hterminal
    cases hterminal
  · rw [hstate] at hready
    cases hready

theorem claimWorkspaceAdmission_keeps {claim : WorkspaceAdmissionClaim}
    {result : Option LifecycleRow} (h : claimWorkspaceAdmission claim db = .ok (result, db')) :
    Keeps db db' := by
  rcases claimWorkspaceAdmission_eq_ok h with rfl | ⟨current, hrow, -, -, -, rfl⟩
  · exact .refl _
  · have hid := Table.key_of_get? hrow
    exact .of_same ⟨rfl, rfl⟩ fun hdb => hdb.provision ⟨rfl, rfl⟩ (hid ▸ hrow)
      (get?_write (f := admittedRow claim) hrow fun _ => rfl) rfl rfl

theorem claimWarmPoolRuntime_keeps {claim : WarmPoolClaim} {choice : Option String}
    {result : Option WarmClaimResult} (h : claimWarmPoolRuntime claim choice db = .ok (result, db')) :
    Keeps db db' := by
  rcases claimWarmPoolRuntime_eq_ok h with ⟨-, rfl⟩ |
    ⟨locked, runtime, hrow, -, -, -, -, -, -, rfl⟩
  · exact .refl _
  · have hid := Table.key_of_get? hrow
    exact .of_same ⟨rfl, rfl⟩ fun hdb => hdb.provision ⟨rfl, rfl⟩ (hid ▸ hrow)
      (get?_write (f := warmRow claim runtime) hrow fun _ => rfl) rfl rfl

/-! ### A workspace makes a transition -/

/-- What the leases are when a transition goes on. -/
theorem prepareLeaseTransition_eq_ok {id : String} {target : WorkspaceState} {prepared : Bool}
    (h : prepareLeaseTransition id target db = .ok (prepared, db')) :
    RewritesLeases db db' ∧ (stops target = true → id ∈ db'.workspaceLeaseFences) ∧
      (stops target = false → db' = db) ∧
      (prepared = true → target.isTerminal = true →
        (pendingWorkspaceLeases db' id).isEmpty = true) := by
  rw [prepareLeaseTransition] at h
  split_ifs at h with hstops
  · obtain ⟨-, rfl⟩ := pure_eq_ok.mp h
    rw [Bool.not_eq_true'] at hstops
    refine ⟨.refl _, fun htrue => ?_, fun _ => rfl, fun _ hterminal => ?_⟩
    · rw [hstops] at htrue
      cases htrue
    · rw [stops, hterminal] at hstops
      cases hstops
  · rw [modify_bind, get_bind] at h
    obtain ⟨rfl, rfl⟩ := pure_eq_ok.mp h
    refine ⟨fenceWorkspaceLeaseRows_rewrites id db, fun _ => mem_fences id db, fun hfalse => ?_,
      fun hprepared hterminal => ?_⟩
    · rw [hfalse] at hstops
      exact absurd rfl hstops
    · rw [hterminal] at hprepared
      exact hprepared

theorem closed_of_pending {id : String} (h : (pendingWorkspaceLeases db id).isEmpty = true)
    {lease : WorkspaceLeaseRow} (hlease : lease ∈ db.workspaceLeases.rows)
    (hid : lease.workspaceId = id) : lease.state.isClosed = true := by
  rw [pendingWorkspaceLeases, List.isEmpty_iff, List.filter_eq_nil_iff] at h
  have hkept := h lease hlease
  rw [decide_eq_true hid, Bool.true_and, Bool.not_eq_true', Bool.not_eq_false] at hkept
  exact hkept

/-- The leases for the setup are closed where the workspace names their
credential. -/
theorem closed_of_setup {row : LifecycleRow} (h : setupLeaseClosed db row = true)
    (hcredential : (setupCredential row).isSome = true) {lease : WorkspaceLeaseRow}
    (hlease : lease ∈ db.workspaceLeases.rows) (hid : lease.workspaceId = row.id)
    (hpurpose : lease.purpose = .setupIssuer) : lease.state.isClosed = true := by
  obtain ⟨reference, hreference⟩ := Option.isSome_iff_exists.mp hcredential
  unfold setupLeaseClosed at h
  rw [hreference] at h
  dsimp only at h
  rw [Bool.and_eq_true] at h
  have hclosed := List.all_eq_true.mp h.2 lease (List.mem_filter.mpr ⟨hlease, decide_eq_true hid⟩)
  rw [Bool.or_eq_true, decide_eq_true_eq] at hclosed
  exact hclosed.resolve_left fun hother => hother hpurpose

theorem transitionWorkspace_keeps {id : String} {req : TransitionInput}
    {result : Option LifecycleRow} (h : transitionWorkspace id req db = .ok (result, db')) :
    Keeps db db' := by
  rcases transitionWorkspace_eq_ok h with ⟨-, rfl⟩ |
    ⟨current, db₁, prepared, hrow, -, hready, hprepare, hcase⟩
  · exact .refl _
  obtain ⟨hrewrites, hfences, hkept, hpending⟩ := prepareLeaseTransition_eq_ok hprepare
  refine hrewrites.keeps.trans ?_
  rcases hcase with ⟨-, -, rfl⟩ | ⟨rfl, -, rfl⟩
  · exact .refl _
  refine .of_same ⟨rfl, rfl⟩ fun hdb => ?_
  have hid := Table.key_of_get? hrow
  have hrow₁ : db₁.workspaces.get? id = some current := by rw [hrewrites.same.workspaces, hrow]
  have hhosted : ∀ {lease}, lease ∈ db₁.workspaceLeases.rows → lease.workspaceId = current.id →
      lease.purpose = .setupIssuer → (setupCredential current).isSome = true := by
    intro lease hlease hlid hpurpose
    obtain ⟨stored, hstored, hnames⟩ := hdb.hosted hlease
    rw [hlid, hid, hrow₁, Option.some.injEq] at hstored
    rw [hstored]
    exact hnames hpurpose
  have hstate := transitionedRow_state req current
  refine hdb.write ⟨rfl, rfl⟩ (get?_write hrow₁ (transitionedRow_id req))
    (fun hlease hlid hpurpose => ?_) (fun hstops => ?_) (fun hterminal hlease hlid => ?_)
    (fun hisReady hlease hlid hpurpose => ?_)
  · rw [setupCredential_transitionedRow]
    exact hhosted hlease hlid hpurpose
  · rw [hstate] at hstops
    rw [hid]
    exact hfences hstops
  · rw [hstate] at hterminal
    exact closed_of_pending (hpending rfl hterminal) hlease (hlid.trans hid)
  · rw [hstate] at hisReady
    -- a transition to ready fences nothing, so its check saw these leases
    have hdb₁ : db₁ = db := hkept (by rw [hisReady]; rfl)
    have hclosed := hready hisReady
    rw [← hdb₁] at hclosed
    exact closed_of_setup hclosed (hhosted hlease hlid hpurpose) hlease hlid hpurpose

theorem requestWorkspaceLease_keeps {id : String} {input : WorkspaceLeaseRequest}
    {result : WorkspaceLeaseRow} (h : requestWorkspaceLease id input db = .ok (result, db')) :
    Keeps db db' := by
  rcases requestWorkspaceLease_eq_ok h with rfl | ⟨owner, source, hrequested, rfl⟩
  · exact .refl _
  · refine ⟨hrequested.fenced, List.Subset.refl _, fun {id' lease} hlease hclosed => ?_⟩
    obtain ⟨lease', hlease', hstate⟩ := (expired_rewrites db input).keeps.closed hlease hclosed
    refine ⟨lease', ?_, hstate⟩
    rw [Table.get?_insert, hlease']
    rfl

theorem transact_keeps (db : Store) (operation : Operation) : Keeps db (transact db operation) := by
  have hsame : Keeps db db := .refl db
  -- a transaction that throws leaves the store as it was
  cases operation with
  | insertWorkspace input limit => exact committed_of hsame insertWorkspace_keeps
  | updateWorkspace id patch => exact committed_of hsame updateWorkspace_keeps
  | transition id req => exact committed_of hsame transitionWorkspace_keeps
  | setQueuedAdmissionReason id reason => exact committed_of hsame setQueuedAdmissionReason_keeps
  | claimWorkspaceAdmission claim => exact committed_of hsame claimWorkspaceAdmission_keeps
  | claimWarmPoolRuntime claim choice => exact committed_of hsame claimWarmPoolRuntime_keeps
  | admitPurge id now => exact committed_of hsame admitPurge_keeps
  | requestWorkspaceLease id input => exact committed_of hsame requestWorkspaceLease_keeps
  | recordWorkspaceLeaseIssued id issuerLeaseId expiresAt credentialBytes now =>
      exact committed_of hsame fun h => (recordWorkspaceLeaseIssued_rewrites h).keeps
  | recordWorkspaceLeaseDelivered id now =>
      exact committed_of hsame fun h => (recordWorkspaceLeaseDelivered_rewrites h).keeps
  | requestWorkspaceLeaseRevocation id =>
      exact committed_of hsame fun h => (requestWorkspaceLeaseRevocation_rewrites h).keeps
  | fenceWorkspaceLeases workspaceId =>
      exact committed_of hsame fun h => (fenceWorkspaceLeases_rewrites h).keeps
  | recordWorkspaceLeaseRevoked id requestId now =>
      exact committed_of hsame fun h => (recordWorkspaceLeaseRevoked_rewrites h).keeps
  | recordWorkspaceLeaseExpired id now =>
      exact committed_of hsame fun h => (recordWorkspaceLeaseExpired_rewrites h).keeps
  | writeSecret authorized name type versionId =>
      exact committed_of hsame fun h => (writeSecret_rewrites h).keeps
  | retireSecret authorized name now =>
      exact committed_of hsame fun h => (retireSecret_rewrites h).keeps
  | insertWarmPoolRuntime row =>
      have hrewrites : RewritesLeases db (transact db (.insertWarmPoolRuntime row)) :=
        .of_same ⟨rfl, rfl, rfl⟩ rfl rfl
      exact hrewrites.keeps
  | updateWarmPoolRuntime id patch =>
      have hrewrites : RewritesLeases db (transact db (.updateWarmPoolRuntime id patch)) :=
        .of_same ⟨rfl, rfl, rfl⟩ rfl rfl
      exact hrewrites.keeps

/-! ### Runs -/

theorem Transacts.keeps {operation : Operation} (h : Transacts db operation db') : Keeps db db' := by
  obtain rfl : db' = transact db operation := h
  exact transact_keeps db operation

/-- What a run keeps. -/
theorem keeps_of_run {operations : List Operation} (h : Run Transacts db operations db') :
    Keeps db db' :=
  h.relates (I := fun _ => True) Keeps.refl Keeps.trans (fun _ _ => trivial)
    (fun hstep _ => hstep.keeps) trivial

theorem LeaseState.isClosed_iff {state : LeaseState} :
    state.isClosed = true ↔ state = .revoked ∨ state = .expired := by
  cases state <;> decide

theorem LeaseState.ends_iff {state : LeaseState} :
    state.ends = true ↔ state = .revoking ∨ state = .revoked ∨ state = .expired := by
  cases state <;> decide

theorem stops_iff {state : WorkspaceState} :
    stops state = true ↔ state = .terminating ∨ state = .preserving ∨ state.isTerminal = true := by
  cases state <;> decide

/-- **Credential leases are fenced for good.** In every state of every run
from a store without workspaces and leases, the leases of a fenced workspace
are revoking or closed, a workspace that stops or has ended is fenced, one
that has ended has only closed leases, at most two leases for a workspace, a
secret and a purpose are open, and a ready workspace has no open lease for
its setup. In every later state a fence still stands, and a lease that was
revoked or expired is as it was. -/
theorem leases_fenced {db₀ db db' : Store} {operations later : List Operation}
    (hunused : db₀.Unused) (hleases : db₀.workspaceLeases.rows = [])
    (hrun : Run Transacts db₀ operations db) (hlater : Run Transacts db later db') :
    (∀ lease ∈ db.workspaceLeases.rows, lease.workspaceId ∈ db.workspaceLeaseFences →
      lease.state = .revoking ∨ lease.state = .revoked ∨ lease.state = .expired) ∧
    (∀ id row, db.workspaces.get? id = some row →
      (row.state = .terminating ∨ row.state = .preserving ∨ row.state.isTerminal = true) →
      id ∈ db.workspaceLeaseFences) ∧
    (∀ id row, db.workspaces.get? id = some row → row.state.isTerminal = true →
      ∀ lease ∈ db.workspaceLeases.rows, lease.workspaceId = id →
        lease.state = .revoked ∨ lease.state = .expired) ∧
    (∀ workspaceId secretName purpose, db.workspaceLeases.rows.countP (fun lease =>
      lease.workspaceId = workspaceId && lease.secretName = secretName &&
        lease.purpose = purpose && !lease.state.isClosed) ≤ 2) ∧
    (∀ id row, db.workspaces.get? id = some row → row.state = .ready →
      ∀ lease ∈ db.workspaceLeases.rows, lease.workspaceId = id → lease.purpose = .setupIssuer →
        lease.state = .revoked ∨ lease.state = .expired) ∧
    (∀ id ∈ db.workspaceLeaseFences, id ∈ db'.workspaceLeaseFences) ∧
    ∀ id lease, db.workspaceLeases.get? id = some lease →
      lease.state = .revoked ∨ lease.state = .expired →
      ∃ lease', db'.workspaceLeases.get? id = some lease' ∧ lease'.state = lease.state := by
  have hdb : db.Fenced := (keeps_of_run hrun).fenced (hunused.fenced hleases)
  have hkeeps := keeps_of_run hlater
  refine ⟨fun lease hlease hfenced => ?_, fun id row hrow hstops => ?_,
    fun id row hrow hterminal lease hlease hid => ?_, hdb.limit,
    fun id row hrow hready lease hlease hid hpurpose => ?_, fun id hid => hkeeps.fences hid,
    fun id lease hlease hclosed => ?_⟩
  · exact LeaseState.ends_iff.mp (hdb.closing hlease hfenced)
  · exact hdb.stopped hrow (stops_iff.mpr hstops)
  · exact LeaseState.isClosed_iff.mp (hdb.terminal hrow hterminal hlease hid)
  · exact LeaseState.isClosed_iff.mp (hdb.setup hrow hready hlease hid hpurpose)
  · exact hkeeps.closed hlease (LeaseState.isClosed_iff.mpr hclosed)

/-! ### An issuer that answers late -/

theorem run_transact (operations : List Operation) (db : Store) :
    Run Transacts db operations (operations.foldl transact db) := by
  induction operations generalizing db with
  | nil => exact .nil db
  | cons operation operations ih => exact .cons rfl (ih _)

def leasedInsert : WorkspaceInsert :=
  { sampleInsert with
    templateSnapshot := { sampleInsert.templateSnapshot with runtimeCredentials := ["token"] } }

def sampleClaim : WorkspaceAdmissionClaim where
  workspaceId := "workspace"
  now := 1
  registrationDigest := []
  registrationExpiresAt := 50
  limits :=
    { globalActiveWorkspaces := 1, perPrincipalActiveWorkspaces := 1
      perTemplateActiveWorkspaces := [] }

def sampleLease : WorkspaceLeaseRequest where
  workspaceId := "workspace"
  secretName := "token"
  secretVersionId := "version"
  purpose := .runtimeIssuer
  policyDigest := "policy"
  requestId := "request"
  now := 2

/-- A lease is requested, and its workspace is fenced before the issuer
answers. -/
def fencedRun : List Operation :=
  [.writeSecret true "token" (.issuer .runtimeIssuer) "version", .insertWorkspace leasedInsert none,
    .claimWorkspaceAdmission sampleClaim, .requestWorkspaceLease "lease" sampleLease,
    .fenceWorkspaceLeases "workspace",
    .recordWorkspaceLeaseIssued "lease" "issuer" 60 16 3]

def fencedStore : Store := fencedRun.foldl transact emptyStore

/-- The answer comes in, and the lease is still revoking; once it is revoked
it stays so. -/
theorem leases_fenced_late :
    (∃ lease ∈ fencedStore.workspaceLeases.rows, lease.issuerLeaseId = some "issuer" ∧
      (lease.state = .revoking ∨ lease.state = .revoked ∨ lease.state = .expired)) ∧
    ∀ later db', Run Transacts
      (transact fencedStore (.recordWorkspaceLeaseRevoked "lease" "request" 4)) later db' →
      ∃ lease', db'.workspaceLeases.get? "lease" = some lease' ∧ lease'.state = .revoked := by
  have hrun : Run Transacts emptyStore fencedRun fencedStore := run_transact _ _
  constructor
  · obtain ⟨hclosing, -⟩ := leases_fenced ⟨rfl, rfl, rfl⟩ rfl hrun (.nil _)
    have hmem : ∃ lease ∈ fencedStore.workspaceLeases.rows, lease.issuerLeaseId = some "issuer" ∧
        lease.workspaceId ∈ fencedStore.workspaceLeaseFences :=
      ⟨_, List.mem_cons_self, rfl, List.mem_cons_self⟩
    obtain ⟨lease, hlease, hissuer, hfenced⟩ := hmem
    exact ⟨lease, hlease, hissuer, hclosing lease hlease hfenced⟩
  · intro later db' hlater
    obtain ⟨-, -, -, -, -, -, hfinal⟩ :=
      leases_fenced ⟨rfl, rfl, rfl⟩ rfl (hrun.append (.single rfl)) hlater
    exact hfinal "lease" _ rfl (.inl rfl)

end PocketCoder.Workspaces.Lifecycle
