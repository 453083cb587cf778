import PocketCoder.Auth.Administration
import PocketCoder.Foundation.Transitions

/-!
No key gives more than the key it descends from. A session is a sequence of
administrative calls by one root key and the keys issued in the session.

The invariant is about the lists, not about single calls: what a key may use
is within what its principal has, and every principal that the session edits
or creates ends within the authority of the caller, so the bound of the root
survives later edits and chains of keys of any length.
-/

namespace PocketCoder.Auth

open PocketCoder.Foundation
open PocketCoder.Foundation.Transaction

/-! ### Sessions -/

inductive Call where
  | issueMachineKey (input : MachineKeyRow) (actorKeyId : String) (now : Nat)
  | createManagedPrincipal (actorKeyId id name : String) (scopes templateNames : List String)
      (now : Nat)
  | updateManagedPrincipal (actorKeyId id : String) (patch : PrincipalPatch) (now : Nat)

def Call.actorKeyId : Call → String
  | .issueMachineKey _ actorKeyId _ => actorKeyId
  | .createManagedPrincipal actorKeyId _ _ _ _ _ => actorKeyId
  | .updateManagedPrincipal actorKeyId _ _ _ => actorKeyId

structure Session where
  tables : AuthTables
  /-- The keys issued so far. -/
  issued : List String

def perform (session : Session) : Call → Session
  | .issueMachineKey input actorKeyId now =>
      match issueMachineKey input (some actorKeyId) now session.tables with
      | .error _ => session
      | .ok (result, tables) =>
          ⟨tables, if result.created then result.key.id :: session.issued else session.issued⟩
  | .createManagedPrincipal actorKeyId id name scopes templateNames now =>
      { session with
        tables := committed (createManagedPrincipal actorKeyId id name scopes templateNames now)
          session.tables }
  | .updateManagedPrincipal actorKeyId id patch now =>
      { session with
        tables := committed (updateManagedPrincipal actorKeyId id patch now) session.tables }

/-- A call by the root key or a key issued before. -/
def Acts (root : String) (session : Session) (call : Call) (session' : Session) : Prop :=
  (call.actorKeyId = root ∨ call.actorKeyId ∈ session.issued) ∧ session' = perform session call

/-! ### What the checks establish -/

theorem lockKeyAuthority_eq_ok {tables : AuthTables} {keyId : String} {now : Nat}
    {authority : KeyAuthority} {key : MachineKeyRow}
    (h : lockKeyAuthority tables keyId now = .ok (authority, key)) :
    tables.machineKeys.get? keyId = some key ∧
      ∃ caller, tables.principals.get? key.principalId = some caller ∧
        keyAuthority caller key now = .ok authority := by
  unfold lockKeyAuthority at h
  cases hkey : tables.machineKeys.get? keyId with
  | none =>
      rw [hkey] at h
      exact (nomatch h)
  | some row =>
      rw [hkey] at h
      dsimp only at h
      cases hcaller : tables.principals.get? row.principalId with
      | none =>
          rw [hcaller] at h
          exact (nomatch h)
      | some caller =>
          rw [hcaller] at h
          obtain ⟨found, hfound, h⟩ := Except.bind_eq_ok.mp h
          obtain ⟨rfl, rfl⟩ := Prod.mk.inj (Except.ok.inj h)
          exact ⟨rfl, caller, hcaller, hfound⟩

/-- Expiry: a limit is kept. -/
def LivesWithin (expiresAt limit : Option Nat) : Prop :=
  ∀ last, limit = some last → ∃ time, expiresAt = some time ∧ time ≤ last

theorem LivesWithin.trans {expiresAt limit limit' : Option Nat} (h : LivesWithin expiresAt limit)
    (h' : LivesWithin limit limit') : LivesWithin expiresAt limit' := by
  intro last hlast
  obtain ⟨middle, hmiddle, hle⟩ := h' last hlast
  obtain ⟨time, htime, hle'⟩ := h middle hmiddle
  exact ⟨time, htime, Nat.le_trans hle' hle⟩

/-- The target of an issuance is within the authority of the caller, unless
the caller is an owner or was delegated a target without administration. -/
structure Issuable (authority : KeyAuthority) (caller : MachineKeyRow) (target : PrincipalRow)
    (request : KeyRequest) : Prop where
  lifetime : LivesWithin request.expiresAt authority.expiresAt
  delegated : "admin" ∉ authority.scopes → target.id ∈ caller.managedPrincipalIds →
    ∀ scope ∈ target.scopes, scope ∉ ADMINISTRATION_SCOPES
  within : "admin" ∉ authority.scopes → target.id ∉ caller.managedPrincipalIds →
    target.grants.Within authority.grants
  templateNames :
    Within "*" (request.templateNames.getD target.templateNames) authority.templateNames
  managed : request.managedPrincipalIds ≠ [] → "admin" ∈ authority.scopes

theorem assertKeyIssueAuthority_eq_ok {authority : KeyAuthority} {caller : MachineKeyRow}
    {target : PrincipalRow} {request : KeyRequest} {u : Unit}
    (h : assertKeyIssueAuthority authority caller target request = .ok u) :
    Issuable authority caller target request := by
  unfold assertKeyIssueAuthority at h
  dsimp only at h
  obtain ⟨_, -, h⟩ := Except.bind_eq_ok.mp h
  obtain ⟨_, hexpiry, h⟩ := Except.bind_eq_ok.mp h
  obtain ⟨_, hdelegated, h⟩ := Except.bind_eq_ok.mp h
  obtain ⟨_, hwithin, h⟩ := Except.bind_eq_ok.mp h
  obtain ⟨_, -, h⟩ := Except.bind_eq_ok.mp h
  obtain ⟨_, -, h⟩ := Except.bind_eq_ok.mp h
  obtain ⟨_, htemplates, hmanaged⟩ := Except.bind_eq_ok.mp h
  rw [require_eq_ok] at hexpiry hdelegated hmanaged
  refine ⟨?_, ?_, ?_, ?_, ?_⟩
  · intro last hlast
    rw [Option.any_eq_true] at hexpiry
    obtain ⟨time, htime, hle⟩ := hexpiry
    rw [hlast] at hle
    exact ⟨time, htime, by simpa using hle⟩
  · intro hadmin htarget scope hscope hadministration
    simp [hadmin, htarget] at hdelegated
    exact hdelegated scope hscope hadministration
  · intro hadmin htarget
    rw [if_pos (by simp [hadmin, htarget])] at hwithin
    exact principalWithinAuthority_eq_true.mp (require_eq_ok.mp hwithin)
  · have hgrants := principalWithinAuthority_eq_true.mp (require_eq_ok.mp htemplates)
    exact hgrants.templateNames
  · intro hrequest
    by_contra hadmin
    simp [hadmin, hrequest] at hmanaged

theorem lockedPrincipal_eq_ok {tables : AuthTables} {input : MachineKeyRow} {actorKeyId : String}
    {now : Nat} {principal : PrincipalRow}
    (h : lockedPrincipal tables input (some actorKeyId) now = .ok principal) :
    tables.principals.get? input.principalId = some principal ∧
      ∃ authority caller, lockKeyAuthority tables actorKeyId now = .ok (authority, caller) ∧
        Issuable authority caller principal
          { scopes := input.scopes
            templateNames := some (input.templateNames.getD principal.templateNames)
            expiresAt := input.expiresAt
            managedPrincipalIds := input.managedPrincipalIds } := by
  unfold lockedPrincipal at h
  obtain ⟨actor, hactor, h⟩ := Except.bind_eq_ok.mp h
  obtain ⟨⟨authority, caller⟩, hlock, hsome⟩ : ∃ pair,
      lockKeyAuthority tables actorKeyId now = .ok pair ∧ some pair = actor := by
    have hmap : (some actorKeyId).mapM (fun keyId => lockKeyAuthority tables keyId now) =
        some <$> lockKeyAuthority tables actorKeyId now := rfl
    rw [hmap] at hactor
    cases hlock : lockKeyAuthority tables actorKeyId now with
    | error e =>
        rw [hlock] at hactor
        exact (nomatch hactor)
    | ok pair =>
        rw [hlock] at hactor
        exact ⟨pair, rfl, Except.ok.inj hactor⟩
  subst hsome
  cases hprincipal : tables.principals.get? input.principalId with
  | none =>
      rw [hprincipal] at h
      exact (nomatch h)
  | some target =>
      rw [hprincipal] at h
      obtain ⟨_, -, h⟩ := Except.bind_eq_ok.mp h
      obtain ⟨_, hissue, h⟩ := Except.bind_eq_ok.mp h
      obtain rfl := Except.ok.inj h
      exact ⟨rfl, authority, caller, hlock, assertKeyIssueAuthority_eq_ok hissue⟩

/-- An issuance returns a key of the target and adds at most that key. -/
theorem issueMachineKey_eq_ok {tables tables' : AuthTables} {input : MachineKeyRow}
    {actorKeyId : Option String} {now : Nat} {result : IssueResult}
    (h : issueMachineKey input actorKeyId now tables = .ok (result, tables')) :
    lockedPrincipal tables input actorKeyId now = .ok result.principal ∧
      ((result.created = false ∧ result.key.principalId = input.principalId ∧ tables' = tables) ∨
        (result.created = true ∧ result.key = input ∧ tables.machineKeys.get? input.id = none ∧
          tables' = { tables with machineKeys := tables.machineKeys.insert input })) := by
  rw [issueMachineKey, get_bind, check_bind_eq_ok] at h
  obtain ⟨principal, hprincipal, h⟩ := h
  generalize hexisting : (input.issuanceRequestId.bind fun requestId =>
    tables.machineKeys.rows.find? fun key =>
      key.principalId = input.principalId && key.issuanceRequestId = some requestId) = existing at h
  cases existing with
  | some existing =>
      obtain ⟨rfl, rfl⟩ := pure_eq_ok.mp h
      refine ⟨hprincipal, .inl ⟨rfl, ?_, rfl⟩⟩
      obtain ⟨requestId, -, hfind⟩ := Option.bind_eq_some_iff.mp hexisting
      have hfound := List.find?_some hfind
      simp only [Bool.and_eq_true, decide_eq_true_eq] at hfound
      exact hfound.1
  | none =>
      rw [check_bind_eq_ok] at h
      obtain ⟨_, -, h⟩ := h
      rw [require_bind_eq_ok] at h
      obtain ⟨hfresh, h⟩ := h
      rw [set_bind] at h
      obtain ⟨rfl, rfl⟩ := pure_eq_ok.mp h
      exact ⟨hprincipal, .inr ⟨rfl, rfl, Option.isNone_iff_eq_none.mp hfresh, rfl⟩⟩

/-- A created principal is new and within the authority of the caller. -/
theorem createManagedPrincipal_eq_ok {tables tables' : AuthTables} {actorKeyId id name : String}
    {scopes templateNames : List String} {now : Nat} {row : PrincipalRow}
    (h : createManagedPrincipal actorKeyId id name scopes templateNames now tables =
      .ok (row, tables')) :
    ∃ authority caller, lockKeyAuthority tables actorKeyId now = .ok (authority, caller) ∧
      row.grants.Within authority.grants ∧
      tables' = { tables with principals := tables.principals.insert row } := by
  rw [createManagedPrincipal, get_bind, check_bind_eq_ok] at h
  obtain ⟨⟨authority, caller⟩, hlock, h⟩ := h
  rw [check_bind_eq_ok] at h
  obtain ⟨_, -, h⟩ := h
  rw [check_bind_eq_ok] at h
  obtain ⟨_, hwithin, h⟩ := h
  rw [require_bind_eq_ok] at h
  obtain ⟨-, h⟩ := h
  rw [require_bind_eq_ok] at h
  obtain ⟨-, h⟩ := h
  rw [set_bind] at h
  obtain ⟨rfl, rfl⟩ := pure_eq_ok.mp h
  exact ⟨authority, caller, hlock,
    principalWithinAuthority_eq_true.mp (require_eq_ok.mp hwithin), rfl⟩

/-- A change is for an existing principal and ends within the authority of
the caller. -/
theorem managedChange_eq_ok {tables : AuthTables} {actorKeyId id : String}
    {patch : PrincipalPatch} {now : Nat} {change : PrincipalChange}
    (h : managedChange tables actorKeyId id patch now = .ok change) :
    ∃ authority caller, lockKeyAuthority tables actorKeyId now = .ok (authority, caller) ∧
      Grants.Within ⟨change.scopes, change.templateNames⟩ authority.grants := by
  unfold managedChange at h
  obtain ⟨⟨authority, caller⟩, hlock, h⟩ := Except.bind_eq_ok.mp h
  obtain ⟨_, -, h⟩ := Except.bind_eq_ok.mp h
  cases htarget : tables.principals.get? id with
  | none =>
      rw [htarget] at h
      exact (nomatch h)
  | some target =>
      rw [htarget] at h
      obtain ⟨_, -, h⟩ := Except.bind_eq_ok.mp h
      obtain ⟨_, -, h⟩ := Except.bind_eq_ok.mp h
      obtain ⟨_, hwithin, h⟩ := Except.bind_eq_ok.mp h
      obtain rfl := Except.ok.inj h
      exact ⟨authority, caller, hlock,
        principalWithinAuthority_eq_true.mp (require_eq_ok.mp hwithin)⟩

/-! ### The bound of the root -/

/-- The key, with the principal it has, stays within an authority. -/
structure KeyBounded (bound : KeyAuthority) (tables : AuthTables) (key : MachineKeyRow) :
    Prop where
  grants : ∀ principal, tables.principals.get? key.principalId = some principal →
    (keyGrants principal key).Within bound.grants
  lifetime : LivesWithin key.expiresAt bound.expiresAt
  managed : key.managedPrincipalIds ≠ [] → "admin" ∈ bound.scopes

/-- The keys that may act: the root and the issued ones. -/
def Session.Acting (root : String) (session : Session) (id : String) : Prop :=
  id = root ∨ id ∈ session.issued

/-- Every key that may act is within the bound. -/
def Session.Bounded (bound : KeyAuthority) (root : String) (session : Session) : Prop :=
  ∀ id key, session.Acting root id → session.tables.machineKeys.get? id = some key →
    KeyBounded bound session.tables key

/-- The authority of a caller is within the bound. -/
theorem Session.Bounded.caller {bound : KeyAuthority} {root : String} {session : Session}
    (h : session.Bounded bound root) {keyId : String} (hkey : session.Acting root keyId)
    {now : Nat} {authority : KeyAuthority} {caller : MachineKeyRow}
    (hlock : lockKeyAuthority session.tables keyId now = .ok (authority, caller)) :
    authority.grants.Within bound.grants ∧ LivesWithin authority.expiresAt bound.expiresAt ∧
      (caller.managedPrincipalIds ≠ [] → "admin" ∈ bound.scopes) := by
  obtain ⟨hcaller, principal, hprincipal, hauthority⟩ := lockKeyAuthority_eq_ok hlock
  obtain ⟨-, hgrants, hexpires⟩ := keyAuthority_eq_ok hauthority
  obtain ⟨hwithin, hlife, hmanaged⟩ := h keyId caller hkey hcaller
  rw [hgrants, hexpires]
  exact ⟨hwithin principal hprincipal, hlife, hmanaged⟩

/-- A key that the caller may issue is within the bound of the caller. -/
theorem Issuable.within_bound {bound authority : KeyAuthority} {caller input : MachineKeyRow}
    {target : PrincipalRow}
    (h : Issuable authority caller target
      { scopes := input.scopes
        templateNames := some (input.templateNames.getD target.templateNames)
        expiresAt := input.expiresAt
        managedPrincipalIds := input.managedPrincipalIds })
    (hgrants : authority.grants.Within bound.grants)
    (hcaller : caller.managedPrincipalIds ≠ [] → "admin" ∈ bound.scopes) :
    (keyGrants target input).Within bound.grants := by
  constructor
  · by_cases hadmin : "admin" ∈ authority.scopes
    · exact .of_wildcard (hgrants.scopes.wildcard_mem hadmin)
    by_cases hdelegated : target.id ∈ caller.managedPrincipalIds
    · exact .of_wildcard (hcaller (List.ne_nil_of_mem hdelegated))
    · exact (keyGrants_within target input).scopes.trans
        ((h.within hadmin hdelegated).scopes.trans hgrants.scopes)
  · have htemplates := h.templateNames
    cases hlist : input.templateNames with
    | none =>
        rw [hlist] at htemplates
        exact (keyGrants_within target input).templateNames.trans
          (htemplates.trans hgrants.templateNames)
    | some templateNames =>
        rw [hlist] at htemplates
        exact (keyGrants_templates hlist).trans (htemplates.trans hgrants.templateNames)

theorem Session.Bounded.issue {bound : KeyAuthority} {root : String} {session : Session}
    (h : session.Bounded bound root) {input : MachineKeyRow} {actorKeyId : String} {now : Nat}
    (hactor : session.Acting root actorKeyId) {result : IssueResult} {tables : AuthTables}
    (hissue : issueMachineKey input (some actorKeyId) now session.tables = .ok (result, tables)) :
    Session.Bounded bound root
      ⟨tables, if result.created then result.key.id :: session.issued else session.issued⟩ := by
  obtain ⟨hprincipal, ⟨hcreated, -, rfl⟩ | ⟨hcreated, hresult, hfresh, rfl⟩⟩ :=
    issueMachineKey_eq_ok hissue
  · rw [hcreated]
    exact h
  · obtain ⟨htarget, authority, caller, hlock, hissuable⟩ := lockedPrincipal_eq_ok hprincipal
    obtain ⟨hgrants, hlife, hmanaged⟩ := h.caller hactor hlock
    intro id key hid hkey
    rw [Session.Acting, hcreated, if_pos rfl, hresult] at hid
    rw [Table.get?_insert] at hkey
    by_cases hnew : input.id = id
    · subst hnew
      rw [hfresh, Option.none_or, if_pos rfl, Option.some.injEq] at hkey
      subst hkey
      refine ⟨fun principal hrow => ?_, hissuable.lifetime.trans hlife, fun hkeyManaged => ?_⟩
      · obtain rfl := Option.some.inj (htarget.symm.trans hrow)
        exact hissuable.within_bound hgrants hmanaged
      · exact hgrants.scopes.wildcard_mem (hissuable.managed hkeyManaged)
    · rw [if_neg hnew, Option.or_none] at hkey
      have hacting : session.Acting root id := by
        rcases hid with hroot | hid
        · exact .inl hroot
        · exact .inr ((List.mem_cons.mp hid).resolve_left fun heq => hnew heq.symm)
      obtain ⟨hold, hlifetime, hbefore⟩ := h id key hacting hkey
      exact ⟨hold, hlifetime, hbefore⟩

/-- The principals change, each one kept or within the bound, and the keys
keep their lists. -/
theorem Session.Bounded.withTables {bound : KeyAuthority} {root : String} {session : Session}
    (h : session.Bounded bound root) {tables : AuthTables}
    (hprincipals : ∀ id principal, tables.principals.get? id = some principal →
      session.tables.principals.get? id = some principal ∨ principal.grants.Within bound.grants)
    (hkeys : ∀ id key, tables.machineKeys.get? id = some key →
      ∃ before, session.tables.machineKeys.get? id = some before ∧
        ∃ revokedAt, key = { before with revokedAt }) :
    Session.Bounded bound root { session with tables } := by
  intro id key hid hkey
  obtain ⟨before, hbefore, revokedAt, rfl⟩ := hkeys id key hkey
  obtain ⟨hgrants, hlife, hmanaged⟩ := h id before hid hbefore
  refine ⟨fun principal hprincipal => ?_, hlife, hmanaged⟩
  rcases hprincipals _ principal hprincipal with hsame | hwithin
  · exact hgrants principal hsame
  · exact (keyGrants_within principal _).trans hwithin

theorem get?_revokeKeyIds {tables : AuthTables} {ids : List String} {time : Nat} {id : String}
    {key : MachineKeyRow}
    (h : (revokeKeyIds tables ids time).machineKeys.get? id = some key) :
    ∃ before, tables.machineKeys.get? id = some before ∧
      ∃ revokedAt, key = { before with revokedAt } := by
  rw [revokeKeyIds, Table.get?_update, Option.map_eq_some_iff] at h
  obtain ⟨before, hbefore, rfl⟩ := h
  refine ⟨before, hbefore, ?_⟩
  unfold revokedKey
  split_ifs
  · exact ⟨_, rfl⟩
  · exact ⟨before.revokedAt, rfl⟩

theorem perform_bounded {bound : KeyAuthority} {root : String} {session session' : Session}
    {call : Call} (hacts : Acts root session call session') (h : session.Bounded bound root) :
    session'.Bounded bound root := by
  obtain ⟨hactor, rfl⟩ := hacts
  cases call with
  | issueMachineKey input actorKeyId now =>
      unfold perform
      dsimp only
      split
      · exact h
      · rename_i result tables hissue
        exact h.issue hactor hissue
  | createManagedPrincipal actorKeyId id name scopes templateNames now =>
      refine committed_of (P := fun tables => Session.Bounded bound root { session with tables }) h ?_
      intro row tables hcreate
      obtain ⟨authority, caller, hlock, hwithin, rfl⟩ := createManagedPrincipal_eq_ok hcreate
      obtain ⟨hgrants, -, -⟩ := h.caller hactor hlock
      refine h.withTables (fun other principal hprincipal => ?_) fun other key hkey =>
        ⟨key, hkey, key.revokedAt, rfl⟩
      rw [Table.get?_insert] at hprincipal
      -- the new principal is within its caller, who is within the root
      rcases Option.or_eq_some_iff.mp hprincipal with hsame | ⟨-, hnew⟩
      · exact .inl hsame
      · split_ifs at hnew
        obtain rfl := Option.some.inj hnew
        exact .inr (hwithin.trans hgrants)
  | updateManagedPrincipal actorKeyId id patch now =>
      refine committed_of (P := fun tables => Session.Bounded bound root { session with tables }) h ?_
      intro u tables hupdate
      rw [updateManagedPrincipal, get_bind, check_bind_eq_ok] at hupdate
      obtain ⟨change, hchange, hset⟩ := hupdate
      obtain ⟨-, rfl⟩ := set_eq_ok.mp hset
      obtain ⟨authority, caller, hlock, hwithin⟩ := managedChange_eq_ok hchange
      obtain ⟨hgrants, -, -⟩ := h.caller hactor hlock
      refine h.withTables (fun other principal hprincipal => ?_) fun other key hkey =>
        get?_revokeKeyIds hkey
      have hupdated : (session.tables.principals.updateAt change.target.id change.row
          change.row_id).get? other = some principal := hprincipal
      rw [Table.get?_updateAt] at hupdated
      split_ifs at hupdated
      -- what is written to the target is within the caller as well
      · obtain ⟨before, -, rfl⟩ := Option.map_eq_some_iff.mp hupdated
        exact .inr (hwithin.trans hgrants)
      · exact .inl hupdated

/-! ### Delegated issuance -/

/-- Some scope is one of administration. -/
def Administrative (scopes : List String) : Prop := ∃ scope ∈ scopes, scope ∈ ADMINISTRATION_SCOPES

/-- A key is administrative only while its principal is. -/
theorem administrative_of_keyAuthority {principal : PrincipalRow} {key : MachineKeyRow}
    {now : Nat} {authority : KeyAuthority} (h : keyAuthority principal key now = .ok authority)
    (hscopes : Administrative authority.scopes) : Administrative principal.scopes := by
  obtain ⟨-, hgrants, -⟩ := keyAuthority_eq_ok h
  obtain ⟨scope, hscope, hadministration⟩ := hscopes
  have heffective : scope ∈ (keyGrants principal key).scopes := by
    rw [← hgrants]
    exact hscope
  rcases (keyGrants_within principal key).scopes scope heffective with hadmin | hmem
  · exact ⟨"admin", hadmin, by decide⟩
  · exact ⟨scope, hmem, hadministration⟩

/-- A delegated key is issued for a principal without administration. -/
theorem delegated_target {tables tables' : AuthTables} {input : MachineKeyRow}
    {actorKeyId : String} {now : Nat} {authority : KeyAuthority} {actor : MachineKeyRow}
    {result : IssueResult} (hlock : lockKeyAuthority tables actorKeyId now = .ok (authority, actor))
    (hadmin : "admin" ∉ authority.scopes)
    (hdelegated : input.principalId ∈ actor.managedPrincipalIds)
    (hissue : issueMachineKey input (some actorKeyId) now tables = .ok (result, tables')) :
    ¬ Administrative result.principal.scopes := by
  obtain ⟨hprincipal, -⟩ := issueMachineKey_eq_ok hissue
  obtain ⟨htarget, authority', actor', hlock', hissuable⟩ := lockedPrincipal_eq_ok hprincipal
  obtain ⟨rfl, rfl⟩ := Prod.mk.inj (Except.ok.inj (hlock.symm.trans hlock'))
  rw [← Table.key_of_get? htarget] at hdelegated
  rintro ⟨scope, hscope, hadministration⟩
  exact hissuable.delegated hadmin hdelegated scope hscope hadministration

/-- No key issued in a session of an undelegated root gives more than the
root gave at its start, and no delegated issuance gives administration. -/
theorem issued_within_root {tables : AuthTables} {root : String} {rootKey : MachineKeyRow}
    {owner : PrincipalRow} {start : Nat} {bound : KeyAuthority} {calls : List Call}
    {session : Session} (hkey : tables.machineKeys.get? root = some rootKey)
    (howner : tables.principals.get? rootKey.principalId = some owner)
    (hroot : rootKey.managedPrincipalIds = [])
    (hbound : keyAuthority owner rootKey start = .ok bound)
    (hrun : Run (Acts root) ⟨tables, []⟩ calls session) :
    (∀ id ∈ session.issued, ∀ key principal now authority,
      session.tables.machineKeys.get? id = some key →
      session.tables.principals.get? key.principalId = some principal →
      keyAuthority principal key now = .ok authority →
      authority.grants.Within bound.grants ∧ LivesWithin authority.expiresAt bound.expiresAt) ∧
    ∀ (store store' : AuthTables) (input actor : MachineKeyRow) (actorKeyId : String)
      (time : Nat) (authority : KeyAuthority) (result : IssueResult),
      lockKeyAuthority store actorKeyId time = .ok (authority, actor) →
      "admin" ∉ authority.scopes → input.principalId ∈ actor.managedPrincipalIds →
      issueMachineKey input (some actorKeyId) time store = .ok (result, store') →
      (∀ now obtained, keyAuthority result.principal result.key now = .ok obtained →
        ¬ Administrative obtained.scopes) ∧
      ∀ principal now obtained, keyAuthority principal result.key now = .ok obtained →
        Administrative obtained.scopes → Administrative principal.scopes := by
  obtain ⟨-, hgrants, hexpires⟩ := keyAuthority_eq_ok hbound
  -- at the start the root is the only key of the session
  have hstart : Session.Bounded bound root ⟨tables, []⟩ := by
    intro id key hid hid'
    obtain rfl : id = root := hid.resolve_right List.not_mem_nil
    obtain rfl := Option.some.inj (hkey.symm.trans hid')
    refine ⟨fun principal hprincipal => ?_, fun last hlast => ?_, fun hmanaged => ?_⟩
    · obtain rfl := Option.some.inj (howner.symm.trans hprincipal)
      rw [hgrants]
      exact .refl _
    · exact ⟨last, hexpires ▸ hlast, Nat.le_refl last⟩
    · exact absurd hroot hmanaged
  have hbounded := hrun.invariant perform_bounded hstart
  refine ⟨?_, ?_⟩
  · intro id hid key principal now authority hid' hprincipal hauthority
    obtain ⟨hwithin, hlife, -⟩ := hbounded id key (.inr hid) hid'
    obtain ⟨-, hkeyGrants, hkeyExpires⟩ := keyAuthority_eq_ok hauthority
    rw [hkeyGrants, hkeyExpires]
    exact ⟨hwithin principal hprincipal, hlife⟩
  · intro store store' input actor actorKeyId time authority result hlock hadmin hdelegated hissue
    refine ⟨fun now obtained hobtained hadministrative => ?_, fun principal now obtained =>
      administrative_of_keyAuthority⟩
    exact delegated_target hlock hadmin hdelegated hissue
      (administrative_of_keyAuthority hobtained hadministrative)

/-! ### A session -/

def sampleOwner : PrincipalRow where
  id := "owner"
  name := "owner"
  scopes := ["keys:write", "principals:admin", "logs:read"]
  templateNames := ["web"]
  disabledAt := none

/-- A key that inherits everything from its principal and expires at 10. -/
def sampleKey (id principalId : String) (expiresAt : Nat) : MachineKeyRow where
  id := id
  principalId := principalId
  scopes := []
  templateNames := none
  expiresAt := some expiresAt
  revokedAt := none
  issuanceRequestId := none
  issuanceRequestDigest := none
  managedPrincipalIds := []

def sampleTables : AuthTables where
  principals := ⟨[sampleOwner], by simp⟩
  machineKeys := ⟨[sampleKey "root" "owner" 10], by simp⟩

def sampleCalls : List Call :=
  [.createManagedPrincipal "root" "reader" "reader" ["logs:read"] [] 1,
    .issueMachineKey (sampleKey "key" "reader" 5) "root" 2,
    .updateManagedPrincipal "root" "reader" ⟨none, some ["web"], none⟩ 3]

def sampleReader : PrincipalRow where
  id := "reader"
  name := "reader"
  scopes := ["logs:read"]
  templateNames := ["web"]
  disabledAt := none

/-- A key to which the reader is delegated. -/
def delegateKey : MachineKeyRow :=
  { sampleKey "delegate" "owner" 10 with managedPrincipalIds := ["reader"] }

def delegatedTables : AuthTables where
  principals := ⟨[sampleOwner, sampleReader], by simp [sampleOwner, sampleReader]⟩
  machineKeys := ⟨[delegateKey], by simp⟩

/-- The key of a created principal, after that principal was given a template;
and a delegated key of a reader, which cannot administrate. -/
theorem issued_within_root_sample :
    ∃ session, Run (Acts "root") ⟨sampleTables, []⟩ sampleCalls session ∧
      session.issued = ["key"] ∧
      (∃ principal, session.tables.principals.get? "reader" = some principal ∧
        ∃ authority, keyAuthority principal (sampleKey "key" "reader" 5) 4 = .ok authority ∧
          authority.templateNames = ["web"] ∧
          authority.grants.Within ⟨sampleOwner.scopes, sampleOwner.templateNames⟩) ∧
      ∃ result tables, issueMachineKey (sampleKey "key" "reader" 5) (some "delegate") 2
          delegatedTables = .ok (result, tables) ∧ result.created = true ∧
        ∃ authority, keyAuthority result.principal result.key 4 = .ok authority ∧
          authority.scopes = ["logs:read"] ∧ ¬Administrative authority.scopes := by
  have hrun : ∃ session, Run (Acts "root") ⟨sampleTables, []⟩ sampleCalls session ∧
      session.issued = ["key"] ∧
      session.tables.machineKeys.get? "key" = some (sampleKey "key" "reader" 5) ∧
      session.tables.principals.get? "reader" =
        some ⟨"reader", "reader", ["logs:read"], ["web"], none⟩ :=
    ⟨_, .cons ⟨.inl rfl, rfl⟩ (.cons ⟨.inl rfl, rfl⟩ (.cons ⟨.inl rfl, rfl⟩ (.nil _))),
      rfl, rfl, rfl⟩
  obtain ⟨session, hrun, hissued, hkey, hprincipal⟩ := hrun
  have hmem : "key" ∈ session.issued := by
    rw [hissued]
    exact List.mem_singleton_self _
  have hkey₀ : sampleTables.machineKeys.get? "root" = some (sampleKey "root" "owner" 10) := rfl
  have howner : sampleTables.principals.get? "owner" = some sampleOwner := rfl
  have hbound : keyAuthority sampleOwner (sampleKey "root" "owner" 10) 0 =
      .ok ⟨"owner", sampleOwner.scopes, sampleOwner.templateNames, some 10⟩ := rfl
  obtain ⟨hwithin, hdelegated⟩ := issued_within_root hkey₀ howner rfl hbound hrun
  have hlock : lockKeyAuthority delegatedTables "delegate" 2 =
      .ok (⟨"owner", sampleOwner.scopes, sampleOwner.templateNames, some 10⟩, delegateKey) := rfl
  have hissue : issueMachineKey (sampleKey "key" "reader" 5) (some "delegate") 2 delegatedTables =
      .ok (⟨sampleKey "key" "reader" 5, sampleReader, true, false⟩,
        { delegatedTables with
          machineKeys := delegatedTables.machineKeys.insert (sampleKey "key" "reader" 5) }) := rfl
  refine ⟨session, hrun, hissued, ⟨_, hprincipal, _, rfl, rfl, ?_⟩, _, _, hissue, rfl, _, rfl, rfl, ?_⟩
  · exact (hwithin "key" hmem _ _ 4 _ hkey hprincipal rfl).1
  · exact (hdelegated _ _ _ _ _ 2 _ _ hlock (by decide) (by decide) hissue).1 4 _ rfl

end PocketCoder.Auth
