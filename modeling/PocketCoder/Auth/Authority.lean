import PocketCoder.Foundation.Grants
import PocketCoder.Foundation.Table
import PocketCoder.Foundation.Transaction

/-!
Principals, machine keys and the authority of a key
(`runtime-core/src/keys/principal-authority.ts`).

The authority of a key is not stored. It is computed from the lists of the
key and the lists that its principal has at that moment: a key without
scopes inherits the scopes of its principal, a key without a template list
its templates.
-/

namespace PocketCoder.Auth

open PocketCoder.Foundation
open PocketCoder.Foundation.Transaction (require)

/-! ### Rows -/

structure PrincipalRow where
  id : String
  name : String
  scopes : List String
  templateNames : List String
  disabledAt : Option Nat
  deriving DecidableEq

structure MachineKeyRow where
  id : String
  principalId : String
  /-- Empty means inherit the principal's live scopes; non-empty narrows them. -/
  scopes : List String
  /-- Null inherits live principal grants; an empty list permits no templates. -/
  templateNames : Option (List String)
  expiresAt : Option Nat
  revokedAt : Option Nat
  issuanceRequestId : Option String
  issuanceRequestDigest : Option String
  managedPrincipalIds : List String
  deriving DecidableEq

/-- The tables of principals and keys. -/
structure AuthTables where
  principals : Table PrincipalRow.id
  machineKeys : Table MachineKeyRow.id

/-- What a transaction throws. -/
inductive Failure where
  | api (code message : String)
  /-- A constraint of the tables. -/
  | constraint
  deriving DecidableEq

/-! ### Authority of a key -/

def hasScope (granted : List String) (required : String) : Bool :=
  granted.contains required || granted.contains "admin"

def intersectTemplateGrants (principal : List String) : Option (List String) → List String
  | none => principal
  | some key =>
      if principal.contains "*" then key
      else if key.contains "*" then principal
      else key.filter fun name => principal.contains name

structure KeyAuthority where
  principalId : String
  scopes : List String
  templateNames : List String
  expiresAt : Option Nat

/-- The scopes of a key: its own or inherited ones that its principal has. -/
def effectiveScopes (principal : PrincipalRow) (key : MachineKeyRow) : List String :=
  (if key.scopes.length ≠ 0 then key.scopes else principal.scopes).filter fun scope =>
    principal.scopes.contains "admin" || principal.scopes.contains scope

def keyAuthority (principal : PrincipalRow) (key : MachineKeyRow) (now : Nat) :
    Except Failure KeyAuthority := do
  require (!(key.revokedAt.isSome || key.expiresAt.any fun expiresAt => expiresAt ≤ now))
    (.api "auth.invalid_key" "This key is revoked or expired.")
  require principal.disabledAt.isNone
    (.api "auth.disabled_principal" "This principal is disabled.")
  return {
    principalId := principal.id
    scopes := effectiveScopes principal key
    templateNames := intersectTemplateGrants principal.templateNames key.templateNames
    expiresAt := key.expiresAt }

def assertAuthorityScope (authority : KeyAuthority) (scope : String) : Except Failure Unit :=
  require (hasScope authority.scopes scope)
    (.api "auth.missing_scope" ("This operation requires " ++ scope ++ "."))

def principalWithinAuthority (authority : KeyAuthority) (scopes templateNames : List String) :
    Bool :=
  (authority.scopes.contains "admin" ||
      scopes.all fun scope => authority.scopes.contains scope) &&
    templateNames.all fun name =>
      authority.templateNames.contains "*" || authority.templateNames.contains name

def assertPrincipalWithinAuthority (authority : KeyAuthority) (scopes templateNames : List String) :
    Except Failure Unit :=
  require (principalWithinAuthority authority scopes templateNames)
    (.api "auth.missing_scope" "Principal grants exceed the calling key's authority.")

def RECOVERY_SCOPES : List String := ["keys:read", "keys:write", "workspaces:recover"]

def ADMINISTRATION_SCOPES : List String :=
  ["admin", "principals:admin", "secrets:write"] ++ RECOVERY_SCOPES

/-- What a caller asks a key to have. -/
structure KeyRequest where
  scopes : List String
  templateNames : Option (List String)
  expiresAt : Option Nat
  managedPrincipalIds : List String

def assertKeyIssueAuthority (authority : KeyAuthority) (caller : MachineKeyRow)
    (target : PrincipalRow) (request : KeyRequest) : Except Failure Unit := do
  assertAuthorityScope authority "keys:write"
  require (request.expiresAt.any fun requested =>
      !(authority.expiresAt.any fun limit => limit < requested))
    (.api "auth.missing_scope" "Key expiry exceeds the calling key's remaining lifetime.")
  let owner := authority.scopes.contains "admin"
  let delegated := caller.managedPrincipalIds.contains target.id
  require (!(!owner && delegated &&
      target.scopes.any fun scope => ADMINISTRATION_SCOPES.contains scope))
    (.api "auth.missing_scope" "Delegated issuance cannot target administrative authority.")
  (if !owner && !delegated then
      assertPrincipalWithinAuthority authority target.scopes target.templateNames
    else .ok ())
  require (!(!owner && delegated &&
      request.scopes.any fun scope => ADMINISTRATION_SCOPES.contains scope))
    (.api "auth.missing_scope" "Delegated issuance cannot grant administrative authority.")
  require (!(!owner && !delegated &&
      request.scopes.any fun scope => !authority.scopes.contains scope))
    (.api "auth.missing_scope" "Requested scopes exceed the calling key's authority.")
  let templateNames := request.templateNames.getD target.templateNames
  assertPrincipalWithinAuthority { authority with scopes := ["admin"] } [] templateNames
  require (!(request.managedPrincipalIds.length ≠ 0 &&
      (!owner || request.scopes.any fun scope => !RECOVERY_SCOPES.contains scope)))
    (.api "auth.missing_scope" "Only an owner may issue bounded recovery authority.")

/-! ### Containment -/

/-- What a principal or a key may use. -/
structure Grants where
  scopes : List String
  templateNames : List String

/-- `admin` covers every scope, `*` every template name. -/
structure Grants.Within (grants grants' : Grants) : Prop where
  scopes : Foundation.Within "admin" grants.scopes grants'.scopes
  templateNames : Foundation.Within "*" grants.templateNames grants'.templateNames

theorem Grants.Within.refl (grants : Grants) : grants.Within grants := ⟨.refl _, .refl _⟩

theorem Grants.Within.trans {grants grants' grants'' : Grants} (h : grants.Within grants')
    (h' : grants'.Within grants'') : grants.Within grants'' :=
  ⟨h.scopes.trans h'.scopes, h.templateNames.trans h'.templateNames⟩

def KeyAuthority.grants (authority : KeyAuthority) : Grants :=
  ⟨authority.scopes, authority.templateNames⟩

def PrincipalRow.grants (principal : PrincipalRow) : Grants :=
  ⟨principal.scopes, principal.templateNames⟩

/-- What a key may use, whether or not it is usable now. -/
def keyGrants (principal : PrincipalRow) (key : MachineKeyRow) : Grants :=
  ⟨effectiveScopes principal key,
    intersectTemplateGrants principal.templateNames key.templateNames⟩

theorem keyAuthority_eq_ok {principal : PrincipalRow} {key : MachineKeyRow} {now : Nat}
    {authority : KeyAuthority} (h : keyAuthority principal key now = .ok authority) :
    authority.principalId = principal.id ∧ authority.grants = keyGrants principal key ∧
      authority.expiresAt = key.expiresAt := by
  obtain ⟨u, -, h⟩ := Except.bind_eq_ok.mp h
  obtain ⟨u, -, h⟩ := Except.bind_eq_ok.mp h
  obtain rfl := Except.ok.inj h
  exact ⟨rfl, rfl, rfl⟩

theorem principalWithinAuthority_eq_true {authority : KeyAuthority}
    {scopes templateNames : List String} :
    principalWithinAuthority authority scopes templateNames = true ↔
      Grants.Within ⟨scopes, templateNames⟩ authority.grants := by
  rw [principalWithinAuthority, Bool.and_eq_true, Bool.or_eq_true, List.contains_iff_mem,
    List.all_eq_true, List.all_eq_true]
  constructor
  · rintro ⟨hscopes, htemplates⟩
    refine ⟨?_, fun name hname => ?_⟩
    · rcases hscopes with hadmin | hscopes
      · exact .of_wildcard hadmin
      · exact .of_subset fun scope hscope => List.contains_iff_mem.mp (hscopes scope hscope)
    · exact contains_iff_covers.mp (htemplates name hname)
  · rintro ⟨hscopes, htemplates⟩
    refine ⟨?_, fun name hname => ?_⟩
    · by_cases hadmin : "admin" ∈ authority.scopes
      · exact .inl hadmin
      · refine .inr fun scope hscope => List.contains_iff_mem.mpr ?_
        exact (hscopes scope hscope).resolve_left hadmin
    · exact contains_iff_covers.mpr (htemplates name hname)

/-- The grants of a key are within the grants of its principal. -/
theorem keyGrants_within (principal : PrincipalRow) (key : MachineKeyRow) :
    (keyGrants principal key).Within principal.grants := by
  constructor
  · intro scope hscope
    exact contains_iff_covers.mp (List.mem_filter.mp hscope).2
  · show Within "*" (intersectTemplateGrants principal.templateNames key.templateNames) _
    unfold intersectTemplateGrants
    split
    · exact .refl _
    · split_ifs with hall hkey
      · exact .of_wildcard (List.contains_iff_mem.mp hall)
      · exact .refl _
      · refine .of_subset fun name hname => ?_
        exact List.contains_iff_mem.mp (List.mem_filter.mp hname).2

/-- The templates of a key are within its own list. -/
theorem keyGrants_templates {principal : PrincipalRow} {key : MachineKeyRow}
    {templateNames : List String} (h : key.templateNames = some templateNames) :
    Within "*" (keyGrants principal key).templateNames templateNames := by
  show Within "*" (intersectTemplateGrants principal.templateNames key.templateNames) _
  rw [h, intersectTemplateGrants]
  split_ifs with hall hkey
  · exact .refl _
  · exact .of_wildcard (List.contains_iff_mem.mp hkey)
  · exact .of_subset fun name hname => (List.mem_filter.mp hname).1

end PocketCoder.Auth
