import PocketCoder.Auth.Authority
import PocketCoder.Journal.Events

/-!
Administration of principals and keys
(`db/src/modules/auth/authority.ts`, `key-inventory.ts`, `key-ids.ts`,
`principal-administration.ts`, `configured-principals.ts`,
`key-revocation.ts`).

A change of a principal is planned under the lock of its row, with the
events that the journal gets before the commit and after it, and then
written.
-/

namespace PocketCoder.Auth

open PocketCoder.Foundation PocketCoder.Journal
open PocketCoder.Foundation.Transaction (check require)

/-- A transaction on the tables of principals and keys. -/
abbrev Transaction (α : Type) := Foundation.Transaction AuthTables Failure α

/-! ### The calling key -/

/-- `lockKeyAuthority`: the authority of the calling key and its row. -/
def lockKeyAuthority (tables : AuthTables) (keyId : String) (now : Nat) :
    Except Failure (KeyAuthority × MachineKeyRow) := do
  match tables.machineKeys.get? keyId with
  | none => throw (.api "auth.invalid_key" "Unknown calling key.")
  | some key =>
      match tables.principals.get? key.principalId with
      | none => throw (.api "auth.invalid_key" "Unknown calling key.")
      | some caller => return (← keyAuthority caller key now, key)

/-! ### Keys -/

def assertTargetGrants (principal : PrincipalRow) (input : MachineKeyRow) (now : Nat) :
    Except Failure Unit := do
  require principal.disabledAt.isNone
    (.api "auth.disabled_principal" "This principal is disabled.")
  require (!(input.issuanceRequestId.isSome && input.expiresAt.any fun expiresAt => expiresAt ≤ now))
    (.api "validation.invalid" "Key expiry must be in the future.")
  require (!(input.scopes.any fun scope =>
      !principal.scopes.contains "admin" && !principal.scopes.contains scope))
    (.api "auth.missing_scope" "Key scopes exceed the principal's authority.")
  require (!(input.templateNames.any fun names => names.any fun name =>
      !principal.templateNames.contains "*" && !principal.templateNames.contains name))
    (.api "template.not_authorized" "Key templates exceed the principal's authority.")

structure IssueResult where
  key : MachineKeyRow
  principal : PrincipalRow
  created : Bool
  conflict : Bool

/-- `lockedPrincipal`: the target of an issuance, which the calling key may
issue this key for. -/
def lockedPrincipal (tables : AuthTables) (input : MachineKeyRow) (actorKeyId : Option String)
    (now : Nat) : Except Failure PrincipalRow := do
  let actor ← actorKeyId.mapM fun keyId => lockKeyAuthority tables keyId now
  match tables.principals.get? input.principalId with
  | none => throw (.api "auth.invalid_key" "Unknown principal.")
  | some principal =>
      require (input.managedPrincipalIds.all fun id => (tables.principals.get? id).isSome)
        (.api "principal.not_found" "Unknown managed principal.")
      match actor with
      | none => return principal
      | some (authority, key) =>
          assertKeyIssueAuthority authority key principal
            { scopes := input.scopes
              templateNames := some (input.templateNames.getD principal.templateNames)
              expiresAt := input.expiresAt
              managedPrincipalIds := input.managedPrincipalIds }
          return principal

def issueMachineKey (input : MachineKeyRow) (actorKeyId : Option String) (now : Nat) :
    Transaction IssueResult := do
  let tables ← get
  let principal ← check (lockedPrincipal tables input actorKeyId now)
  let existing := input.issuanceRequestId.bind fun requestId =>
    tables.machineKeys.rows.find? fun key =>
      key.principalId = input.principalId && key.issuanceRequestId = some requestId
  match existing with
  | some existing =>
      -- a repeated request gets its key again, or a conflict if it asks for another one
      return ⟨existing, principal, false,
        existing.issuanceRequestDigest ≠ input.issuanceRequestDigest⟩
  | none =>
      check (assertTargetGrants principal input now)
      check (require (tables.machineKeys.get? input.id).isNone .constraint)
      set { tables with machineKeys := tables.machineKeys.insert input }
      return ⟨input, principal, true, false⟩

def unrevokedKeyIds (tables : AuthTables) (principalId : String) : List String :=
  (tables.machineKeys.rows.filter fun key =>
    key.principalId = principalId && key.revokedAt.isNone).map MachineKeyRow.id

/-- A key of the list that is not revoked yet is revoked now. -/
def revokedKey (ids : List String) (time : Nat) (key : MachineKeyRow) : MachineKeyRow :=
  if ids.contains key.id then { key with revokedAt := key.revokedAt.or (some time) } else key

theorem revokedKey_id (ids : List String) (time : Nat) (key : MachineKeyRow) :
    (revokedKey ids time key).id = key.id := by
  unfold revokedKey
  split_ifs <;> rfl

def revokeKeyIds (tables : AuthTables) (ids : List String) (time : Nat) : AuthTables :=
  { tables with
    machineKeys := tables.machineKeys.update (revokedKey ids time) (revokedKey_id ids time) }

/-- `lockTarget` of a revocation. -/
def lockTarget (tables : AuthTables) (principalId : String) (actorKeyId : Option String)
    (now : Nat) : Except Failure Unit := do
  match actorKeyId with
  | none => return ()
  | some keyId =>
      let (authority, key) ← lockKeyAuthority tables keyId now
      assertAuthorityScope authority "keys:write"
      match tables.principals.get? principalId with
      | none => throw (.api "principal.not_found" "Unknown principal.")
      | some target =>
          if !authority.scopes.contains "admin" && key.managedPrincipalIds.length ≠ 0 then
            -- a key that manages principals reaches these only
            require (key.managedPrincipalIds.contains target.id)
              (.api "principal.not_found" "Unknown principal.")
          else
            require (principalWithinAuthority authority target.scopes target.templateNames)
              (.api "principal.not_found" "Unknown principal.")

/-! ### Principals -/

structure PrincipalPatch where
  scopes : Option (List String)
  templateNames : Option (List String)
  disabled : Option Bool

structure PrincipalChange where
  target : PrincipalRow
  patch : PrincipalPatch
  scopes : List String
  templateNames : List String
  keyIds : List String
  time : Nat

/-- The test of `principalEvents` for a restriction: both lists only lose
entries. -/
def PrincipalChange.narrows (change : PrincipalChange) : Bool :=
  (change.scopes.all fun scope => change.target.scopes.contains scope) &&
    change.templateNames.all fun name => change.target.templateNames.contains name

/-- The record of new lists, when the patch has any. -/
def PrincipalChange.accessEvents (change : PrincipalChange) : List JournalEvent :=
  if change.patch.scopes.isSome || change.patch.templateNames.isSome then
    [.principalAccess change.target.id change.scopes change.templateNames change.time]
  else []

/-- `principalEvents`: the events before the commit and those after it. -/
def principalEvents (change : PrincipalChange) : List JournalEvent × List JournalEvent :=
  let access := change.accessEvents
  (((if change.narrows then access else []) ++
      if change.patch.disabled = some true then
        [.principalDisabled change.target.id change.keyIds change.time]
      else []),
    ((if change.narrows then [] else access) ++
      if change.patch.disabled = some false then [.principalEnabled change.target.id change.time]
      else []))

/-- The row that a change leaves. -/
def PrincipalChange.row (change : PrincipalChange) (row : PrincipalRow) : PrincipalRow :=
  { row with
    scopes := change.scopes
    templateNames := change.templateNames
    disabledAt :=
      match change.patch.disabled with
      | none => row.disabledAt
      | some disabled => if disabled then some change.time else none }

theorem PrincipalChange.row_id (change : PrincipalChange) (row : PrincipalRow) :
    (change.row row).id = row.id := rfl

/-- The writes of a change: its principal, then the keys it revokes. -/
def PrincipalChange.write (change : PrincipalChange) (tables : AuthTables) : AuthTables :=
  revokeKeyIds
    { tables with
      principals := tables.principals.updateAt change.target.id change.row change.row_id }
    change.keyIds change.time

/-- The keys that a patch revokes. -/
def patchedKeyIds (tables : AuthTables) (id : String) (patch : PrincipalPatch) : List String :=
  if patch.disabled = some true then unrevokedKeyIds tables id else []

/-- `createManagedPrincipal`, with the identifier it draws. -/
def createManagedPrincipal (actorKeyId id name : String) (scopes templateNames : List String)
    (now : Nat) : Transaction PrincipalRow := do
  let tables ← get
  let (authority, _) ← check (lockKeyAuthority tables actorKeyId now)
  check (assertAuthorityScope authority "principals:admin")
  check (assertPrincipalWithinAuthority authority scopes templateNames)
  check (require (tables.principals.rows.all fun row => row.name ≠ name)
    (.api "principal.name_conflict" "A principal with this name already exists."))
  check (require (tables.principals.get? id).isNone .constraint)
  let row : PrincipalRow := { id, name, scopes, templateNames, disabledAt := none }
  set { tables with principals := tables.principals.insert row }
  return row

/-- The checks of `updateManagedPrincipal` and the change they allow. -/
def managedChange (tables : AuthTables) (actorKeyId id : String) (patch : PrincipalPatch)
    (now : Nat) : Except Failure PrincipalChange := do
  let (authority, _) ← lockKeyAuthority tables actorKeyId now
  assertAuthorityScope authority "principals:admin"
  match tables.principals.get? id with
  | none => throw (.api "principal.not_found" "Unknown principal.")
  | some target =>
      require (target.id ≠ authority.principalId)
        (.api "auth.missing_scope" "A calling key cannot edit its own principal.")
      assertPrincipalWithinAuthority authority target.scopes target.templateNames
      let scopes := patch.scopes.getD target.scopes
      let templateNames := patch.templateNames.getD target.templateNames
      assertPrincipalWithinAuthority authority scopes templateNames
      return ⟨target, patch, scopes, templateNames, patchedKeyIds tables id patch, now⟩

/-- The committed tables of `updateManagedPrincipal`. -/
def updateManagedPrincipal (actorKeyId id : String) (patch : PrincipalPatch) (now : Nat) :
    Transaction Unit := do
  let tables ← get
  let change ← check (managedChange tables actorKeyId id patch now)
  set (change.write tables)

structure ConfiguredPrincipal where
  id : String
  name : String
  scopes : List String
  templateNames : List String
  disabled : Bool

/-- `principalPatch`: only what differs. -/
def principalPatch (target : PrincipalRow) (input : ConfiguredPrincipal) : PrincipalPatch where
  scopes := if target.scopes = input.scopes then none else some input.scopes
  templateNames := if target.templateNames = input.templateNames then none
    else some input.templateNames
  disabled := if input.disabled = target.disabledAt.isSome then none else some input.disabled

/-- The change that `applyConfiguredPrincipal` makes to an existing row. -/
def configuredChange (tables : AuthTables) (target : PrincipalRow) (input : ConfiguredPrincipal)
    (now : Nat) : PrincipalChange :=
  let patch := principalPatch target input
  ⟨target, patch, input.scopes, input.templateNames, patchedKeyIds tables input.id patch, now⟩

/-- The row that `applyConfiguredPrincipal` creates. -/
def configuredRow (input : ConfiguredPrincipal) (now : Nat) : PrincipalRow where
  id := input.id
  name := input.name
  scopes := input.scopes
  templateNames := input.templateNames
  disabledAt := if input.disabled then some now else none

/-- The change of `revokePrincipalKeys`, which disables the principal. -/
def revocationChange (tables : AuthTables) (target : PrincipalRow) (now : Nat) : PrincipalChange :=
  ⟨target, ⟨none, none, some true⟩, target.scopes, target.templateNames,
    unrevokedKeyIds tables target.id, now⟩

end PocketCoder.Auth
