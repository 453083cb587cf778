import PocketCoder.Recovery.Restart

/-!
The operations whose effect a restore must not undo, and the journal, as one
transition system (`db/src/modules/auth/key-revocation.ts`,
`db/src/modules/secrets/repository.ts`,
`db/src/modules/templates/repository.ts`,
`db/src/modules/conversations/repository.ts`,
`db/src/modules/persistence/operations.ts` and `content.ts`).

Each operation appends its events before it commits; principal updates append
what they grant after the commit. A crash forgets what is in flight. The
state remembers what committed operations took away, and the journal length
at which each secret version was written.
-/

namespace PocketCoder.Recovery.Deletions

open PocketCoder.Foundation PocketCoder.Journal PocketCoder.Auth
open PocketCoder.Foundation.Transaction (require)

/-! ### Operations -/

inductive Operation where
  | revokeMachineKey (keyId : String) (actorKeyId : Option String)
  | updatePrincipal (request : Request)
  | writeSecret (actorKeyId name versionId : String)
  | retireSecret (actorKeyId name : String)
  | retireTemplate (actorKeyId name version : String)
  | deleteConversation (workspaceId : String)
  | deleteConversationById (principalId conversationId : String)
  /-- `insertOperation` for a purge. -/
  | admitPurge (principalId workspaceId : String)
  | purgeWorkspaceContent (workspaceId : String)
  /-- `insertOperation` for the deletion of a checkpoint. -/
  | admitDelete (principalId checkpointId : String)

/-- An operation that passed its checks, with what it read. -/
inductive Intent where
  | revokeKey (keyId : String) (time : Nat)
  | changePrincipal (change : PrincipalChange)
  | createPrincipal (row : PrincipalRow)
  /-- A revocation for a principal without row. -/
  | record (event : JournalEvent) (time : Nat)
  | writeSecret (name versionId : String) (replaced : Option String) (time : Nat)
  | retireSecret (name versionId : String) (time : Nat)
  | retireTemplate (name version : String) (time : Nat)
  | deleteConversation (workspaceId : String) (time : Nat)
  | deleteConversationById (id workspaceId principalId conversationId : String) (time : Nat)
  | admitPurge (principalId workspaceId : String) (time : Nat)
  | purgeContent (workspaceId : String) (time : Nat)
  | admitDelete (principalId checkpointId : String) (time : Nat)

/-- `authorize` of secrets. -/
def authorizeSecrets (tables : AuthTables) (actorKeyId : String) (now : Nat) :
    Except Failure Unit := do
  let (authority, _) ← lockKeyAuthority tables actorKeyId now
  assertAuthorityScope authority "secrets:write"

/-- `authorize` of templates. -/
def authorizeTemplate (tables : AuthTables) (actorKeyId name : String) (now : Nat) :
    Except Failure Unit := do
  let (authority, _) ← lockKeyAuthority tables actorKeyId now
  assertAuthorityScope authority "templates:write"
  require (authority.templateNames.contains "*" || authority.templateNames.contains name)
    (.api "template.not_authorized" "This key cannot administer this template name.")

/-- The version that a write replaces, unless it is retired already. -/
def replacedVersion (tables : RecoveryTables) (name : String) : Option String :=
  (tables.secrets.get? name).bind fun row =>
    if row.retiredAt.isNone then some row.versionId else none

/-- What an operation does once it holds its locks; `none` when it returns
without a write. The routes of conversations and purges load the workspace
first. -/
def intend (tables : RecoveryTables) (purges : List String) (now : Nat) :
    Operation → Except Failure (Option Intent)
  | .revokeMachineKey keyId actorKeyId =>
      match tables.auth.machineKeys.get? keyId with
      | none => return none
      | some key => do
          lockTarget tables.auth key.principalId actorKeyId now
          return some (.revokeKey keyId now)
  -- an unknown principal is created, or only its keys are recorded as revoked
  | .updatePrincipal request => do
      match ← plan tables.auth now request with
      | .change change => return some (.changePrincipal change)
      | .create row => return some (.createPrincipal row)
      | .record event => return some (.record event now)
  | .writeSecret actorKeyId name versionId => do
      authorizeSecrets tables.auth actorKeyId now
      return some (.writeSecret name versionId (replacedVersion tables name) now)
  | .retireSecret actorKeyId name => do
      authorizeSecrets tables.auth actorKeyId now
      match tables.secrets.get? name with
      | none => throw (.api "secret.not_found" "Unknown stored secret.")
      | some row => return some (.retireSecret name row.versionId now)
  | .retireTemplate actorKeyId name version => do
      authorizeTemplate tables.auth actorKeyId name now
      match tables.templates.get? (name, version) with
      | none => throw (.api "template.version_not_found" "Unknown template version.")
      | some _ => return some (.retireTemplate name version now)
  | .deleteConversation workspaceId =>
      if tables.workspaces.contains workspaceId then
        return some (.deleteConversation workspaceId now)
      else return none
  | .deleteConversationById principalId conversationId =>
      match tables.conversations.rows.find? (hasIdentity principalId conversationId) with
      | none => return none
      | some row =>
          return some (.deleteConversationById row.id row.workspaceId principalId conversationId now)
  | .admitPurge principalId workspaceId =>
      if tables.workspaces.contains workspaceId then
        return some (.admitPurge principalId workspaceId now)
      else return none
  | .purgeWorkspaceContent workspaceId =>
      if purges.contains workspaceId then return some (.purgeContent workspaceId now)
      else return none
  | .admitDelete principalId checkpointId =>
      return some (.admitDelete principalId checkpointId now)

namespace Intent

/-- The events before the commit. -/
def early : Intent → List JournalEvent
  | .revokeKey keyId time => [.keyRevoked keyId time]
  | .changePrincipal change => (principalEvents change).1
  | .record event _ => [event]
  | .writeSecret name _ replaced time =>
      (replaced.map fun versionId => .secretRetired name versionId time).toList
  | .retireSecret name versionId time => [.secretRetired name versionId time]
  | .retireTemplate name version time => [.templateRetired name version time]
  | .deleteConversation workspaceId time => [.conversationDeleted workspaceId none none time]
  | .deleteConversationById _ workspaceId principalId conversationId time =>
      [.conversationDeleted workspaceId (some principalId) (some conversationId) time]
  | .admitPurge principalId workspaceId time => [.workspacePurged principalId workspaceId time]
  | .admitDelete principalId checkpointId time => [.checkpointDeleted principalId checkpointId time]
  | .createPrincipal _ | .purgeContent .. => []

/-- The events after the commit. -/
def late : Intent → List JournalEvent
  | .changePrincipal change => (principalEvents change).2
  | _ => []

/-- The tables after the commit; `none` when a constraint fails. -/
def write (tables : RecoveryTables) : Intent → Option RecoveryTables
  | .revokeKey keyId time => some { tables with auth := revokeKeyIds tables.auth [keyId] time }
  | .changePrincipal change => some { tables with auth := change.write tables.auth }
  | .createPrincipal row =>
      some { tables with
        auth := { tables.auth with principals := tables.auth.principals.insert row } }
  | .record event time =>
      some { tables with auth := revokeKeyIds tables.auth (revokedIds event) time }
  | .writeSecret name versionId _ _ =>
      if tables.secretVersions.contains versionId then none
      else some { tables with
        secretVersions := versionId :: tables.secretVersions
        secrets := (tables.secrets.updateAt name
          (fun row => { row with versionId, retiredAt := none }) fun _ => rfl).insert
            ⟨name, versionId, none⟩ }
  | .retireSecret name _ time =>
      some { tables with
        secrets := tables.secrets.updateAt name
          (fun row => { row with retiredAt := row.retiredAt.or (some time) }) fun _ => rfl }
  | .retireTemplate name version time =>
      some { tables with
        templates := tables.templates.updateAt (name, version)
          (fun row => { row with status := .retired, retiredAt := row.retiredAt.or (some time) })
          fun _ => rfl }
  | .deleteConversation workspaceId time =>
      if tables.workspaces.contains workspaceId then some (removeHistory tables workspaceId time)
      else none
  | .deleteConversationById id _ _ _ time =>
      some (clearConversations tables (fun row => row.id = id) .deleted time)
  | .admitPurge .. => some tables
  | .purgeContent workspaceId time =>
      if tables.workspaces.contains workspaceId then some (purgeWorkspace tables workspaceId time)
      else none
  | .admitDelete principalId checkpointId _ =>
      some { tables with
        checkpoints := tables.checkpoints.updateAt checkpointId
          (fun row => if row.principalId = principalId then { row with state := .deleting } else row)
          fun row => by split_ifs <;> rfl }

/-- The name whose advisory lock an operation on secrets takes. -/
def secretName : Intent → Option String
  | .writeSecret name _ _ _ | .retireSecret name _ _ => some name
  | _ => none

/-- The workspace that a commit admits for a purge. -/
def purge : Intent → List String
  | .admitPurge _ workspaceId _ => [workspaceId]
  | _ => []

/-- The secret version that a commit writes. -/
def version : Intent → List String
  | .writeSecret _ versionId _ _ => [versionId]
  | _ => []

end Intent

/-! ### What was taken away -/

inductive Effect where
  | keyRevoked (keyId : String)
  | secretRetired (name versionId : String)
  | templateRetired (name version : String)
  | checkpointDeleted (checkpointId : String)
  | conversationDeleted (id : String)
  | purged (workspaceId : String)

/-- Nothing of a conversation is left but its tombstone. -/
def Erased (tables : RecoveryTables) (id : String) : Prop :=
  (∀ row ∈ tables.conversations.rows, row.id = id → row.status = .deleted) ∧
    ∀ record ∈ tables.conversationRecords, record.conversationRef ≠ id

/-- What was taken away is not there, if its row is. -/
def Effect.Holds (tables : RecoveryTables) : Effect → Prop
  | .keyRevoked keyId =>
      ∀ key ∈ tables.auth.machineKeys.rows, key.id = keyId → key.revokedAt.isSome = true
  | .secretRetired name versionId =>
      ∀ row ∈ tables.secrets.rows, row.name = name → row.versionId = versionId →
        row.retiredAt.isSome = true
  | .templateRetired name version =>
      ∀ row ∈ tables.templates.rows, row.key = (name, version) → row.status = .retired
  | .checkpointDeleted checkpointId =>
      ∀ row ∈ tables.checkpoints.rows, row.id = checkpointId → row.state = .deleted
  | .conversationDeleted id => Erased tables id
  | .purged workspaceId =>
      (∀ record ∈ tables.conversationRecords, record.workspaceId ≠ workspaceId) ∧
        ∀ row, row ∈ tables.workspaceLogs ∨ row ∈ tables.workspaceOutputs ∨
          row ∈ tables.workspaceNetworkEvents ∨ row ∈ tables.eventOutbox →
            row.workspaceId ≠ workspaceId

/-- What a commit takes away, from the tables it finds. -/
def Intent.effects (tables : RecoveryTables) : Intent → List Effect
  | .revokeKey keyId _ => [.keyRevoked keyId]
  | .changePrincipal change => change.keyIds.map .keyRevoked
  | .record event _ => (revokedIds event).map .keyRevoked
  | .writeSecret name _ _ _ | .retireSecret name _ _ =>
      ((tables.secrets.get? name).map fun row => .secretRetired name row.versionId).toList
  | .retireTemplate name version _ => [.templateRetired name version]
  | .deleteConversation workspaceId _ | .purgeContent workspaceId _ =>
      (tables.conversations.rows.filter (wroteTo tables workspaceId)).map fun row =>
        .conversationDeleted row.id
  | .deleteConversationById id _ _ _ _ => [.conversationDeleted id]
  | .admitPurge _ workspaceId _ => [.purged workspaceId]
  | .admitDelete _ checkpointId _ => [.checkpointDeleted checkpointId]
  | .createPrincipal _ => []

/-! ### Runs -/

structure Flight where
  intent : Intent
  phase : Phase

structure System where
  tables : RecoveryTables
  journal : List JournalEvent
  flights : List Flight
  /-- The workspaces with a purge request. -/
  purges : List String
  /-- What committed operations took away. -/
  done : List Effect
  /-- The secret versions written, with the journal length at their commit. -/
  written : List (String × Nat)

def System.initial (tables : RecoveryTables) : System := ⟨tables, [], [], [], [], []⟩

inductive Action where
  | start (operation : Operation) (now : Nat)
  | append (i : Nat)
  | commit (i : Nat)
  | abandon (i : Nat)
  | other
  | crash

/-- No open transaction holds the lock of the secret. -/
def System.Unlocked (system : System) (intent : Intent) : Prop :=
  ∀ flight ∈ system.flights, ∀ early, flight.phase = .locked early →
    intent.secretName.isSome = true → flight.intent.secretName ≠ intent.secretName

/-- Every record belongs to a conversation. -/
def References (tables : RecoveryTables) : Prop :=
  ∀ record ∈ tables.conversationRecords, ∃ row ∈ tables.conversations.rows,
    row.id = record.conversationRef

/-- What every write keeps: workspaces and conversations are not removed, a
conversation keeps its identity, and a tombstone accepts no record. -/
structure Keeps (tables tables' : RecoveryTables) : Prop where
  workspaces : ∀ workspaceId ∈ tables.workspaces, workspaceId ∈ tables'.workspaces
  identity : ∀ row ∈ tables.conversations.rows, ∃ row' ∈ tables'.conversations.rows,
    row'.id = row.id ∧ row'.principalId = row.principalId ∧
      row'.conversationId = row.conversationId
  erased : ∀ row ∈ tables.conversations.rows, Erased tables row.id → Erased tables' row.id
  references : References tables → References tables'

inductive Step : System → Action → System → Prop
  | start {system : System} {operation : Operation} {now : Nat} {intent : Intent} :
      intend system.tables system.purges now operation = .ok (some intent) →
      system.Unlocked intent →
      Step system (.start operation now)
        { system with flights := system.flights ++ [⟨intent, .locked intent.early⟩] }
  | early {system : System} {i : Nat} {intent : Intent} {event : JournalEvent}
      {early : List JournalEvent} :
      system.flights[i]? = some ⟨intent, .locked (event :: early)⟩ →
      Step system (.append i)
        { system with
          journal := system.journal ++ [event]
          flights := system.flights.set i ⟨intent, .locked early⟩ }
  | commit {system : System} {i : Nat} {intent : Intent} {tables : RecoveryTables} :
      system.flights[i]? = some ⟨intent, .locked []⟩ →
      intent.write system.tables = some tables →
      Step system (.commit i)
        { system with
          tables
          flights := system.flights.set i ⟨intent, .written intent.late⟩
          purges := intent.purge ++ system.purges
          done := intent.effects system.tables ++ system.done
          written := intent.version.map (fun v => (v, system.journal.length)) ++ system.written }
  | late {system : System} {i : Nat} {intent : Intent} {event : JournalEvent}
      {late : List JournalEvent} :
      system.flights[i]? = some ⟨intent, .written (event :: late)⟩ →
      Step system (.append i)
        { system with
          journal := system.journal ++ [event]
          flights := system.flights.set i ⟨intent, .written late⟩ }
  | abandon {system : System} {i : Nat} {flight : Flight} :
      system.flights[i]? = some flight →
      Step system (.abandon i)
        { system with flights := system.flights.set i { flight with phase := .written [] } }
  /-- Other writers, among them those of conversations; only the operations
  on secrets write secrets. -/
  | other {system : System} {tables : RecoveryTables} :
      Keeps system.tables tables → tables.secrets = system.tables.secrets →
      tables.secretVersions = system.tables.secretVersions →
      Step system .other { system with tables }
  | crash {system : System} : Step system .crash { system with flights := [] }

end PocketCoder.Recovery.Deletions
