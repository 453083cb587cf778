import PocketCoder.Executions.Effects
import PocketCoder.Workspaces.Transitions

/-!
Registration of supervisor connections
(`server/src/control-channel/ws-events.ts`, `hub.ts`,
`connection-authority.ts`) as a transition system: any number of runs of
`registerConnection`, each cut at its awaits, interleaved with every other
write of the workspace rows and with the hub losing its connections.

The epoch of a connection is computed from the row that its run read, some
awaits before it is written and attached.
-/

namespace PocketCoder.ControlChannel

open PocketCoder.Foundation PocketCoder.Workspaces PocketCoder.Executions

/-! ### Runs -/

inductive AuthMode where
  | register
  | reconnect
  deriving DecidableEq

structure WsAuth where
  workspaceId : String
  mode : AuthMode

/-- A connection of the hub. The number of its run is its object identity. -/
structure LiveConnection where
  workspaceId : String
  connectionId : String
  epoch : Nat
  run : Nat
  deriving DecidableEq

/-- Where a run of `registerConnection` waits, with the variables it uses
later. -/
inductive Point where
  | getWorkspace
  | sourceCredentialFor (row : WorkspaceRow)
  /-- `transition` or `updateWorkspace`, with the row that was read. -/
  | write (row : WorkspaceRow)
  /-- `assertAccountAllowed` before the attachment. -/
  | attach (row : WorkspaceRow) (epoch : Nat)
  | workspaceCredentialsFor (row : WorkspaceRow) (connection : LiveConnection)
  | activeConnectionWorkspace (row : WorkspaceRow) (connection : LiveConnection)
  | restoreExec (connection : LiveConnection)
  /-- `assertAccountAllowed` before the acknowledgment. -/
  | acknowledge (connection : LiveConnection)
  | closed

structure Registration where
  auth : WsAuth
  connectionId : String
  templateDigest : String
  point : Point

/-- What the server is configured with, and the launch modes of the
workspaces, which are written when a workspace is created and never again. -/
structure Config where
  checkpointTransfers : Bool
  restores : String → Bool

/-- The answers of the calls that a run makes: whether the call returned
(a valid grant, where it asks for one), the leases, and the time. -/
structure Answer where
  ok : Bool
  leases : Bool
  now : Nat

structure Channel where
  db : Database
  byWorkspace : JsMap String LiveConnection
  runs : List Registration
  attached : List LiveConnection
  /-- The connections that were sent `registered_ack`, in this order. -/
  acked : List LiveConnection

def Channel.initial (db : Database) : Channel where
  db := db
  byWorkspace := .empty
  runs := []
  attached := []
  acked := []

/-! ### Steps of a run -/

def interruptedRestore (config : Config) (auth : WsAuth) (row : WorkspaceRow) : Bool :=
  auth.mode = .reconnect && config.checkpointTransfers && config.restores row.id &&
    row.state = .connected

/-- What a run does with the row it has read. The termination of an
interrupted restore is a write of its own. -/
def onRow (config : Config) (run : Registration) : Option WorkspaceRow → Point
  | none => .closed
  | some row =>
      if row.state.isTerminal then .closed
      else if run.auth.mode = .register && row.state ≠ .provisioning then .closed
      else if run.templateDigest ≠ row.templateDigest then .closed
      else if interruptedRestore config run.auth row then .closed
      else if run.auth.mode = .register then .sourceCredentialFor row
      else .write row

def connectionPatch (epoch : Nat) (row : WorkspaceRow) : WorkspaceRow :=
  { row with connectionEpoch := epoch }

def writeEpoch (db : Database) (mode : AuthMode) (id : String) (epoch : Nat) (leases : Bool) :
    Option Database :=
  match mode with
  | .register =>
      match (db.workspaces.get? id).bind (transitionWorkspace ⟨[.provisioning], .connected, none⟩
          leases (connectionPatch epoch)) with
      | none => none
      | some row =>
          some { db with
            workspaces := db.workspaces.updateAt id (fun current => { row with id := current.id })
              fun _ => rfl }
  | .reconnect =>
      -- no condition on the epoch that is stored by now
      some { db with
        workspaces := db.workspaces.updateAt id
          (fun row => { updatedRow (connectionPatch epoch) row with id := row.id }) fun _ => rfl }

def isActive (channel : Channel) (connection : LiveConnection) (now : Nat) : Bool :=
  match channel.db.workspaces.get? connection.workspaceId with
  | none => false
  | some row =>
      row.connectionEpoch = connection.epoch && (row.state = .connected || row.state = .ready) &&
        row.purgeRequestedAt.isNone && now < row.deadlineAt &&
        channel.byWorkspace.get row.id = some connection

/-- `detach`: only the live connection of its workspace leaves the hub. -/
def detach (byWorkspace : JsMap String LiveConnection) (connection : LiveConnection) :
    JsMap String LiveConnection :=
  if byWorkspace.get connection.workspaceId = some connection then
    byWorkspace.delete connection.workspaceId
  else byWorkspace

def Channel.goto (channel : Channel) (i : Nat) (point : Point) : Channel :=
  { channel with runs := channel.runs.modify i fun run => { run with point } }

def Channel.fail (channel : Channel) (i : Nat) (connection : LiveConnection) : Channel :=
  { channel with byWorkspace := detach channel.byWorkspace connection }.goto i .closed

def Channel.attach (channel : Channel) (i : Nat) (row : WorkspaceRow)
    (connection : LiveConnection) : Channel :=
  { channel with
    byWorkspace := channel.byWorkspace.set connection.workspaceId connection
    attached := channel.attached ++ [connection] }.goto i (.workspaceCredentialsFor row connection)

def Channel.acknowledge (channel : Channel) (i : Nat) (connection : LiveConnection) : Channel :=
  { channel with acked := channel.acked ++ [connection] }.goto i .closed

def advance (config : Config) (channel : Channel) (i : Nat) (run : Registration)
    (answer : Answer) : Channel :=
  match run.point with
  | .getWorkspace =>
      channel.goto i (onRow config run (channel.db.workspaces.get? run.auth.workspaceId))
  | .sourceCredentialFor row => channel.goto i (if answer.ok then .write row else .closed)
  | .write row =>
      -- the epoch follows that of the row as it was read
      let epoch := row.connectionEpoch + 1
      match writeEpoch channel.db run.auth.mode row.id epoch answer.leases with
      | none => channel.goto i .closed
      | some db =>
          if answer.ok then { channel with db }.goto i (.attach row epoch)
          else channel.goto i .closed
  | .attach row epoch =>
      if answer.ok then channel.attach i row ⟨row.id, run.connectionId, epoch, i⟩
      else channel.goto i .closed
  | .workspaceCredentialsFor row connection =>
      if answer.ok then channel.goto i (.activeConnectionWorkspace row connection)
      else channel.fail i connection
  | .activeConnectionWorkspace row connection =>
      if !isActive channel connection answer.now then channel.goto i .closed
      -- nothing is restored into this workspace, or it is done
      else if !config.checkpointTransfers || !config.restores row.id || row.state = .ready then
        channel.goto i (.acknowledge connection)
      else channel.goto i (.restoreExec connection)
  | .restoreExec connection =>
      if answer.ok && channel.byWorkspace.get connection.workspaceId = some connection then
        channel.goto i (.acknowledge connection)
      else channel.fail i connection
  | .acknowledge connection =>
      if answer.ok then channel.acknowledge i connection else channel.fail i connection
  | .closed => channel

/-! ### Runs of the channel -/

def storedEpoch (db : Database) (id : String) : Option Nat :=
  (db.workspaces.get? id).map WorkspaceRow.connectionEpoch

/-- The states behind `provisioning`, from which no transition leads back. -/
def launched : WorkspaceState → Bool
  | .queued | .provisioning => false
  | .connected | .ready | .preserving | .terminating | .succeeded | .failed | .canceled
  | .expired | .preserved => true

theorem launched_of_canTransition {state target : WorkspaceState}
    (hedge : state.canTransition target = true) (h : launched state = true) :
    launched target = true := by
  cases state <;> cases target <;>
    first | rfl | exact absurd h (by decide) | exact absurd hedge (by decide)

def Launched (db : Database) (id : String) : Prop :=
  ∃ row, db.workspaces.get? id = some row ∧ launched row.state = true

/-- What the other writers of the tables do: every workspace stays, with its
epoch, and no workspace is launched again. Only `registerConnection` writes
the epoch of a row. -/
structure Keeps (db db' : Database) : Prop where
  epochs : ∀ {id epoch}, storedEpoch db id = some epoch → storedEpoch db' id = some epoch
  launched : ∀ {id}, Launched db id → Launched db' id

/-- What is left of `authenticateConnection` when the first frame arrives: a
valid reconnect was for a workspace that was launched. -/
def Authenticated (db : Database) (auth : WsAuth) : Prop :=
  auth.mode = .reconnect → Launched db auth.workspaceId

inductive Event where
  | registered (auth : WsAuth) (connectionId templateDigest : String)
  | advance (i : Nat) (answer : Answer)
  | store
  | drop (workspaceId : String)
  | restart

inductive Step (config : Config) : Channel → Event → Channel → Prop
  | registered {channel : Channel} {auth : WsAuth} (connectionId templateDigest : String) :
      Authenticated channel.db auth →
      Step config channel (.registered auth connectionId templateDigest)
        { channel with
          runs := channel.runs ++ [⟨auth, connectionId, templateDigest, .getWorkspace⟩] }
  | advance {channel : Channel} {i : Nat} {run : Registration} (answer : Answer) :
      channel.runs[i]? = some run →
      Step config channel (.advance i answer) (advance config channel i run answer)
  | store {channel : Channel} {db : Database} :
      Keeps channel.db db → Step config channel .store { channel with db }
  | drop {channel : Channel} (workspaceId : String) :
      Step config channel (.drop workspaceId)
        { channel with byWorkspace := channel.byWorkspace.delete workspaceId }
  /-- The controller stops and starts: the memory is lost. -/
  | restart {channel : Channel} :
      Step config channel .restart
        { channel with
          byWorkspace := .empty
          runs := channel.runs.map fun run => { run with point := .closed } }

end PocketCoder.ControlChannel
