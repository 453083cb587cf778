import PocketCoder.Conversations.Runs

/-!
Open turns in controller memory (`server/src/conversations/live-turns.ts`): the
latest revision of each event of a turn, which is written once, when its
terminal fact arrives or its workspace ends.

All that `LiveTurns` keeps is kept for each key apart, and the frames of a key
are applied one after the other, so the model is that of one turn: its entry in
the map, its frames that wait, and its commits that wait for the store. Commits
that `close` makes wait for nobody, and the store runs a commit, and other
transactions, at any moment between the call and its answer.
-/

namespace PocketCoder.Conversations

open PocketCoder.Foundation PocketCoder.Foundation.Transaction PocketCoder.Executions

def MAX_OPEN_TURN_BYTES : Nat := 50 * 1024 * 1024

/-! ### Messages -/

/-- A `ConversationMessageInput` with its identity. -/
structure IdentifiedMessage where
  message_id : String
  role : ConversationRole
  content : String
  occurred_at : String
  metadata : List (String × String)
  identity : ConversationMessageIdentity
  deriving DecidableEq

namespace IdentifiedMessage

def toJson (message : IdentifiedMessage) : Json :=
  .obj [("message_id", .str message.message_id), ("role", .str message.role.text),
    ("content", .str message.content), ("occurred_at", .str message.occurred_at),
    ("metadata", .obj (message.metadata.map fun entry => (entry.1, .str entry.2))),
    ("identity", message.identity.json)]

/-- `Buffer.byteLength(JSON.stringify(message))`. -/
def size (message : IdentifiedMessage) : Nat := (utf8 message.toJson.stringify).length

/-- The message as it is committed. -/
def committed (message : IdentifiedMessage) : MessageInput where
  messageId := message.message_id
  role := message.role
  content := message.content
  occurredAt := message.occurred_at
  metadata := message.metadata
  identity := some message.identity

end IdentifiedMessage

structure Terminal where
  status : TurnOutcome
  reason : Option String
  endedAt : String
  deriving DecidableEq

/-- The outcome of a turn in its terminal fact. -/
def IdentifiedMessage.terminal (message : IdentifiedMessage) : Option Terminal :=
  match message.identity.fact with
  | some (.turnTerminal outcome reason) => some ⟨outcome, reason, message.occurred_at⟩
  | _ => none

/-! ### An open turn -/

structure OpenTurn where
  workspaceId : String
  request : ConversationRequestIdentity
  startedAt : String
  /-- The latest revision of each event, in the order in which the events came. -/
  events : JsMap String IdentifiedMessage
  bytes : Nat
  /-- The outcome of a turn whose write failed. -/
  terminal : Option Terminal

namespace OpenTurn

/-- The turn of a frame that is the first one. -/
def opened (workspaceId : String) (message : IdentifiedMessage) : OpenTurn where
  workspaceId := workspaceId
  request := message.identity.toConversationRequestIdentity
  startedAt := message.occurred_at
  events := .empty
  bytes := 0
  terminal := none

/-- A revision that is not newer than the one that is there. -/
def isStale (turn : OpenTurn) (message : IdentifiedMessage) : Bool :=
  (turn.events.get message.identity.event_id).any fun current =>
    message.identity.revision ≤ current.identity.revision

def bytesWith (turn : OpenTurn) (message : IdentifiedMessage) : Nat :=
  turn.bytes + message.size -
    ((turn.events.get message.identity.event_id).map (·.size)).getD 0

def withMessage (turn : OpenTurn) (message : IdentifiedMessage) : OpenTurn :=
  { turn with
    bytes := turn.bytesWith message
    events := turn.events.set message.identity.event_id message }

/-- Producers number events within a turn; arrival order breaks ties. -/
def ordered (turn : OpenTurn) : List IdentifiedMessage :=
  (turn.events.entries.rows.map Prod.snd).insertionSort
    fun a b => a.identity.sequence ≤ b.identity.sequence

def commit (turn : OpenTurn) (terminal : Terminal) : ConversationTurnCommit where
  workspaceId := turn.workspaceId
  identity := turn.request
  status := terminal.status
  reason := terminal.reason
  messages := turn.ordered.map (·.committed)
  startedAt := some turn.startedAt
  endedAt := terminal.endedAt

end OpenTurn

/-! ### Steps -/

/-- A call of `commit` that waits for the store. -/
structure PendingCommit where
  turn : OpenTurn
  terminal : Terminal
  /-- The call of a frame, which the next frame waits for. -/
  ofFrame : Bool
  /-- What the store will answer, once it has run the transaction. -/
  result : Option (Except Failure Unit)

/-- The answer; one that is lost is an error that may pass. -/
def PendingCommit.answer (pending : PendingCommit) (lost : Bool) : Option (Except Failure Unit) :=
  if lost then some (.error (.error "connection")) else pending.result

structure LiveTurn where
  workspaceId : String
  /-- `turns.get(key)`. -/
  turn : Option OpenTurn
  /-- The frames that are still to be applied. -/
  waiting : List IdentifiedMessage
  /-- A frame that waits for `isAcceptedTurn`. -/
  asking : Option IdentifiedMessage
  commits : List PendingCommit

namespace LiveTurn

def idle (workspaceId : String) : LiveTurn := ⟨workspaceId, none, [], none, []⟩

/-- A frame is being applied. -/
def busy (live : LiveTurn) : Bool := live.asking.isSome || live.commits.any (·.ofFrame)

/-- A state, the calls of `commitConversationTurn` on the way to it, and the
error with which a call of `LiveTurns` rejects. -/
structure Outcome (σ : Type) where
  state : σ
  calls : List ConversationTurnCommit
  error : Option Failure

def commit (live : LiveTurn) (turn : OpenTurn) (terminal : Terminal) (ofFrame : Bool) :
    Outcome LiveTurn where
  state := { live with turn := none, commits := live.commits ++ [⟨turn, terminal, ofFrame, none⟩] }
  calls := [turn.commit terminal]
  error := none

/-- A frame of an open turn. -/
def applyTo (live : LiveTurn) (turn : OpenTurn) (message : IdentifiedMessage) : Outcome LiveTurn :=
  if turn.isStale message then ⟨{ live with turn }, [], none⟩
  else if turn.bytesWith message > MAX_OPEN_TURN_BYTES then
    ⟨{ live with turn }, [], some (.error "conversation.quota_exceeded")⟩
  else
    match message.terminal with
    | some terminal => live.commit (turn.withMessage message) terminal true
    | none => ⟨{ live with turn := some (turn.withMessage message) }, [], none⟩

/-- The next frame; without an open turn its request is asked for. -/
def apply (live : LiveTurn) : Option (Outcome LiveTurn) :=
  match live.busy, live.waiting with
  | false, message :: waiting =>
      let live := { live with waiting }
      match live.turn with
      | some turn => some (live.applyTo turn message)
      | none =>
          match parseRequest (some message.identity) with
          | .ok _ => some ⟨{ live with asking := some message }, [], none⟩
          | .error failure => some ⟨live, [], some failure⟩
  | _, _ => none

/-- The answer of `isAcceptedTurn`; none where the store fails. -/
def accepted (live : LiveTurn) (answer : Option Bool) : Option (Outcome LiveTurn) :=
  live.asking.map fun message =>
    let live := { live with asking := none }
    match answer with
    | some true => live.applyTo (.opened live.workspaceId message) message
    | some false => ⟨live, [], some (.error "conversation.request_not_accepted")⟩
    | none => ⟨live, [], some (.error "store")⟩

/-- Refused writes cannot succeed later. -/
def permanent : Failure → Bool
  | .apiError _ _ => true
  | .error message => message = "conversation.quota_exceeded"
  | .taken => false
  | .invalid => false

/-- What `commit` does with the answer: a turn whose write failed is open again. -/
def answered (live : LiveTurn) (pending : PendingCommit) : Except Failure Unit → Outcome LiveTurn
  | .ok _ => ⟨live, [], none⟩
  | .error failure =>
      ⟨if permanent failure then live
        else { live with turn := some { pending.turn with terminal := some pending.terminal } },
        [], some failure⟩

/-- An answer of the store. -/
def answer (live : LiveTurn) (index : Nat) (lost : Bool) : Option (Outcome LiveTurn) := do
  let pending ← live.commits[index]?
  let result ← pending.answer lost
  return { live with commits := live.commits.eraseIdx index }.answered pending result

/-- `close` comes to the turn. -/
def close (live : LiveTurn) (endedAt : String) : Option (Outcome LiveTurn) :=
  live.turn.map fun turn =>
    live.commit turn (turn.terminal.getD ⟨.interrupted, some "workspace_ended", endedAt⟩) false

end LiveTurn

/-- The events of a turn and of the store. -/
inductive LiveEvent where
  | receive (message : IdentifiedMessage)
  | apply
  | accepted (answer : Option Bool)
  | answer (index : Nat) (lost : Bool)
  | close (endedAt : String)
  /-- The store runs the transaction of a commit. -/
  | store (index : Nat) (randomUUID : Nat → String)
  /-- The store runs another transaction, or a commit whose answer was lost. -/
  | other (operation : Operation)

structure LiveSystem where
  live : LiveTurn
  db : Database

namespace LiveSystem

open LiveTurn (Outcome)

def inMemory (system : LiveSystem) (outcome : Outcome LiveTurn) : Outcome LiveSystem :=
  ⟨{ system with live := outcome.state }, outcome.calls, outcome.error⟩

def store (system : LiveSystem) (index : Nat) (randomUUID : Nat → String) :
    Option (Outcome LiveSystem) := do
  let pending ← system.live.commits[index]?
  let call := pending.turn.commit pending.terminal
  let result := (commitConversationTurn randomUUID call system.db).map fun _ => ()
  let commits := system.live.commits.set index { pending with result := some result }
  if pending.result.isSome then none
  else some ⟨{ live := { system.live with commits }
               db := system.db.step (.commitConversationTurn randomUUID call) }, [], none⟩

def step (system : LiveSystem) : LiveEvent → Option (Outcome LiveSystem)
  | .receive message =>
      some (system.inMemory
        ⟨{ system.live with waiting := system.live.waiting ++ [message] }, [], none⟩)
  | .apply => system.live.apply.map system.inMemory
  | .accepted answer => (system.live.accepted answer).map system.inMemory
  | .answer index lost => (system.live.answer index lost).map system.inMemory
  | .close endedAt => (system.live.close endedAt).map system.inMemory
  | .store index randomUUID => system.store index randomUUID
  | .other operation => some ⟨{ system with db := system.db.step operation }, [], none⟩

end LiveSystem

/-- A step, the commits that it calls for, and the error that it ends with. -/
structure LiveLabel where
  event : LiveEvent
  calls : List ConversationTurnCommit
  error : Option Failure

/-- The steps; no conversion of rows of an earlier release writes into a cleared
conversation. -/
structure LiveSteps (system : LiveSystem) (label : LiveLabel) (system' : LiveSystem) : Prop where
  step : system.step label.event = some ⟨system', label.calls, label.error⟩
  unrevived : ∀ randomUUID workspaceId,
    label.event = .other (.convertLegacyConversations randomUUID workspaceId) →
      system.db.Unrevived workspaceId

def received (trace : List LiveLabel) : List IdentifiedMessage :=
  trace.filterMap fun label => match label.event with
    | .receive message => some message
    | _ => none

/-- The calls of `commitConversationTurn`. -/
def commitCalls (trace : List LiveLabel) : List ConversationTurnCommit := trace.flatMap (·.calls)

end PocketCoder.Conversations
