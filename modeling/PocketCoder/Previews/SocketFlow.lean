import Mathlib.Logic.Function.Basic
import PocketCoder.Foundation.Bytes
import PocketCoder.Foundation.Transitions

/-!
Preview sockets (`contracts/src/previews/socket-flow.ts`): a flow of messages
with one unacknowledged message at a time, and a budget for the queued bytes
of all flows of one side.

A `Port` is what an operation of a flow reads and writes: the flow, the budget
of its side, the channel to its peer and its socket. The calls that the
operations make at their end (`send`, `socket.close`, `onClose`) can only come
back to a flow that has finished its own work. `socket.send` comes before the
first call of `acknowledge`, so that call is a step of its own: whatever
`socket.send` calls may happen before it.
-/

namespace PocketCoder.Previews

open PocketCoder.Foundation

def PREVIEW_FRAME_BYTES : Nat := 65536
def PREVIEW_QUEUE_BYTES : Nat := 8 * 1024 * 1024

/-- What a socket sends or gets: `string | Uint8Array`. -/
inductive SocketData where
  | text (value : String)
  | binary (bytes : Bytes)
  deriving DecidableEq

/-- A queued message. -/
structure QueuedMessage where
  bytes : Bytes
  binary : Bool
  deriving DecidableEq

/-- `PreviewSocketMessage`; the content is written as base64 on the wire. -/
inductive SocketMessage where
  | data (seq : Nat) (binary : Bool) (content : Bytes)
  | ack (seq : Nat)
  | close
  deriving DecidableEq

/-- The fields of a flow. `acknowledging` is the message of the running call
of `acknowledge`, with or without a timer. -/
structure PreviewSocketFlow where
  queue : List QueuedMessage
  pending : Option QueuedMessage
  sequence : Nat
  expected : Nat
  receiving : Bool
  ended : Bool
  acknowledging : Option Nat

def PreviewSocketFlow.new : PreviewSocketFlow where
  queue := []
  pending := none
  sequence := 0
  expected := 0
  receiving := false
  ended := false
  acknowledging := none

/-- A flow with its surroundings: the bytes of the budget, what has been sent
to the peer and not read, and what the socket was given. -/
structure Port where
  flow : PreviewSocketFlow
  budget : Int
  channel : List SocketMessage
  handed : List SocketData

/-- What a message costs: its payload and the queued object. -/
def cost (message : QueuedMessage) : Nat := message.bytes.length + 256

/-- The message for a call of `output`. -/
def SocketData.message : SocketData → QueuedMessage
  | .text value => { bytes := utf8 value, binary := false }
  | .binary bytes => { bytes, binary := true }

namespace Port

def release (port : Port) (bytes : Nat) : Port := { port with budget := port.budget - bytes }

def send (port : Port) (message : SocketMessage) : Port :=
  { port with channel := port.channel ++ [message] }

def close (port : Port) (notify : Bool) : Port :=
  if port.flow.ended then port
  else
    let port := port.flow.queue.foldl (fun port item => port.release (cost item)) port
    let port := port.flow.pending.elim port fun item => port.release (cost item)
    let port := { port with
      flow := { port.flow with ended := true, queue := [], pending := none, acknowledging := none } }
    if notify then port.send .close else port

def flush (port : Port) : Port :=
  if port.flow.pending.isSome || port.flow.ended then port
  else
    match port.flow.queue with
    | [] => port
    | item :: queue =>
        { port with flow := { port.flow with queue, pending := some item } }.send
          (.data port.flow.sequence item.binary item.bytes)

def output (port : Port) (raw : SocketData) : Port :=
  if port.flow.ended then port
  else
    let item := raw.message
    let budget := port.budget + cost item
    let reserved := budget ≤ PREVIEW_QUEUE_BYTES
    let port := { port with budget, flow := { port.flow with queue := port.flow.queue ++ [item] } }
    if item.bytes.length > PREVIEW_FRAME_BYTES ∨ ¬reserved then port.close true else port.flush

/-- The message does not fit the state of the flow, and closes it. -/
def mismatch (flow : PreviewSocketFlow) : SocketMessage → Bool
  | .close => false
  | .ack seq => flow.pending.isNone || seq ≠ flow.sequence
  | .data seq _ content =>
      flow.receiving || seq ≠ flow.expected || content.length > PREVIEW_FRAME_BYTES

/-- `receive`, up to the first call of `acknowledge`. -/
def receive (decode : Bytes → String) (port : Port) (message : SocketMessage) : Port :=
  if port.flow.ended then port
  else if mismatch port.flow message then port.close true
  else
    match message with
    | .close => port.close false
    | .ack _ =>
        let port := port.flow.pending.elim port fun item => port.release (cost item)
        { port with
          flow := { port.flow with pending := none, sequence := port.flow.sequence + 1 } }.flush
    | .data seq binary content =>
        { port with
          flow := { port.flow with receiving := true, acknowledging := some seq }
          handed := port.handed ++ [if binary then .binary content else .text (decode content)] }

/-- A call of `acknowledge`. `late` says that thirty seconds have passed, and
`buffered` is what the socket still holds. -/
def acknowledge (port : Port) (late : Bool) (buffered : Nat) : Port :=
  match port.flow.acknowledging with
  | none => port
  | some seq =>
      if port.flow.ended then port
      else if late ∨ buffered > PREVIEW_QUEUE_BYTES then port.close true
      else if buffered > 0 then port
      else
        { port with
          flow := { port.flow with
            receiving := false, expected := port.flow.expected + 1, acknowledging := none } }.send
          (.ack seq)

end Port

/-! ### Two sides -/

inductive Side where
  | server
  | supervisor
  deriving DecidableEq

def Side.other : Side → Side
  | .server => .supervisor
  | .supervisor => .server

/-- Two flows that are each other's peer. `channel side` holds what that side
has sent, `given side` what its `output` was called with, and `handed side`
what its socket was given. -/
structure Link where
  flow : Side → PreviewSocketFlow
  channel : Side → List SocketMessage
  given : Side → List SocketData
  handed : Side → List SocketData

def Link.new : Link where
  flow _ := .new
  channel _ := []
  given _ := []
  handed _ := []

/-- All links, with the budget of each side. -/
structure System where
  budget : Side → Int
  links : List Link

def System.new : System where
  budget _ := 0
  links := []

namespace System

/-- An operation of the flow of one side of a link. -/
def atPort (system : System) (n : Nat) (side : Side) (operation : Port → Port) : System :=
  match system.links[n]? with
  | none => system
  | some link =>
      let port := operation
        { flow := link.flow side, budget := system.budget side, channel := link.channel side
          handed := link.handed side }
      { budget := Function.update system.budget side port.budget
        links := system.links.set n
          { link with
            flow := Function.update link.flow side port.flow
            channel := Function.update link.channel side port.channel
            handed := Function.update link.handed side port.handed } }

/-- A call of `output` is noted, also when the flow has ended. -/
def note (system : System) (n : Nat) (side : Side) (raw : SocketData) : System :=
  match system.links[n]? with
  | none => system
  | some link =>
      { system with
        links := system.links.set n
          { link with given := Function.update link.given side (link.given side ++ [raw]) } }

/-- The oldest message for a side is read. -/
def take (system : System) (n : Nat) (side : Side) : Option (SocketMessage × System) :=
  match system.links[n]? with
  | none => none
  | some link =>
      match link.channel side.other with
      | [] => none
      | message :: rest =>
          some (message,
            { system with
              links := system.links.set n
                { link with channel := Function.update link.channel side.other rest } })

end System

/-- What can happen: a pair of flows is made, a socket has output, a message
arrives, `acknowledge` runs, or a flow is closed, by its socket, by the timer
of an acknowledgement or from outside. -/
inductive Event where
  | connect
  | output (n : Nat) (side : Side) (raw : SocketData)
  | receive (n : Nat) (side : Side)
  | acknowledge (n : Nat) (side : Side) (late : Bool) (buffered : Nat)
  | close (n : Nat) (side : Side) (notify : Bool)

def System.step (decode : Bytes → String) (system : System) : Event → System
  | .connect => { system with links := system.links ++ [Link.new] }
  | .output n side raw => (system.note n side raw).atPort n side fun port => port.output raw
  | .receive n side =>
      match system.take n side with
      | none => system
      | some (message, system) => system.atPort n side fun port => port.receive decode message
  | .acknowledge n side late buffered =>
      system.atPort n side fun port => port.acknowledge late buffered
  | .close n side notify => system.atPort n side fun port => port.close notify

/-- One step of the system. -/
def Steps (decode : Bytes → String) (system : System) (event : Event) (system' : System) : Prop :=
  system' = system.step decode event

end PocketCoder.Previews
