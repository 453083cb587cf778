import Mathlib.Data.List.Basic
import PocketCoder.Conversations.RecordDocument
import PocketCoder.Foundation.Json
import PocketCoder.Foundation.TextBlocks

/-!
The events that an agent sends (`remote/src/stream/agentapi-events.ts`), read
from a stream of chunks.

`JSON.parse` and the schema of a conversation message are parameters, of which
nothing is assumed. The signal does not abort.
-/

namespace PocketCoder.Remote

open PocketCoder.Foundation PocketCoder.Conversations

/-- JSON values, with what the parser asks of them. -/
structure EventSyntax (V : Type) where
  /-- `JSON.parse`; none where it throws. -/
  parse : String → Option V
  /-- `typeof value === "object" && value !== null`. -/
  isRecord : V → Bool
  /-- `record[key]`. -/
  get : V → String → Option V
  isNumber : V → Bool
  text : V → Option String
  /-- `ConversationMessageInputSchema.safeParse`. -/
  conversationMessage : V → Option MessageInput

inductive AgentApiEvent (V : Type) where
  | messageUpdate (data : V)
  | statusChange (data : V)
  | agentError (data : V)
  | conversationMessage (data : MessageInput)
  deriving DecidableEq

/-- The fields of a block that have been read. -/
structure BlockFields where
  event : List Char
  data : List (List Char)
  deriving DecidableEq

/-- One line of a block. -/
def readLine (fields : BlockFields) (line : List Char) : BlockFields :=
  if line.head? = some ':' then fields
  else
    let field := line.takeWhile (· ≠ ':')
    let value := (line.dropWhile (· ≠ ':')).tail
    let value := if value.head? = some ' ' then value.tail else value
    { event := if field = "event".toList then value else fields.event
      data := if field = "data".toList then fields.data ++ [value] else fields.data }

variable {V : Type} (syn : EventSyntax V)

def eventPayload (block : List Char) : Option (String × V) :=
  let fields := (block.splitOn '\n').foldl readLine ⟨"message".toList, []⟩
  if fields.data = [] then none
  else
    ((syn.parse (String.ofList (List.intercalate ['\n'] fields.data))).filter syn.isRecord).map
      fun parsed => (String.ofList fields.event, parsed)

def textField (parsed : V) (key : String) : Option String := (syn.get parsed key).bind syn.text

/-- A conversation message that states a fact. -/
def factMessage (parsed : V) : Option (AgentApiEvent V) :=
  ((syn.conversationMessage parsed).filter fun message => message.fact.isSome).map
    .conversationMessage

def parseEvent (block : List Char) : Option (AgentApiEvent V) :=
  match eventPayload syn block with
  | none => none
  | some (event, parsed) =>
      if event = "conversation_message" then factMessage syn parsed
      else if event = "message_update" && (syn.get parsed "id").any syn.isNumber &&
          (textField syn parsed "message").isSome && (textField syn parsed "role").isSome then
        some (.messageUpdate parsed)
      else if event = "status_change" && (textField syn parsed "status" = some "running" ||
          textField syn parsed "status" = some "stable") then
        some (.statusChange parsed)
      else if event = "agent_error" && (textField syn parsed "message").isSome then
        some (.agentError parsed)
      else none

/-- What `readAgentApiEvents` keeps between two chunks. -/
structure EventReader where
  decoder : TextDecoder
  buffer : List Char

def EventReader.new : EventReader := ⟨.new, []⟩

/-- One chunk: the events of the blocks that it completes. -/
def EventReader.read (reader : EventReader) (chunk : Bytes) : List (AgentApiEvent V) × EventReader :=
  let (text, decoder) := reader.decoder.decode chunk
  let (blocks, buffer) := cutBlocks (readLineEnds (reader.buffer ++ text))
  (blocks.filterMap (parseEvent syn), ⟨decoder, buffer⟩)

/-- The events that are yielded, from a state of the reader. -/
def EventReader.events (reader : EventReader) : List Bytes → List (AgentApiEvent V)
  | [] => []
  | chunk :: chunks => (reader.read syn chunk).1 ++ (reader.read syn chunk).2.events chunks

def readAgentApiEvents (chunks : List Bytes) : List (AgentApiEvent V) := EventReader.new.events syn chunks

/-! ### The whole stream -/

/-- The stream decoded as UTF-8. -/
def streamText (bytes : Bytes) : List Char :=
  (TextDecoder.new.decode bytes).1 ++ (TextDecoder.new.decode bytes).2.finish

/-- The complete blocks of the stream, with one kind of line end. -/
def streamBlocks (bytes : Bytes) : List (List Char) := (cutBlocks (readLineEnds (streamText bytes))).1

/-- What the reader keeps once the bytes have come. -/
def EventReader.after (bytes : Bytes) : EventReader where
  decoder := (TextDecoder.new.decode bytes).2
  buffer := (cutBlocks (readLineEnds (TextDecoder.new.decode bytes).1)).2

/-- The events of the complete blocks of a text. -/
def textEvents (text : List Char) : List (AgentApiEvent V) :=
  (cutBlocks (readLineEnds text)).1.filterMap (parseEvent syn)

variable {syn}

/-- The text that has come, and the text that comes with a chunk. -/
theorem returnsPaired_prefix {bytes more : Bytes} (h : PairedBytes (bytes ++ more)) :
    ReturnsPaired (TextDecoder.new.decode bytes).1 := by
  have hall := TextDecoder.returnsPaired_decode h
  rw [TextDecoder.decode_append] at hall
  exact List.IsChain.left_of_append hall

/-- A chunk gives the events that its text adds. -/
theorem EventReader.read_after {bytes chunk more : Bytes}
    (h : PairedBytes (bytes ++ (chunk ++ more))) :
    textEvents syn (TextDecoder.new.decode bytes).1 ++
        ((EventReader.after bytes).read syn chunk).1 =
      textEvents syn (TextDecoder.new.decode (bytes ++ chunk)).1 ∧
    ((EventReader.after bytes).read syn chunk).2 = .after (bytes ++ chunk) := by
  have hpaired := returnsPaired_prefix h
  have hcut := cutBlocks_readLineEnds (returnsLast_readLineEnds hpaired)
    ((TextDecoder.new.decode bytes).2.decode chunk).1
  rw [← readLineEnds_append hpaired] at hcut
  constructor
  · simp only [textEvents, TextDecoder.decode_append, hcut, List.filterMap_append]
    rfl
  · simp only [EventReader.after, TextDecoder.decode_append, hcut]
    rfl

/-- The events of the chunks that are still to come complete those of the text. -/
theorem EventReader.events_after {bytes : Bytes} {chunks : List Bytes}
    (h : PairedBytes (bytes ++ chunks.flatten)) :
    textEvents syn (TextDecoder.new.decode bytes).1 ++ (EventReader.after bytes).events syn chunks =
      textEvents syn (TextDecoder.new.decode (bytes ++ chunks.flatten)).1 := by
  induction chunks generalizing bytes with
  | nil => rw [EventReader.events, List.append_nil, List.flatten_nil, List.append_nil]
  | cons chunk chunks ih =>
      rw [List.flatten_cons] at h ⊢
      obtain ⟨hevents, hafter⟩ := @EventReader.read_after _ syn _ _ _ h
      rw [EventReader.events, ← List.append_assoc, hevents, hafter, ih, List.append_assoc]
      rwa [List.append_assoc]

/-- The end of the input completes no block. -/
theorem textEvents_finish {bytes : Bytes} (h : PairedBytes bytes) :
    textEvents syn (streamText bytes) = textEvents syn (TextDecoder.new.decode bytes).1 := by
  have hpaired := TextDecoder.returnsPaired_decode h
  have hfinish : (TextDecoder.new.decode bytes).2.finish = [] ∨
      (TextDecoder.new.decode bytes).2.finish = [Utf8State.replacement] := by
    rw [TextDecoder.finish, Utf8State.flush]
    split_ifs
    · exact .inl rfl
    · refine .inr ?_
      rw [TextDecoder.serialize, if_neg]
      simp [Utf8State.replacement]
  rcases hfinish with hfinish | hfinish
  · rw [streamText, hfinish, List.append_nil]
  · have hlast := returnsLast_readLineEnds hpaired
    have hrest := cutBlock_rest (readLineEnds (TextDecoder.new.decode bytes).1)
    rw [streamText, hfinish, textEvents, readLineEnds_append hpaired, cutBlocks_readLineEnds hlast]
    rw [readLineEnds_concat, cutBlocks_of_none (cutBlock_concat hrest (by decide)), List.append_nil]
    · rfl
    · rw [← flatMap_cutBlocks (readLineEnds (TextDecoder.new.decode bytes).1)] at hlast
      exact hlast.right_of_append
    · decide

/-- However the stream is cut into chunks, the events are those of its complete
blocks, in order. -/
theorem readAgentApiEvents_chunks {bytes : Bytes} (h : PairedBytes bytes) {chunks : List Bytes}
    (hchunks : chunks.flatten = bytes) :
    readAgentApiEvents syn chunks = (streamBlocks bytes).filterMap (parseEvent syn) := by
  subst hchunks
  have hevents := @EventReader.events_after _ syn [] chunks h
  have hempty : cutBlocks (readLineEnds (TextDecoder.new.decode []).1) = ([], []) :=
    cutBlocks_of_none rfl
  rw [List.nil_append, ← textEvents_finish h, EventReader.after, textEvents, hempty] at hevents
  exact hevents

/-! ### A stream that is cut in bad places -/

namespace Stream

def field : Json → String → Option Json
  | .obj fields, key => (fields.find? (·.1 = key)).map Prod.snd
  | _, _ => none

/-- JSON with whole numbers; the stream has no conversation message. -/
def json : EventSyntax Json where
  parse := Json.parse
  isRecord value := match value with
    | .obj _ | .arr _ => true
    | _ => false
  get := field
  isNumber value := match value with
    | .num _ => true
    | _ => false
  text value := match value with
    | .str text => some text
    | _ => none
  conversationMessage _ := none

def error : Json := .obj [("message", .str "é")]

def block : String := "event: agent_error\ndata: " ++ error.stringify

/-- An error event, with a character of two bytes, and the start of another. -/
def bytes : Bytes :=
  utf8 ("event: agent_error\r\ndata: " ++ error.stringify ++ "\r\n\r\nevent")

end Stream

/-- Every byte comes alone: the character and the line ends are cut. -/
theorem readAgentApiEvents_bytes :
    readAgentApiEvents Stream.json (Stream.bytes.map fun b => [b]) =
      [.agentError Stream.error] := by
  have hpaired : PairedBytes Stream.bytes := by decide +kernel
  have hcut : cutBlock (readLineEnds (streamText Stream.bytes)) =
      some (Stream.block.toList, "event".toList) := by
    decide +kernel
  have hrest : cutBlock "event".toList = none := by decide +kernel
  have hfields : (Stream.block.toList.splitOn '\n').foldl readLine ⟨"message".toList, []⟩ =
      ⟨"agent_error".toList, [Stream.error.stringify.toList]⟩ := by
    decide +kernel
  have hpayload : eventPayload Stream.json Stream.block.toList =
      some ("agent_error", Stream.error) := by
    rw [eventPayload, hfields, if_neg (List.cons_ne_nil _ _), List.intercalate_singleton,
      String.ofList_toList, String.ofList_toList, show Stream.json.parse _ = _ from Json.parse_stringify _]
    rfl
  have hmessage : textField Stream.json Stream.error "message" = some "é" := rfl
  have hevent : parseEvent Stream.json Stream.block.toList = some (.agentError Stream.error) := by
    rw [parseEvent, hpayload]
    simp [hmessage]
  rw [readAgentApiEvents_chunks hpaired (by decide +kernel), streamBlocks, cutBlocks_of_some hcut,
    cutBlocks_of_none hrest, List.filterMap_cons, hevent]
  rfl

end PocketCoder.Remote
