import PocketCoder.Previews.SocketFlow

/-!
What one direction of a preview socket promises, and that every operation of
either end keeps it.

`Direction a b ab ba given handed` is about the messages from flow `a` to flow
`b`: `ab` and `ba` are the channels from and to `a`, `given` is what the
`output` of `a` was called with, and `handed` is what the socket of `b` has
got. At most one message is on its way, and where it is decides what the two
flows agree on.
-/

namespace PocketCoder.Previews

open PocketCoder.Foundation

/-! ### One direction -/

def SocketMessage.isData : SocketMessage → Bool
  | .data .. => true
  | _ => false

/-- The messages in a channel. -/
def dataOf (channel : List SocketMessage) : List SocketMessage := channel.filter SocketMessage.isData

/-- The acknowledgements in a channel. -/
def acksOf (channel : List SocketMessage) : List Nat :=
  channel.filterMap fun message =>
    match message with
    | .ack seq => some seq
    | _ => none

/-- The message that `flush` sends. -/
def frame (seq : Nat) (raw : SocketData) : SocketMessage :=
  .data seq raw.message.binary raw.message.bytes

/-- The sender waits for the acknowledgement of the message `seq`. -/
def Awaits (a : PreviewSocketFlow) (seq : Nat) : Prop :=
  a.ended = false → a.pending.isSome = true ∧ a.sequence = seq

structure Direction (a b : PreviewSocketFlow) (ab ba : List SocketMessage)
    (given handed : List SocketData) : Prop where
  /-- What was handed on is the beginning of what was given. -/
  handed_take : handed = given.take handed.length
  handed_length : handed.length = b.expected + if b.receiving then 1 else 0
  /-- A message in the channel is the one that the receiver expects. -/
  data : dataOf ab = [] ∨ ∃ raw, given[b.expected]? = some raw ∧
    dataOf ab = [frame b.expected raw] ∧ raw.message.bytes.length ≤ PREVIEW_FRAME_BYTES ∧
    b.receiving = false ∧ acksOf ba = [] ∧ Awaits a b.expected
  receiving : b.receiving = true → dataOf ab = [] ∧ acksOf ba = [] ∧ Awaits a b.expected
  acks : acksOf ba = [] ∨ ∃ seq, acksOf ba = [seq] ∧ seq + 1 = b.expected ∧ dataOf ab = [] ∧
    b.receiving = false ∧ Awaits a seq
  /-- What the sender holds is what was given and not acknowledged. -/
  queued : a.ended = false → a.sequence ≤ given.length ∧
    (given.drop a.sequence).map SocketData.message = a.pending.toList ++ a.queue ∧
    ∀ message ∈ a.pending.toList ++ a.queue, message.bytes.length ≤ PREVIEW_FRAME_BYTES
  quiet : a.ended = false → a.pending = none → a.sequence = b.expected
  /-- The acknowledgement on its way out is the one for the message handed on. -/
  acknowledges : b.ended = false → ∀ seq, b.acknowledging = some seq →
    b.receiving = true ∧ seq = b.expected

theorem Direction.new : Direction .new .new [] [] [] [] where
  handed_take := rfl
  handed_length := rfl
  data := .inl rfl
  receiving h := by cases h
  acks := .inl rfl
  queued _ := ⟨Nat.le_refl _, rfl, fun _ h => by cases h⟩
  quiet _ _ := rfl
  acknowledges _ _ h := by cases h

@[simp] theorem dataOf_append (before after : List SocketMessage) :
    dataOf (before ++ after) = dataOf before ++ dataOf after := List.filter_append ..

@[simp] theorem acksOf_append (before after : List SocketMessage) :
    acksOf (before ++ after) = acksOf before ++ acksOf after := List.filterMap_append

variable {a a' b b' : PreviewSocketFlow} {ab ab' ba ba' : List SocketMessage}
  {given handed : List SocketData}

/-- The receiver does something that is not about this direction. -/
theorem Direction.receiver (h : Direction a b ab ba given handed)
    (hexpected : b'.expected = b.expected) (hreceiving : b'.receiving = b.receiving)
    (hsame : b'.ended = false → b.ended = false ∧ b'.acknowledging = b.acknowledging)
    (hacks : acksOf ba' = acksOf ba) : Direction a b' ab ba' given handed where
  handed_take := h.handed_take
  handed_length := by rw [hexpected, hreceiving, h.handed_length]
  data := by
    rw [hexpected, hreceiving, hacks]
    exact h.data
  receiving := by
    rw [hexpected, hreceiving, hacks]
    exact h.receiving
  acks := by
    rw [hexpected, hreceiving, hacks]
    exact h.acks
  queued := h.queued
  quiet := by
    rw [hexpected]
    exact h.quiet
  acknowledges := by
    intro hopen seq hseq
    rw [hexpected, hreceiving]
    exact h.acknowledges (hsame hopen).1 seq ((hsame hopen).2 ▸ hseq)

/-- The sender has ended, or does no more in this direction than to queue what
its `output` is given. -/
theorem Direction.sender {noted : List SocketData} (h : Direction a b ab ba given handed)
    (hsame : a'.ended = false → a.ended = false ∧ a'.pending = a.pending ∧
      a'.sequence = a.sequence ∧ a'.queue = a.queue ++ noted.map SocketData.message ∧
      ∀ raw ∈ noted, raw.message.bytes.length ≤ PREVIEW_FRAME_BYTES)
    (hdata : dataOf ab' = dataOf ab) : Direction a' b ab' ba (given ++ noted) handed := by
  -- a sender that goes on waits for the same acknowledgment
  have hawaits : ∀ seq, Awaits a seq → Awaits a' seq := by
    intro seq hseq hopen
    obtain ⟨hended, hpending, hsequence, -⟩ := hsame hopen
    rw [hpending, hsequence]
    exact hseq hended
  have hlength : handed.length ≤ given.length := by
    have hshort := congrArg List.length h.handed_take
    rw [List.length_take] at hshort
    omega
  refine ⟨?_, h.handed_length, ?_, fun hreceiving => ?_, ?_, fun hopen => ?_,
    fun hopen hnone => ?_, h.acknowledges⟩
  · rw [List.take_append_of_le_length hlength]
    exact h.handed_take
  · rw [hdata]
    rcases h.data with hnone | ⟨raw, hraw, hframe, hsmall, hreceiving, hacks, hwait⟩
    · exact .inl hnone
    · refine .inr ⟨raw, ?_, hframe, hsmall, hreceiving, hacks, hawaits _ hwait⟩
      rw [List.getElem?_append_left (List.getElem?_eq_some_iff.mp hraw).1]
      exact hraw
  · obtain ⟨hnone, hacks, hwait⟩ := h.receiving hreceiving
    exact ⟨hdata.trans hnone, hacks, hawaits _ hwait⟩
  · rcases h.acks with hnone | ⟨seq, hacks, hseq, hdata', hreceiving, hwait⟩
    · exact .inl hnone
    · exact .inr ⟨seq, hacks, hseq, hdata.trans hdata', hreceiving, hawaits _ hwait⟩
  · obtain ⟨hended, hpending, hsequence, hqueue, hsmall⟩ := hsame hopen
    obtain ⟨hle, hheld, hfits⟩ := h.queued hended
    rw [hpending, hsequence, hqueue, ← List.append_assoc]
    refine ⟨?_, ?_, fun message hmem => ?_⟩
    · rw [List.length_append]
      omega
    · rw [List.drop_append_of_le_length hle, List.map_append, hheld]
    · rcases List.mem_append.mp hmem with hmem | hmem
      · exact hfits message hmem
      · obtain ⟨raw, hraw, rfl⟩ := List.mem_map.mp hmem
        exact hsmall raw hraw
  · obtain ⟨hended, hpending, hsequence, -⟩ := hsame hopen
    rw [hsequence]
    exact h.quiet hended (hpending.symm.trans hnone)

/-- A message that is read, and has no effect. -/
theorem Direction.drop_sent {message : SocketMessage}
    (h : Direction a b (message :: ab) ba given handed) : Direction a b ab ba given handed := by
  have hdata : dataOf (message :: ab) = [] → dataOf ab = [] := by
    intro hnone
    rw [dataOf, List.filter_eq_nil_iff] at hnone ⊢
    exact fun other hmem => hnone other (List.mem_cons_of_mem _ hmem)
  refine ⟨h.handed_take, h.handed_length, ?_, fun hreceiving => ?_, ?_, h.queued, h.quiet,
    h.acknowledges⟩
  · rcases h.data with hnone | ⟨raw, hraw, hframe, hrest⟩
    · exact .inl (hdata hnone)
    · cases hkind : message.isData with
      | false =>
          refine .inr ⟨raw, hraw, ?_, hrest⟩
          rwa [dataOf, List.filter_cons_of_neg (by rw [hkind]; decide)] at hframe
      | true =>
          rw [dataOf, List.filter_cons_of_pos hkind, List.cons.injEq] at hframe
          exact .inl hframe.2
  · obtain ⟨hnone, hrest⟩ := h.receiving hreceiving
    exact ⟨hdata hnone, hrest⟩
  · rcases h.acks with hnone | ⟨seq, hacks, hseq, hnone, hrest⟩
    · exact .inl hnone
    · exact .inr ⟨seq, hacks, hseq, hdata hnone, hrest⟩

theorem Direction.drop_got {message : SocketMessage}
    (h : Direction a b ab (message :: ba) given handed) : Direction a b ab ba given handed := by
  have hcons : acksOf (message :: ba) = acksOf [message] ++ acksOf ba := acksOf_append [message] ba
  have hacks : acksOf (message :: ba) = [] → acksOf ba = [] := by
    intro hnone
    rw [hcons, List.append_eq_nil_iff] at hnone
    exact hnone.2
  refine ⟨h.handed_take, h.handed_length, ?_, fun hreceiving => ?_, ?_, h.queued, h.quiet,
    h.acknowledges⟩
  · rcases h.data with hnone | ⟨raw, hraw, hframe, hsmall, hreceiving, hnone, hwait⟩
    · exact .inl hnone
    · exact .inr ⟨raw, hraw, hframe, hsmall, hreceiving, hacks hnone, hwait⟩
  · obtain ⟨hdata, hnone, hwait⟩ := h.receiving hreceiving
    exact ⟨hdata, hacks hnone, hwait⟩
  · rcases h.acks with hnone | ⟨seq, hseq, hrest⟩
    · exact .inl (hacks hnone)
    · rw [hcons] at hseq
      cases hmessage : acksOf [message] with
      | nil =>
          rw [hmessage, List.nil_append] at hseq
          exact .inr ⟨seq, hseq, hrest⟩
      | cons first others =>
          rw [hmessage, List.cons_append, List.cons.injEq, List.append_eq_nil_iff] at hseq
          exact .inl hseq.2.2

/-! ### The messages of the direction -/

/-- Nothing is on its way from a sender that waits for no acknowledgement. -/
theorem Direction.idle (h : Direction a b ab ba given handed) (hopen : a.ended = false)
    (hpending : a.pending = none) :
    dataOf ab = [] ∧ acksOf ba = [] ∧ b.receiving = false ∧ a.sequence = b.expected := by
  have hnever : ∀ seq, ¬Awaits a seq := by
    intro seq hwait
    have hsome := (hwait hopen).1
    rw [hpending] at hsome
    cases hsome
  refine ⟨?_, ?_, ?_, h.quiet hopen hpending⟩
  · rcases h.data with hnone | ⟨_, _, _, _, _, _, hwait⟩
    · exact hnone
    · exact absurd hwait (hnever _)
  · rcases h.acks with hnone | ⟨_, _, _, _, _, hwait⟩
    · exact hnone
    · exact absurd hwait (hnever _)
  · cases hreceiving : b.receiving with
    | false => rfl
    | true => exact absurd (h.receiving hreceiving).2.2 (hnever _)

/-- The next message is sent. -/
theorem Direction.flush {item : QueuedMessage} {queue : List QueuedMessage}
    (h : Direction a b ab ba given handed) (hopen : a.ended = false) (hpending : a.pending = none)
    (hqueue : a.queue = item :: queue) :
    Direction { a with queue, pending := some item } b
      (ab ++ [.data a.sequence item.binary item.bytes]) ba given handed := by
  obtain ⟨hdata, hacks, hreceiving, hsequence⟩ := h.idle hopen hpending
  obtain ⟨hle, hheld, hfits⟩ := h.queued hopen
  rw [hpending, hqueue, Option.toList_none, List.nil_append] at hheld hfits
  obtain ⟨raw, hraw, hitem⟩ : ∃ raw, given[a.sequence]? = some raw ∧ raw.message = item := by
    have hfirst := congrArg List.head? hheld
    rw [List.head?_map, List.head?_drop, List.head?_cons, Option.map_eq_some_iff] at hfirst
    exact hfirst
  have hwait : Awaits { a with queue, pending := some item } b.expected := fun _ => ⟨rfl, hsequence⟩
  refine ⟨h.handed_take, h.handed_length, .inr ⟨raw, hsequence ▸ hraw, ?_, ?_, hreceiving, hacks,
    hwait⟩, fun htrue => ?_, .inl hacks, fun _ => ⟨hle, hheld, hfits⟩, fun _ hnone => ?_,
    h.acknowledges⟩
  · rw [dataOf_append, hdata, hsequence, ← hitem]
    rfl
  · rw [hitem]
    exact hfits item List.mem_cons_self
  · rw [hreceiving] at htrue
    cases htrue
  · cases hnone

/-- An acknowledgement is the one that the sender waits for. -/
theorem Direction.ack_awaited {seq : Nat} (h : Direction a b ab (.ack seq :: ba) given handed) :
    seq + 1 = b.expected ∧ dataOf ab = [] ∧ acksOf ba = [] ∧ b.receiving = false ∧
      Awaits a seq := by
  have hcons : acksOf (.ack seq :: ba) = seq :: acksOf ba := rfl
  rcases h.acks with hnone | ⟨seq', hacks, hseq, hdata, hreceiving, hwait⟩
  · rw [hcons] at hnone
    cases hnone
  · rw [hcons, List.cons.injEq] at hacks
    obtain ⟨rfl, hrest⟩ := hacks
    exact ⟨hseq, hdata, hrest, hreceiving, hwait⟩

/-- An acknowledgement is read. -/
theorem Direction.acked {seq : Nat} (h : Direction a b ab (.ack seq :: ba) given handed)
    (hopen : a.ended = false) :
    Direction { a with pending := none, sequence := a.sequence + 1 } b ab ba given handed := by
  obtain ⟨hseq, hdata, hacks, hreceiving, hwait⟩ := h.ack_awaited
  obtain ⟨hsome, hsequence⟩ := hwait hopen
  obtain ⟨item, hitem⟩ := Option.isSome_iff_exists.mp hsome
  obtain ⟨hle, hheld, hfits⟩ := h.queued hopen
  rw [hitem, Option.toList_some, List.singleton_append] at hheld hfits
  have hmore : a.sequence < given.length := by
    have hcount := congrArg List.length hheld
    rw [List.length_map, List.length_drop, List.length_cons] at hcount
    omega
  refine ⟨h.handed_take, h.handed_length, .inl hdata, fun htrue => ?_, .inl hacks,
    fun _ => ⟨hmore, ?_, fun message hmem => hfits message (List.mem_cons_of_mem _ hmem)⟩,
    fun _ _ => ?_, h.acknowledges⟩
  · rw [hreceiving] at htrue
    cases htrue
  · show (given.drop (a.sequence + 1)).map SocketData.message = a.queue
    rw [← List.tail_drop, List.map_tail, hheld, List.tail_cons]
  · show a.sequence + 1 = b.expected
    rw [hsequence, hseq]

/-- A message in the channel is the one that the receiver expects. -/
theorem Direction.data_expected {seq : Nat} {binary : Bool} {content : Bytes}
    (h : Direction a b (.data seq binary content :: ab) ba given handed) :
    ∃ raw, given[b.expected]? = some raw ∧ raw.message = { bytes := content, binary } ∧
      seq = b.expected ∧ content.length ≤ PREVIEW_FRAME_BYTES ∧ dataOf ab = [] ∧
      b.receiving = false ∧ acksOf ba = [] ∧ Awaits a b.expected := by
  have hcons : dataOf (.data seq binary content :: ab) = .data seq binary content :: dataOf ab := rfl
  rcases h.data with hnone | ⟨raw, hraw, hframe, hsmall, hreceiving, hacks, hwait⟩
  · rw [hcons] at hnone
    cases hnone
  · rw [hcons, frame, List.cons.injEq, SocketMessage.data.injEq] at hframe
    obtain ⟨⟨hseq, hbinary, hcontent⟩, hrest⟩ := hframe
    rw [← hcontent] at hsmall
    refine ⟨raw, hraw, ?_, hseq, hsmall, hrest, hreceiving, hacks, hwait⟩
    rw [hcontent, hbinary]

/-- What the socket gets for a message that was queued for `raw`. -/
theorem received_eq {decode : Bytes → String} (hdecode : ∀ s, decode (utf8 s) = s) {raw : SocketData}
    {binary : Bool} {content : Bytes} (h : raw.message = { bytes := content, binary }) :
    (if binary then SocketData.binary content else .text (decode content)) = raw := by
  cases raw with
  | text value =>
      rw [SocketData.message, QueuedMessage.mk.injEq] at h
      obtain ⟨rfl, rfl⟩ := h
      exact congrArg SocketData.text (hdecode value)
  | binary bytes =>
      rw [SocketData.message, QueuedMessage.mk.injEq] at h
      obtain ⟨rfl, rfl⟩ := h
      rfl

/-- The message is handed to the socket. -/
theorem Direction.received {seq : Nat} {binary : Bool} {content : Bytes} {data : SocketData}
    (h : Direction a b (.data seq binary content :: ab) ba given handed)
    (hdata : ∀ raw : SocketData, raw.message = { bytes := content, binary } → data = raw) :
    Direction a { b with receiving := true, acknowledging := some seq } ab ba given
      (handed ++ [data]) := by
  obtain ⟨raw, hraw, hmessage, hseq, -, hrest, hreceiving, hacks, hwait⟩ := h.data_expected
  obtain rfl := hdata raw hmessage
  have hlength : handed.length = b.expected := by
    rw [h.handed_length, hreceiving]
    rfl
  refine ⟨?_, ?_, .inl hrest, fun _ => ⟨hrest, hacks, hwait⟩, .inl hacks, h.queued, h.quiet,
    fun _ seq' hseq' => ⟨rfl, ?_⟩⟩
  · rw [List.length_append, List.length_singleton, List.take_add_one, ← h.handed_take, hlength,
      hraw, Option.toList_some]
  · rw [List.length_append, hlength]
    rfl
  · exact (Option.some.inj hseq').symm.trans hseq

/-- The message is acknowledged. -/
theorem Direction.acknowledged {seq : Nat} (h : Direction a b ab ba given handed)
    (hopen : b.ended = false) (hseq : b.acknowledging = some seq) :
    Direction a { b with receiving := false, expected := b.expected + 1, acknowledging := none } ab
      (ba ++ [.ack seq]) given handed := by
  obtain ⟨hreceiving, rfl⟩ := h.acknowledges hopen seq hseq
  obtain ⟨hdata, hacks, hwait⟩ := h.receiving hreceiving
  refine ⟨h.handed_take, ?_, .inl hdata, fun hfalse => (nomatch hfalse),
    .inr ⟨b.expected, ?_, rfl, hdata, rfl, hwait⟩, h.queued, fun hended hnone => ?_,
    fun _ _ hnone => (nomatch hnone)⟩
  · rw [h.handed_length, hreceiving]
    rfl
  · rw [acksOf_append, hacks]
    rfl
  · have hsome := (hwait hended).1
    rw [hnone] at hsome
    cases hsome

/-! ### The operations of a port -/

/-- What the messages of an open flow cost. -/
def held (flow : PreviewSocketFlow) : Nat :=
  if flow.ended then 0 else ((flow.pending.toList ++ flow.queue).map cost).sum

/-- An operation that reads `read` from the peer and is given `noted` keeps
both directions, and changes the budget as it changes what the flow holds. -/
structure Moves (read : List SocketMessage) (noted : List SocketData) (port port' : Port) :
    Prop where
  sends : ∀ {b ba given handed}, Direction port.flow b port.channel (read ++ ba) given handed →
    Direction port'.flow b port'.channel ba (given ++ noted) handed
  gets : ∀ {a ab given}, Direction a port.flow (read ++ ab) port.channel given port.handed →
    Direction a port'.flow ab port'.channel given port'.handed
  budget : port'.budget - held port'.flow = port.budget - held port.flow

theorem Moves.trans {read : List SocketMessage} {noted : List SocketData} {port port' port'' : Port}
    (h : Moves read noted port port') (h' : Moves [] [] port' port'') :
    Moves read noted port port'' where
  sends hdirection := by
    have hlast := h'.sends (h.sends hdirection)
    rwa [List.append_nil] at hlast
  gets hdirection := h'.gets (h.gets hdirection)
  budget := h'.budget.trans h.budget

theorem Moves.refl (port : Port) : Moves [] [] port port where
  sends h := by rwa [List.append_nil]
  gets h := h
  budget := rfl

/-- A message that is read and makes no difference. -/
theorem Moves.read {noted : List SocketData} {port port' : Port} (message : SocketMessage)
    (h : Moves [] noted port port') : Moves [message] noted port port' where
  sends hdirection := h.sends hdirection.drop_got
  gets hdirection := h.gets hdirection.drop_sent
  budget := h.budget

namespace Port

theorem foldl_release (queue : List QueuedMessage) (port : Port) :
    queue.foldl (fun port item => port.release (cost item)) port =
      { port with budget := port.budget - (queue.map cost).sum } := by
  induction queue generalizing port with
  | nil => simp
  | cons item queue ih =>
      rw [List.foldl_cons, ih, release, List.map_cons, List.sum_cons]
      congr 1
      push_cast
      omega

/-- `close` of an open flow. -/
theorem close_eq {port : Port} (hopen : port.flow.ended = false) (notify : Bool) :
    port.close notify =
      { flow := { port.flow with ended := true, queue := [], pending := none, acknowledging := none }
        budget := port.budget - held port.flow
        channel := port.channel ++ if notify then [.close] else []
        handed := port.handed } := by
  obtain ⟨⟨queue, pending, sequence, expected, receiving, ended, acknowledging⟩, budget, channel,
    handed⟩ := port
  cases hopen
  rw [close, if_neg Bool.false_ne_true, foldl_release]
  cases pending with
  | none =>
      cases notify with
      | false => simp [held]
      | true => simp [held, send]
  | some item =>
      cases notify with
      | false =>
          simp [held, release]
          omega
      | true =>
          simp [held, release, send]
          omega

theorem close_moves (port : Port) (notify : Bool) : Moves [] [] port (port.close notify) := by
  cases hopen : port.flow.ended with
  | true =>
      rw [close, if_pos hopen]
      exact .refl port
  | false =>
      rw [close_eq hopen]
      have hquiet : ∀ notify : Bool, dataOf (if notify then [.close] else []) = [] ∧
          acksOf (if notify then [.close] else []) = [] := by decide
      refine ⟨fun h => h.sender (fun hclosed => (nomatch hclosed)) ?_,
        fun h => h.receiver rfl rfl (fun hclosed => (nomatch hclosed)) ?_, ?_⟩
      · rw [dataOf_append, (hquiet notify).1, List.append_nil]
      · rw [acksOf_append, (hquiet notify).2, List.append_nil]
      · show port.budget - held port.flow - 0 = port.budget - held port.flow
        rw [Int.sub_zero]

theorem flush_moves (port : Port) : Moves [] [] port port.flush := by
  rw [flush]
  split
  case isTrue => exact .refl port
  case isFalse hopen =>
      rw [Bool.or_eq_true, not_or, Bool.not_eq_true, Bool.not_eq_true,
        Option.isSome_eq_false_iff, Option.isNone_iff_eq_none] at hopen
      cases hqueue : port.flow.queue with
      | nil => exact .refl port
      | cons item queue =>
          refine ⟨fun h => ?_, fun h => h.receiver rfl rfl (fun hopen => ⟨hopen, rfl⟩) ?_, ?_⟩
          · rw [List.append_nil]
            exact h.flush hopen.2 hopen.1 hqueue
          · show acksOf (port.channel ++ [_]) = _
            rw [acksOf_append]
            exact List.append_nil _
          · show port.budget - held _ = port.budget - held _
            simp only [held, hopen.1, hopen.2, hqueue]
            rfl

theorem output_moves (port : Port) (raw : SocketData) : Moves [] [raw] port (port.output raw) := by
  cases hopen : port.flow.ended with
  | true =>
      rw [output, if_pos hopen]
      refine ⟨fun h => h.sender (fun hclosed => ?_) rfl, fun h => h, rfl⟩
      rw [hopen] at hclosed
      cases hclosed
  | false =>
      rw [output, if_neg (by rw [hopen]; decide)]
      dsimp only
      have hheld : ∀ flow : PreviewSocketFlow, flow.ended = false →
          held { flow with queue := flow.queue ++ [raw.message] } = held flow + cost raw.message := by
        intro flow hflow
        simp [held, hflow]
        omega
      split
      -- too large for a frame or for the budget: the port closes and gives back what it holds
      case isTrue =>
          rw [close_eq (by exact hopen)]
          refine ⟨fun h => h.sender (fun hclosed => (nomatch hclosed)) ?_,
            fun h => h.receiver rfl rfl (fun hclosed => (nomatch hclosed)) ?_, ?_⟩
          · rw [dataOf_append]
            exact List.append_nil _
          · rw [acksOf_append]
            exact List.append_nil _
          · show port.budget + cost raw.message - held { port.flow with
                queue := port.flow.queue ++ [raw.message] } - 0 = port.budget - held port.flow
            rw [hheld _ hopen]
            push_cast
            omega
      case isFalse hfits =>
          refine Moves.trans ?_ (flush_moves _)
          refine ⟨fun h => h.sender (fun _ => ⟨hopen, rfl, rfl, rfl, fun other hmem => ?_⟩) rfl,
            fun h => h.receiver rfl rfl (fun hflow => ⟨hflow, rfl⟩) rfl, ?_⟩
          · rw [List.mem_singleton.mp hmem]
            exact Nat.le_of_not_lt fun hlarge => hfits (.inl hlarge)
          · show port.budget + cost raw.message - held _ = _
            rw [hheld _ hopen]
            push_cast
            omega

theorem receive_moves {decode : Bytes → String} (hdecode : ∀ s, decode (utf8 s) = s) (port : Port)
    (message : SocketMessage) : Moves [message] [] port (port.receive decode message) := by
  rw [receive.eq_def]
  split
  case isTrue => exact (Moves.refl port).read message
  case isFalse hended =>
  have hopen : port.flow.ended = false := Bool.eq_false_iff.mpr hended
  split
  case isTrue => exact (close_moves port true).read message
  case isFalse hmatch =>
  cases message with
  | close => exact (close_moves port false).read .close
  | ack seq =>
      obtain ⟨item, hitem⟩ : ∃ item, port.flow.pending = some item := by
        rw [mismatch, Bool.or_eq_true, not_or, Bool.not_eq_true, Option.isNone_eq_false_iff,
          Option.isSome_iff_exists] at hmatch
        exact hmatch.1
      refine Moves.trans ?_ (flush_moves _)
      rw [hitem]
      refine ⟨fun h => ?_, fun h => ?_, ?_⟩
      · rw [List.append_nil]
        exact h.acked hopen
      · exact h.drop_sent.receiver rfl rfl (fun hflow => ⟨hflow, rfl⟩) rfl
      · show port.budget - cost item - held { port.flow with
            pending := none, sequence := port.flow.sequence + 1 } = _
        simp [held, hopen, hitem]
        omega
  | data seq binary content =>
      refine ⟨fun h => ?_, fun h => h.received fun raw hraw => received_eq hdecode hraw, ?_⟩
      · exact h.drop_got.sender (fun hflow => ⟨hflow, rfl, rfl, (List.append_nil _).symm, nofun⟩) rfl
      · show port.budget - held _ = port.budget - held _
        simp only [held]

theorem acknowledge_moves (port : Port) (late : Bool) (buffered : Nat) :
    Moves [] [] port (port.acknowledge late buffered) := by
  rw [acknowledge]
  cases hseq : port.flow.acknowledging with
  | none => exact .refl port
  | some seq =>
      dsimp only
      split
      case isTrue => exact .refl port
      case isFalse hended =>
      have hopen : port.flow.ended = false := Bool.eq_false_iff.mpr hended
      split
      case isTrue => exact close_moves port true
      case isFalse =>
      split
      case isTrue => exact .refl port
      case isFalse =>
      refine ⟨fun h => h.sender (fun hflow => ⟨hflow, rfl, rfl, (List.append_nil _).symm, nofun⟩) ?_,
        fun h => h.acknowledged hopen hseq, ?_⟩
      · show dataOf (port.channel ++ [_]) = _
        rw [dataOf_append]
        exact List.append_nil _
      · rfl

end Port

end PocketCoder.Previews
