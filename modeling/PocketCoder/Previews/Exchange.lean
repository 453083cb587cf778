import Mathlib.Algebra.BigOperators.Ring.Finset
import PocketCoder.Previews.Delivery

/-!
All preview sockets of two sides: every socket gets a beginning of what the
other side was given, no flow is closed over a message of its peer, and each
budget counts what the flows of its side hold.
-/

namespace PocketCoder.Previews

open PocketCoder.Foundation

/-! ### One link -/

/-- Both directions of a link. -/
def Link.Inv (link : Link) : Prop :=
  ∀ side, Direction (link.flow side) (link.flow side.other) (link.channel side)
    (link.channel side.other) (link.given side) (link.handed side.other)

theorem Link.new_inv : Link.new.Inv := fun _ => .new

@[simp] theorem Side.other_other (side : Side) : side.other.other = side := by cases side <;> rfl

@[simp] theorem Side.other_ne (side : Side) : side.other ≠ side := by cases side <;> decide

@[simp] theorem Side.ne_other (side : Side) : side ≠ side.other := (Side.other_ne side).symm

theorem Side.eq_or_eq_other (side side' : Side) : side' = side ∨ side' = side.other := by
  cases side <;> cases side' <;> decide

/-- What an operation of one side reads of a link. -/
def Link.port (link : Link) (side : Side) (budget : Int) : Port where
  flow := link.flow side
  budget := budget
  channel := link.channel side
  handed := link.handed side

/-- The link after an operation of one side, which has read the channel of the
other side down to `rest` and was given `noted`. -/
def Link.after (link : Link) (side : Side) (rest : List SocketMessage) (noted : List SocketData)
    (port : Port) : Link where
  flow := Function.update link.flow side port.flow
  channel := Function.update (Function.update link.channel side.other rest) side port.channel
  given := Function.update link.given side (link.given side ++ noted)
  handed := Function.update link.handed side port.handed

theorem Link.Inv.after {link : Link} {side : Side} {budget : Int} {port : Port}
    {read rest : List SocketMessage} {noted : List SocketData} (h : link.Inv)
    (hread : link.channel side.other = read ++ rest)
    (hmoves : Moves read noted (link.port side budget) port) :
    (link.after side rest noted port).Inv := by
  intro side'
  rcases side.eq_or_eq_other side' with rfl | rfl
  · have hsends := h side'
    rw [hread] at hsends
    simpa [Link.after] using hmoves.sends hsends
  · have hgets := h side.other
    rw [hread, Side.other_other] at hgets
    simpa [Link.after] using hmoves.gets hgets

/-! ### The system -/

/-- What the open flows of a side hold. -/
def System.held (system : System) (side : Side) : Nat :=
  (system.links.map fun link => Previews.held (link.flow side)).sum

structure System.Inv (system : System) : Prop where
  links : ∀ link ∈ system.links, link.Inv
  budget : ∀ side, system.budget side = system.held side

theorem System.new_inv : System.new.Inv where
  links _ h := by cases h
  budget _ := rfl

/-- The system after an operation of one side of the link `n`. -/
def System.after (system : System) (n : Nat) (side : Side) (link : Link) (port : Port) : System where
  budget := Function.update system.budget side port.budget
  links := system.links.set n link

theorem System.Inv.after {system : System} {n : Nat} {side : Side} {link : Link} {port : Port}
    {read rest : List SocketMessage} {noted : List SocketData} (h : system.Inv)
    (hlink : system.links[n]? = some link) (hread : link.channel side.other = read ++ rest)
    (hmoves : Moves read noted (link.port side (system.budget side)) port) :
    (system.after n side (link.after side rest noted port) port).Inv := by
  obtain ⟨hn, hget⟩ := List.getElem?_eq_some_iff.mp hlink
  refine ⟨fun other hmem => ?_, fun side' => ?_⟩
  · rcases List.mem_or_eq_of_mem_set hmem with hmem | rfl
    · exact h.links other hmem
    · exact (h.links link (List.mem_of_getElem? hlink)).after hread hmoves
  · have hsum : ((system.after n side (link.after side rest noted port) port).held side' : Int) =
        system.held side' - Previews.held (link.flow side') +
          Previews.held ((link.after side rest noted port).flow side') := by
      have hset := List.sum_set'
        (system.links.map fun link => (Previews.held (link.flow side') : Int)) n
        (Previews.held ((link.after side rest noted port).flow side') : Int)
      rw [dif_pos (by rwa [List.length_map]), List.getElem_map, hget, ← List.map_set] at hset
      have hcast : ∀ links : List Link,
          (((links.map fun link => Previews.held (link.flow side')).sum : Nat) : Int) =
            (links.map fun link => (Previews.held (link.flow side') : Int)).sum := by
        intro links
        rw [Nat.cast_list_sum, List.map_map]
        rfl
      rw [System.held, System.held, hcast, hcast, System.after, hset]
      omega
    rw [hsum, ← h.budget side']
    rcases side.eq_or_eq_other side' with rfl | rfl
    · have hbudget := hmoves.budget
      simp only [Link.port] at hbudget
      simp only [System.after, Link.after, Function.update_self]
      omega
    · simp [System.after, Link.after]

theorem System.atPort_eq {system : System} {n : Nat} {side : Side} {link : Link}
    {operation : Port → Port} (hlink : system.links[n]? = some link) :
    system.atPort n side operation =
      system.after n side (link.after side (link.channel side.other) []
        (operation (link.port side (system.budget side))))
        (operation (link.port side (system.budget side))) := by
  rw [System.atPort, hlink]
  simp only [Link.after, System.after, Link.port, Function.update_eq_self, List.append_nil]

/-- An operation that reads nothing. -/
theorem System.Inv.atPort {system : System} {operation : Port → Port} (h : system.Inv) (n : Nat)
    (side : Side) (hmoves : ∀ port, Moves [] [] port (operation port)) :
    (system.atPort n side operation).Inv := by
  cases hlink : system.links[n]? with
  | none =>
      rw [System.atPort, hlink]
      exact h
  | some link =>
      rw [System.atPort_eq hlink]
      exact h.after hlink rfl (hmoves _)

theorem System.step_inv {decode : Bytes → String} (hdecode : ∀ s, decode (utf8 s) = s)
    {system : System} (h : system.Inv) (event : Event) : (system.step decode event).Inv := by
  cases event with
  | connect =>
      refine ⟨fun link hmem => ?_, fun side => ?_⟩
      · rcases List.mem_append.mp hmem with hmem | hmem
        · exact h.links link hmem
        · rw [List.mem_singleton.mp hmem]
          exact Link.new_inv
      · rw [System.held, System.step, List.map_append, List.sum_append]
        exact h.budget side
  | output n side raw =>
      cases hlink : system.links[n]? with
      | none =>
          rw [System.step, System.note, hlink]
          dsimp only
          rw [System.atPort, hlink]
          exact h
      | some link =>
          obtain ⟨hn, -⟩ := List.getElem?_eq_some_iff.mp hlink
          -- the note of what is given goes with the step of the port
          have hstep : system.step decode (.output n side raw) =
              system.after n side (link.after side (link.channel side.other) [raw]
                ((link.port side (system.budget side)).output raw))
                ((link.port side (system.budget side)).output raw) := by
            rw [System.step, System.note, hlink]
            dsimp only
            rw [System.atPort_eq (List.getElem?_set_self hn)]
            simp [System.after, Link.after, Link.port]
          rw [hstep]
          exact h.after hlink rfl (Port.output_moves _ raw)
  | receive n side =>
      rw [System.step]
      cases hlink : system.links[n]? with
      | none =>
          rw [System.take, hlink]
          exact h
      | some link =>
          obtain ⟨hn, -⟩ := List.getElem?_eq_some_iff.mp hlink
          rw [System.take, hlink]
          dsimp only
          cases hchannel : link.channel side.other with
          | nil => exact h
          | cons message rest =>
              dsimp only
              rw [System.atPort_eq (List.getElem?_set_self hn)]
              have hafter := h.after hlink (by exact hchannel)
                (Port.receive_moves hdecode (link.port side (system.budget side)) message)
              simpa [System.after, Link.after, Link.port] using hafter
  | acknowledge n side late buffered =>
      exact h.atPort n side fun port => port.acknowledge_moves late buffered
  | close n side notify => exact h.atPort n side fun port => port.close_moves notify

theorem reachable_inv {decode : Bytes → String} (hdecode : ∀ s, decode (utf8 s) = s)
    {events : List Event} {system : System} (h : Run (Steps decode) .new events system) :
    system.Inv := by
  refine h.invariant ?_ System.new_inv
  rintro system event _ rfl hinv
  exact System.step_inv hdecode hinv event

/-- The next message for an open flow fits its state. -/
theorem Link.Inv.matches {link : Link} {side : Side} {message : SocketMessage}
    {rest : List SocketMessage} (h : link.Inv) (hopen : (link.flow side).ended = false)
    (hnext : link.channel side.other = message :: rest) :
    Port.mismatch (link.flow side) message = false := by
  cases message with
  | close => rfl
  | ack seq =>
      have hsends := h side
      rw [hnext] at hsends
      obtain ⟨-, -, -, -, hwait⟩ := hsends.ack_awaited
      obtain ⟨hpending, hsequence⟩ := hwait hopen
      rw [Port.mismatch, hsequence, Option.isNone_eq_false_iff.mpr hpending]
      simp
  | data seq binary content =>
      have hgets := h side.other
      rw [hnext, Side.other_other] at hgets
      obtain ⟨raw, -, -, hseq, hsmall, -, hreceiving, -, -⟩ := hgets.data_expected
      rw [Port.mismatch, hseq, hreceiving]
      simpa using hsmall

/-- In every state of every run: what a socket was handed is a beginning of
what the `output` of its peer was given; the next message for an open flow does
not close it; and a budget counts what the open flows of its side hold. -/
theorem previewSockets_deliver {decode : Bytes → String} (hdecode : ∀ s, decode (utf8 s) = s)
    {events : List Event} {system : System} (h : Run (Steps decode) .new events system) :
    (∀ link ∈ system.links, ∀ side, link.handed side.other <+: link.given side) ∧
    (∀ link ∈ system.links, ∀ side message rest, (link.flow side).ended = false →
      link.channel side.other = message :: rest →
        Port.mismatch (link.flow side) message = false) ∧
    ∀ side, system.budget side = system.held side ∧ 0 ≤ system.budget side ∧
      ((∀ link ∈ system.links, (link.flow side).ended = true) → system.budget side = 0) := by
  have hinv := reachable_inv hdecode h
  refine ⟨fun link hmem side => ?_, fun link hmem side message rest hopen hnext => ?_,
    fun side => ⟨hinv.budget side, ?_, fun hended => ?_⟩⟩
  · rw [(hinv.links link hmem side).handed_take]
    exact List.take_prefix _ _
  · exact (hinv.links link hmem).matches hopen hnext
  · rw [hinv.budget side]
    exact Int.natCast_nonneg _
  · have hzero : ∀ charge ∈ system.links.map fun link => Previews.held (link.flow side),
        charge = 0 := by
      intro charge hcharge
      obtain ⟨link, hmem, rfl⟩ := List.mem_map.mp hcharge
      rw [Previews.held, if_pos (hended link hmem)]
    rw [hinv.budget side, System.held, List.sum_eq_zero hzero]
    rfl

/-- The events of a message from the server that is delivered and acknowledged,
and of the next one, which waits. -/
def twoMessages : List Event :=
  [.connect, .output 0 .server (.binary [1, 2]), .output 0 .server (.binary []),
    .receive 0 .supervisor, .acknowledge 0 .supervisor false 0, .receive 0 .server]

theorem run_foldl (decode : Bytes → String) (system : System) (events : List Event) :
    Run (Steps decode) system events (events.foldl (System.step decode) system) := by
  induction events generalizing system with
  | nil => exact .nil system
  | cons event events ih => exact .cons rfl (ih _)

theorem previewSockets_deliver_two :
    let decode := fun bytes => (fromUtf8 bytes).getD ""
    let system := twoMessages.foldl (System.step decode) .new
    (∀ link ∈ system.links, ∀ side, link.handed side.other <+: link.given side) ∧
      (system.links.map fun link => link.handed .supervisor) = [[.binary [1, 2]]] ∧
      system.budget .server = 256 := by
  refine ⟨(previewSockets_deliver (fun s => ?_) (run_foldl _ .new twoMessages)).1, rfl,
    by decide⟩
  rw [fromUtf8_utf8, Option.getD_some]

end PocketCoder.Previews
