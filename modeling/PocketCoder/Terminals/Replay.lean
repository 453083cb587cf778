import PocketCoder.Foundation.Bytes
import PocketCoder.Foundation.Transitions

/-!
A terminal session of the supervisor: output of the PTY, the replay window, and
the queue of chunks that are still to be sent.

A chunk of output goes to both: the window keeps the last bytes, the queue is
sent one chunk for each time that its timer fires. A client that attaches again
gets the window, and then what leaves the queue. The window ends with the
output so far, chunks in the queue included, so the two fit together only when
the queue is empty at that moment, and when no chunk that leaves the queue later
fails to be sent.
-/

namespace PocketCoder.Terminals

open Foundation

def TERMINAL_CHUNK_BYTES : Nat := 32 * 1024

inductive CloseReason where
  | idle
  | checkpoint
  | workspaceEnded
  | closed

/-- The frames of a session, with the bytes that their texts encode. -/
inductive AgentFrame where
  | terminalOpened (replay : Option Bytes)
  | terminalOutput (data : Bytes)
  /-- The reason is `exit` where none is given. -/
  | terminalClosed (reason : Option CloseReason) (exitCode : Option Int)
  | refused (detail : String)

structure ActiveTerminal where
  replay : Bytes
  outputQueue : List Bytes
  queuedBytes : Nat
  /-- A timer is set. -/
  outputTimer : Bool
  closeReason : Option CloseReason
  exitCode : Option Int
  /-- The manager has this session under its id. -/
  active : Bool

namespace ActiveTerminal

/-- A session that has just been opened. -/
def new : ActiveTerminal := ⟨[], [], 0, false, none, none, true⟩

/-- The queue without the chunks that do not fit in the limit; the last one stays. -/
def dropOutput (limit : Nat) : Nat → List Bytes → Nat × List Bytes
  | queuedBytes, first :: second :: queue =>
      if queuedBytes > limit then
        dropOutput limit (queuedBytes - first.length) (second :: queue)
      else (queuedBytes, first :: second :: queue)
  | queuedBytes, queue => (queuedBytes, queue)

/-- The queue with the chunks of the output. -/
def pushed (session : ActiveTerminal) (data : Bytes) : List Bytes :=
  session.outputQueue ++ chunksOf TERMINAL_CHUNK_BYTES data

def pushedBytes (session : ActiveTerminal) (data : Bytes) : Nat :=
  session.queuedBytes + ((chunksOf TERMINAL_CHUNK_BYTES data).map List.length).sum

def scheduleOutput (session : ActiveTerminal) : ActiveTerminal :=
  { session with outputTimer := true }

def handleOutput (limit : Nat) (session : ActiveTerminal) (data : Bytes) : ActiveTerminal :=
  if session.active then
    let combined := session.replay ++ data
    let kept := dropOutput limit (session.pushedBytes data) (session.pushed data)
    scheduleOutput { session with
      replay := combined.drop (combined.length - limit)
      outputQueue := kept.2
      queuedBytes := kept.1 }
  else session

def finalize (session : ActiveTerminal) : ActiveTerminal × List AgentFrame :=
  ({ session with active := false }, [.terminalClosed session.closeReason session.exitCode])

def finish (session : ActiveTerminal) (exitCode : Int) : ActiveTerminal × List AgentFrame :=
  if session.active then
    let session := { session with exitCode := some exitCode }
    if session.outputQueue ≠ [] then (session.scheduleOutput, []) else session.finalize
  else (session, [])

/-- What follows the chunk that a timer has sent. -/
def afterOutput (session : ActiveTerminal) : ActiveTerminal × List AgentFrame :=
  if session.outputQueue ≠ [] then (session.scheduleOutput, [])
  else if session.exitCode.isSome then session.finalize
  else (session, [])

def drainOutput (session : ActiveTerminal) : ActiveTerminal × List AgentFrame :=
  let session := { session with outputTimer := false }
  if session.active then
    match session.outputQueue with
    | [] => session.afterOutput
    | chunk :: queue =>
        let drained := { session with
          outputQueue := queue
          queuedBytes := session.queuedBytes - chunk.length }
        (drained.afterOutput.1, .terminalOutput chunk :: drained.afterOutput.2)
  else (session, [])

/-- A request to open the terminal under the id of the session. Without the
session, one that does not attach again opens another session. -/
def openAgain (session : ActiveTerminal) (reattach : Bool) : List AgentFrame :=
  if session.active then
    if reattach then [.terminalOpened (if 0 < session.replay.length then some session.replay else none)]
    else [.refused "terminal session already exists"]
  else if reattach then [.refused "terminal session does not exist"]
  else []

def close (session : ActiveTerminal) (reason : CloseReason) : ActiveTerminal :=
  if session.active then { session with closeReason := some reason } else session

end ActiveTerminal

open ActiveTerminal

/-! ### Runs -/

inductive Event where
  /-- The PTY has output. -/
  | output (data : Bytes)
  | timer
  | open (reattach : Bool)
  | exited (exitCode : Int)
  | close (reason : CloseReason)

def ActiveTerminal.step (limit : Nat) (session : ActiveTerminal) :
    Event → ActiveTerminal × List AgentFrame
  | .output data => (session.handleOutput limit data, [])
  | .timer => session.drainOutput
  | .open reattach => (session, session.openAgain reattach)
  | .exited exitCode => session.finish exitCode
  | .close reason => (session.close reason, [])

/-- A step of a session. -/
structure Label where
  event : Event
  frames : List AgentFrame
  /-- The frames could be sent. -/
  sent : Bool
  /-- A chunk was dropped from the queue. -/
  dropped : Bool

/-- The output makes the queue longer than the limit. -/
def ActiveTerminal.drops (limit : Nat) (session : ActiveTerminal) : Event → Bool
  | .output data =>
      session.active && limit < session.pushedBytes data && 1 < (session.pushed data).length
  | _ => false

/-- The steps of a session; a timer fires only when it is set. -/
structure Steps (limit : Nat) (session : ActiveTerminal) (label : Label)
    (session' : ActiveTerminal) : Prop where
  timer : label.event = .timer → session.outputTimer = true
  step : session.step limit label.event = (session', label.frames)
  dropped : label.dropped = session.drops limit label.event

/-- A new session, after the output that came while it was opened. -/
def opened (limit : Nat) (pending : List Bytes) : ActiveTerminal :=
  pending.foldl (handleOutput limit) .new

def Event.produced : Event → Bytes
  | .output data => data
  | .timer => []
  | .open _ => []
  | .exited _ => []
  | .close _ => []

def AgentFrame.data : AgentFrame → Bytes
  | .terminalOutput data => data
  | _ => []

/-- The output of the steps. -/
def produced (trace : List Label) : Bytes := trace.flatMap fun label => label.event.produced

def Label.data (label : Label) : Bytes := label.frames.flatMap AgentFrame.data

/-- The data of the `terminal_output` frames that were sent. -/
def sentData (trace : List Label) : Bytes :=
  trace.flatMap fun label => if label.sent then label.data else []

/-- The last bytes, up to a limit. -/
def lastBytes (limit : Nat) (bytes : Bytes) : Bytes :=
  bytes.drop (bytes.length - min bytes.length limit)

variable {limit : Nat} {session session' : ActiveTerminal} {total since sent : Bytes}

/-! ### The replay window -/

theorem lastBytes_eq (limit : Nat) (bytes : Bytes) :
    lastBytes limit bytes = bytes.drop (bytes.length - limit) := by
  rw [lastBytes]
  congr 1
  omega

/-- The window after more output is made of the window before it. -/
theorem lastBytes_append (limit : Nat) (bytes data : Bytes) :
    (lastBytes limit bytes ++ data).drop ((lastBytes limit bytes ++ data).length - limit) =
      lastBytes limit (bytes ++ data) := by
  have hcut : lastBytes limit bytes ++ data = (bytes ++ data).drop (bytes.length - limit) := by
    rw [lastBytes_eq, List.drop_append_of_le_length (by omega)]
  rw [hcut, lastBytes_eq, List.drop_drop, List.length_drop, List.length_append]
  congr 1
  omega

/-- The window of a session has the last bytes of its output. -/
def Window (limit : Nat) (total : Bytes) (session : ActiveTerminal) : Prop :=
  session.active = true → session.replay = lastBytes limit total

theorem Window.handleOutput (h : Window limit total session) (data : Bytes) :
    Window limit (total ++ data) (session.handleOutput limit data) := by
  rw [ActiveTerminal.handleOutput]
  split_ifs with hactive
  · intro _
    show (session.replay ++ data).drop ((session.replay ++ data).length - limit) = _
    rw [h hactive, lastBytes_append]
  · exact fun hactive' => absurd hactive' hactive

theorem opened_window (limit : Nat) (pending : List Bytes) :
    Window limit pending.flatten (opened limit pending) := by
  suffices hfold : ∀ (total : Bytes) (session : ActiveTerminal), Window limit total session →
      Window limit (total ++ pending.flatten)
        (pending.foldl (ActiveTerminal.handleOutput limit) session) from
    hfold [] .new fun _ => rfl
  induction pending with
  | nil =>
      intro total session h
      rwa [List.flatten_nil, List.append_nil]
  | cons chunk pending ih =>
      intro total session h
      rw [List.flatten_cons, ← List.append_assoc]
      exact ih _ _ (h.handleOutput chunk)

theorem finalize_window : Window limit total session.finalize.1 := fun h => (nomatch h)

theorem Window.afterOutput (h : Window limit total session) :
    Window limit total session.afterOutput.1 := by
  rw [ActiveTerminal.afterOutput]
  split_ifs
  · exact h
  · exact finalize_window
  · exact h

theorem Window.step (h : Window limit total session) (event : Event) :
    Window limit (total ++ event.produced) (session.step limit event).1 := by
  cases event with
  | output data => exact h.handleOutput data
  | timer =>
      rw [Event.produced, List.append_nil, ActiveTerminal.step, drainOutput]
      dsimp only
      split_ifs with hactive
      · cases session.outputQueue with
        | nil => exact Window.afterOutput h
        | cons chunk queue => exact Window.afterOutput h
      · exact h
  | «open» reattach =>
      rw [Event.produced, List.append_nil]
      exact h
  | exited exitCode =>
      rw [Event.produced, List.append_nil, ActiveTerminal.step, finish]
      dsimp only
      split_ifs
      · exact h
      · exact finalize_window
      · exact h
  | close reason =>
      rw [Event.produced, List.append_nil, ActiveTerminal.step, ActiveTerminal.close]
      split_ifs
      · exact h
      · exact h

theorem Window.run {trace : List Label} (h : Window limit total session)
    (hrun : Run (Steps limit) session trace session') :
    Window limit (total ++ produced trace) session' := by
  induction hrun generalizing total with
  | nil session => rwa [produced, List.flatMap_nil, List.append_nil]
  | @cons session middle session' label trace hstep _ ih =>
      have hwindow := h.step label.event
      rw [hstep.step] at hwindow
      rw [produced, List.flatMap_cons, ← List.append_assoc]
      exact ih hwindow

/-! ### The queue -/

/-- Nothing is lost between the output and the frames: what was not sent is
still in the queue. -/
def Flows (since sent : Bytes) (session : ActiveTerminal) : Prop :=
  ∃ rest, since = sent ++ rest ∧ (session.active = true → rest = session.outputQueue.flatten)

/-- The queue keeps all chunks when it fits. -/
theorem dropOutput_eq {queuedBytes : Nat} {queue : List Bytes}
    (h : ¬(limit < queuedBytes ∧ 1 < queue.length)) :
    dropOutput limit queuedBytes queue = (queuedBytes, queue) := by
  match queue with
  | [] => rfl
  | [_] => rfl
  | first :: second :: queue =>
      rw [dropOutput, if_neg fun hlimit => h ⟨hlimit, by simp⟩]

theorem Flows.handleOutput (h : Flows since sent session) {data : Bytes}
    (hdrop : session.drops limit (.output data) = false) :
    Flows (since ++ data) sent (session.handleOutput limit data) := by
  obtain ⟨rest, rfl, hrest⟩ := h
  refine ⟨rest ++ data, List.append_assoc _ _ _, fun hactive' => ?_⟩
  rw [ActiveTerminal.handleOutput] at hactive' ⊢
  split_ifs at hactive' ⊢ with hactive
  · have hfit : ¬(limit < session.pushedBytes data ∧ 1 < (session.pushed data).length) := by
      simpa [drops, hactive] using hdrop
    show _ = (dropOutput limit (session.pushedBytes data) (session.pushed data)).2.flatten
    rw [dropOutput_eq hfit, hrest hactive, pushed, List.flatten_append,
      flatten_chunksOf (by decide)]
  · exact absurd hactive' hactive

theorem afterOutput_outputQueue (session : ActiveTerminal) :
    session.afterOutput.1.outputQueue = session.outputQueue := by
  rw [ActiveTerminal.afterOutput]
  split_ifs <;> rfl

theorem afterOutput_data (session : ActiveTerminal) :
    session.afterOutput.2.flatMap AgentFrame.data = [] := by
  rw [ActiveTerminal.afterOutput]
  split_ifs <;> rfl

theorem openAgain_data (session : ActiveTerminal) (reattach : Bool) :
    (session.openAgain reattach).flatMap AgentFrame.data = [] := by
  rw [openAgain]
  split_ifs <;> rfl

/-- A timer sends what is at the head of the queue. -/
theorem Flows.drainOutput (h : Flows since sent session) :
    Flows since (sent ++ session.drainOutput.2.flatMap AgentFrame.data) session.drainOutput.1 := by
  obtain ⟨rest, hsince, hrest⟩ := h
  rw [ActiveTerminal.drainOutput]
  dsimp only
  split_ifs with hactive
  · cases hqueue : session.outputQueue with
    | nil =>
        refine ⟨rest, ?_, fun _ => ?_⟩
        · rw [afterOutput_data, List.append_nil, hsince]
        · rw [afterOutput_outputQueue, hrest hactive]
          exact congrArg _ hqueue
    | cons chunk queue =>
        refine ⟨queue.flatten, ?_, fun _ => ?_⟩
        · rw [hsince, hrest hactive, hqueue, List.flatMap_cons, afterOutput_data, List.append_nil,
            List.flatten_cons, List.append_assoc]
          rfl
        · rw [afterOutput_outputQueue]
  · exact ⟨rest, by rw [hsince, List.flatMap_nil, List.append_nil], hrest⟩

theorem Flows.step (h : Flows since sent session) {event : Event}
    (hdrop : session.drops limit event = false) :
    Flows (since ++ event.produced)
      (sent ++ (session.step limit event).2.flatMap AgentFrame.data) (session.step limit event).1 := by
  cases event with
  | output data =>
      rw [ActiveTerminal.step, List.flatMap_nil, List.append_nil]
      exact h.handleOutput hdrop
  | timer =>
      rw [Event.produced, List.append_nil]
      exact h.drainOutput
  | «open» reattach =>
      rw [Event.produced, List.append_nil, ActiveTerminal.step, openAgain_data, List.append_nil]
      exact h
  | exited exitCode =>
      obtain ⟨rest, hsince, hrest⟩ := h
      rw [Event.produced, List.append_nil, ActiveTerminal.step, finish]
      dsimp only
      split_ifs
      · exact ⟨rest, by rw [hsince]; exact congrArg (· ++ rest) (List.append_nil _).symm, hrest⟩
      · exact ⟨rest, by rw [hsince]; exact congrArg (· ++ rest) (List.append_nil _).symm,
          fun h => (nomatch h)⟩
      · exact ⟨rest, by rw [hsince]; exact congrArg (· ++ rest) (List.append_nil _).symm, hrest⟩
  | close reason =>
      rw [Event.produced, List.append_nil, ActiveTerminal.step, ActiveTerminal.close,
        List.flatMap_nil, List.append_nil]
      split_ifs
      · exact h
      · exact h

/-- A run in which no chunk is dropped and each frame with data is sent. -/
theorem Flows.run {trace : List Label} (h : Flows since sent session)
    (hrun : Run (Steps limit) session trace session')
    (hdrop : ∀ label ∈ trace, label.dropped = false)
    (hsent : ∀ label ∈ trace, label.data ≠ [] → label.sent = true) :
    Flows (since ++ produced trace) (sent ++ sentData trace) session' := by
  induction hrun generalizing since sent with
  | nil session =>
      rwa [produced, sentData, List.flatMap_nil, List.flatMap_nil, List.append_nil, List.append_nil]
  | @cons session middle session' label trace hstep _ ih =>
      have hflows := h.step (hstep.dropped ▸ hdrop label List.mem_cons_self)
      rw [hstep.step] at hflows
      have hdata : (if label.sent then label.data else []) = label.data := by
        by_cases hempty : label.data = []
        · rw [hempty, ite_self]
        · rw [if_pos (hsent label List.mem_cons_self hempty)]
      rw [produced, sentData, List.flatMap_cons, List.flatMap_cons, hdata, ← List.append_assoc,
        ← List.append_assoc]
      exact ih hflows (fun other hother => hdrop other (List.mem_cons_of_mem _ hother))
        fun other hother => hsent other (List.mem_cons_of_mem _ hother)

/-! ### The replay and what follows it -/

/-- A client that attaches again gets the last bytes of the output so far. If
no chunk waits in the queue at that moment, then from there on, as long as no
chunk is dropped and each `terminal_output` frame can be sent, the replay and
the data of the frames are at every moment one piece of the output: it begins
where the replay does, and no byte of it is repeated or missing. -/
theorem terminalReplay_seamless {pending : List Bytes} {trace : List Label}
    (h : Run (Steps limit) (opened limit pending) trace session) :
    (session.active = true → ∃ replay, session.openAgain true = [.terminalOpened replay] ∧
        replay.getD [] = lastBytes limit (pending.flatten ++ produced trace)) ∧
      ∀ later session', Run (Steps limit) session later session' →
        session.outputQueue = [] →
        (∀ label ∈ later, label.dropped = false) →
        (∀ label ∈ later, label.data ≠ [] → label.sent = true) →
        lastBytes limit (pending.flatten ++ produced trace) ++ sentData later <+:
          (pending.flatten ++ produced trace ++ produced later).drop
            ((pending.flatten ++ produced trace).length - limit) := by
  refine ⟨fun hactive => ?_, fun later session' hlater hempty hdrop hsent => ?_⟩
  · have hwindow := (opened_window limit pending).run h hactive
    rw [openAgain, if_pos hactive, if_pos rfl, ← hwindow]
    refine ⟨_, rfl, ?_⟩
    split_ifs with hpos
    · rfl
    · exact (List.eq_nil_of_length_eq_zero (by omega)).symm
  · have hstart : Flows [] [] session := ⟨[], rfl, fun _ => by rw [hempty, List.flatten_nil]⟩
    obtain ⟨rest, hrest, -⟩ := hstart.run hlater hdrop hsent
    rw [List.nil_append, List.nil_append] at hrest
    rw [List.drop_append_of_le_length (by omega), ← lastBytes_eq, hrest, ← List.append_assoc]
    exact List.prefix_append _ _

/-! ### A chunk that is still in the queue -/

theorem opened_output :
    (opened 65536 []).handleOutput 65536 [0x24] =
      ⟨[0x24], [[0x24]], 1, true, none, none, true⟩ := by
  simp [opened, handleOutput, new, pushed, pushedBytes, chunksOf, TERMINAL_CHUNK_BYTES,
    scheduleOutput, dropOutput]

/-- A prompt is on the screen when the client attaches again, and the answer to
its input follows. -/
theorem terminalReplay_seamless_prompt :
    lastBytes 65536 [0x24] ++ sentData
        [⟨.open true, [.terminalOpened (some [0x24])], true, false⟩,
          ⟨.output [0x6f], [], true, false⟩, ⟨.timer, [.terminalOutput [0x6f]], true, false⟩] <+:
      [0x24, 0x6f] := by
  have hprompt : Run (Steps 65536) (opened 65536 [])
      [⟨.output [0x24], [], true, false⟩, ⟨.timer, [.terminalOutput [0x24]], true, false⟩]
      ⟨[0x24], [], 0, false, none, none, true⟩ :=
    .cons ⟨fun h => (by cases h), by rw [ActiveTerminal.step, opened_output], by
      simp [drops, opened, new, pushed, pushedBytes, chunksOf, TERMINAL_CHUNK_BYTES]⟩
      (.single ⟨fun _ => rfl, rfl, rfl⟩)
  have hanswer : Run (Steps 65536) ⟨[0x24], [], 0, false, none, none, true⟩
      [⟨.open true, [.terminalOpened (some [0x24])], true, false⟩,
        ⟨.output [0x6f], [], true, false⟩, ⟨.timer, [.terminalOutput [0x6f]], true, false⟩]
      ⟨[0x24, 0x6f], [], 0, false, none, none, true⟩ := by
    have houtput : Steps 65536 ⟨[0x24], [], 0, false, none, none, true⟩
        ⟨.output [0x6f], [], true, false⟩ ⟨[0x24, 0x6f], [[0x6f]], 1, true, none, none, true⟩ := by
      refine ⟨fun h => (by cases h), ?_, ?_⟩
      · simp [ActiveTerminal.step, handleOutput, pushed, pushedBytes, chunksOf,
          TERMINAL_CHUNK_BYTES, scheduleOutput, dropOutput]
      · simp [drops, pushed, pushedBytes, chunksOf, TERMINAL_CHUNK_BYTES]
    exact .cons ⟨fun h => (by cases h), rfl, rfl⟩ (.cons houtput (.single ⟨fun _ => rfl, rfl, rfl⟩))
  exact (terminalReplay_seamless hprompt).2 _ _ hanswer rfl (by simp) (by simp)

/-- A client attaches again before the timer of a chunk has fired: the replay has the
byte of the chunk, and the frame that follows has it again. -/
theorem terminalReplay_repeated :
    ∃ trace session later session',
      Run (Steps 65536) (opened 65536 []) trace session ∧
      Run (Steps 65536) session later session' ∧
      (∀ label ∈ later, label.dropped = false ∧ label.sent = true) ∧
      session.openAgain true = [.terminalOpened (some [0x24])] ∧
      sentData later = [0x24] ∧ produced trace = [0x24] ∧ produced later = [] ∧
      ¬[0x24] ++ sentData later <:+: produced trace ++ produced later := by
  refine ⟨[⟨.output [0x24], [], true, false⟩], _,
    [⟨.open true, [.terminalOpened (some [0x24])], true, false⟩,
      ⟨.timer, [.terminalOutput [0x24]], true, false⟩], _,
    .single ⟨fun h => (nomatch h), by rw [ActiveTerminal.step, opened_output], ?_⟩,
    .cons ⟨fun h => (nomatch h), rfl, rfl⟩ (.single ⟨fun _ => rfl, rfl, rfl⟩), by simp, rfl, rfl, rfl,
    rfl, fun h => ?_⟩
  · simp [drops, opened, new, pushed, pushedBytes, chunksOf, TERMINAL_CHUNK_BYTES]
  · exact absurd h.length_le (by decide)

end PocketCoder.Terminals
