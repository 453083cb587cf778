import PocketCoder.Checkpoints.EntryRecord
import PocketCoder.Foundation.Transitions
import PocketCoder.Foundation.Utf8Decoder

/-!
The queue of directories of a checkpoint (`db/src/checkpoints/directory-queue.ts`):
records in one file, each behind its length, which is written at its end and
read from where the last record ended.

Work runs alone: a call is refused while another one is pending. What the
environment decides is part of an event: whether the fences let the pending
work begin, and whether its reads and writes fail.
-/

namespace PocketCoder.Checkpoints

open PocketCoder.Foundation

/-! ### Records -/

structure DirectoryRecord where
  mount : Int
  path : String
  custody : Bytes
  deriving DecidableEq

namespace DirectoryRecord

variable (node : NodeRuntime)

def fixedBytes : Nat := 1 + 64

def validPath (path : String) : Bool := path = "" || safeCheckpointPath node path

def encode (record : DirectoryRecord) : Except String Bytes :=
  if record.mount < 0 || 15 < record.mount || !validPath node record.path ||
      record.custody.length ≠ 64 then
    .error "Invalid checkpoint directory record."
  else if CHECKPOINT_ENTRY_BYTES < fixedBytes + (utf8 record.path).length then
    .error "Checkpoint directory record is too large."
  else .ok (UInt8.ofNat record.mount.toNat :: record.custody ++ utf8 record.path)

def decode (body : Bytes) : Except String DirectoryRecord :=
  let pathBytes := body.drop fixedBytes
  let path := decodeLossy pathBytes
  match body[0]? with
  | none => .error "Invalid checkpoint directory record."
  | some mount =>
      if 15 < mount.toNat || utf8 path ≠ pathBytes || !validPath node path then
        .error "Invalid checkpoint directory record."
      else .ok { mount := mount.toNat, path, custody := slice body 1 64 }

end DirectoryRecord

/-! ### The queue -/

inductive QueueCall where
  | append (record : DirectoryRecord)
  | take

/-- The variables of a queue, and its file. -/
structure DirectoryQueue where
  file : Bytes
  written : Nat
  read : Nat
  count : Nat
  failed : Bool
  closed : Bool
  pending : Option QueueCall

/-- What may happen to a queue. Work `settles` when its turn has come: it is
`admitted` when the fences before it do not throw, and `failing` when a read, a
write or a fence in it throws, for a write after that many bytes. -/
inductive QueueEvent where
  | call (call : QueueCall)
  | settle (admitted : Bool) (failing : Option Nat)
  | close

/-- How a call ends. -/
inductive QueueReply where
  | waits
  | rejected
  | appended (record : DirectoryRecord)
  | taken (record : DirectoryRecord)
  | empty

namespace DirectoryQueue

variable (node : NodeRuntime) (maxBytes : Nat)

def new : DirectoryQueue where
  file := []
  written := 0
  read := 0
  count := 0
  failed := false
  closed := false
  pending := none

/-- A write that fails leaves some of its bytes. -/
def failWrite (queue : DirectoryQueue) (bytes : Bytes) (failing : Nat) : DirectoryQueue :=
  let file := writeIndexBytes queue.file (bytes.take failing) queue.written
  { queue with file, written := file.length, failed := true }

/-- The work of `append`. -/
def runAppend (queue : DirectoryQueue) (record : DirectoryRecord) (failing : Option Nat) :
    DirectoryQueue × QueueReply :=
  match record.encode node with
  | .error _ => (queue, .rejected)
  | .ok body =>
      let next := queue.written + 4 + body.length
      if MAX_SAFE_INTEGER < next || maxBytes < next then (queue, .rejected)
      else
        match failing with
        | some failing => (queue.failWrite (uint32BE body.length ++ body) failing, .rejected)
        | none =>
            let file := writeIndexBytes queue.file (uint32BE body.length) queue.written
            let file := writeIndexBytes file body (queue.written + 4)
            ({ queue with file, written := next, count := queue.count + 1 }, .appended record)

/-- The record at the read position, and its size. -/
def readRecord (queue : DirectoryQueue) : Except String (Nat × DirectoryRecord) := do
  let size := readUIntBE (← readIndexBytes queue.file 4 queue.read)
  if size < DirectoryRecord.fixedBytes || CHECKPOINT_ENTRY_BYTES < size ||
      queue.written < queue.read + 4 + size then
    .error "Invalid checkpoint directory record size."
  else
    let body ← readIndexBytes queue.file size (queue.read + 4)
    let record ← DirectoryRecord.decode node body
    return (size, record)

/-- The work of `take`. -/
def runTake (queue : DirectoryQueue) (failing : Option Nat) : DirectoryQueue × QueueReply :=
  if queue.read = queue.written then (queue, .empty)
  else
    match failing, queue.readRecord node with
    | none, .ok (size, record) =>
        ({ queue with read := queue.read + (4 + size), count := queue.count - 1 }, .taken record)
    | _, _ => ({ queue with failed := true }, .rejected)

/-- The pending work ends. A failure or the end of the queue keeps it from
beginning. -/
def settle (queue : DirectoryQueue) (admitted : Bool) (failing : Option Nat) :
    DirectoryQueue × QueueReply :=
  let free := { queue with pending := none }
  match queue.pending with
  | none => (queue, .waits)
  | some call =>
      if queue.failed || queue.closed || !admitted then (free, .rejected)
      else
        match call with
        | .append record => free.runAppend node maxBytes record failing
        | .take => free.runTake node failing

def step (queue : DirectoryQueue) : QueueEvent → DirectoryQueue × QueueReply
  | .call call =>
      if queue.closed || queue.pending.isSome then (queue, .rejected)
      else ({ queue with pending := some call }, .waits)
  | .settle admitted failing => queue.settle node maxBytes admitted failing
  | .close => ({ queue with closed := true }, .waits)

/-- A step with the event and its reply. -/
def Steps (queue : DirectoryQueue) (label : QueueEvent × QueueReply) (queue' : DirectoryQueue) : Prop :=
  queue.step node maxBytes label.1 = (queue', label.2)

end DirectoryQueue

/-! ### Encoded records -/

variable {node : NodeRuntime} {maxBytes : Nat}

namespace DirectoryRecord

variable {record : DirectoryRecord} {body : Bytes}

/-- What an encoded record is. -/
structure Encoded (node : NodeRuntime) (record : DirectoryRecord) (body : Bytes) : Prop where
  mount : 0 ≤ record.mount ∧ record.mount ≤ 15
  path : validPath node record.path = true
  custody : record.custody.length = 64
  length : body.length = fixedBytes + (utf8 record.path).length
  length_le : body.length ≤ CHECKPOINT_ENTRY_BYTES
  eq_body : body = UInt8.ofNat record.mount.toNat :: record.custody ++ utf8 record.path

theorem encoded_of_ok (h : record.encode node = .ok body) : Encoded node record body := by
  rw [encode] at h
  split_ifs at h with hinvalid hlarge
  simp only [Bool.or_eq_true, decide_eq_true_eq, Bool.not_eq_true', not_or, Bool.not_eq_false,
    not_not] at hinvalid
  obtain ⟨⟨⟨hlow, hhigh⟩, hpath⟩, hcustody⟩ := hinvalid
  obtain rfl := Except.ok.inj h
  have hlength : (UInt8.ofNat record.mount.toNat :: record.custody ++ utf8 record.path).length =
      fixedBytes + (utf8 record.path).length := by
    rw [List.cons_append, List.length_cons, List.length_append, hcustody, fixedBytes]
    omega
  exact ⟨⟨by omega, by omega⟩, hpath, hcustody, hlength, by omega, rfl⟩

/-- A record is decoded from its bytes. -/
theorem decode_encode (h : record.encode node = .ok body) : decode node body = .ok record := by
  obtain ⟨hmount, hpath, hcustody, -, -, rfl⟩ := encoded_of_ok h
  have hdrop : (UInt8.ofNat record.mount.toNat :: record.custody ++ utf8 record.path).drop
      fixedBytes = utf8 record.path := by
    rw [List.cons_append, fixedBytes, Nat.add_comm, List.drop_succ_cons, List.drop_left' hcustody]
  have hslice : slice (UInt8.ofNat record.mount.toNat :: record.custody ++ utf8 record.path) 1 64 =
      record.custody := by
    rw [slice, List.cons_append, List.drop_succ_cons, List.drop_zero, List.take_left' hcustody]
  have hbyte : (UInt8.ofNat record.mount.toNat).toNat = record.mount.toNat :=
    Utf8State.toNat_ofNat_byte (by omega)
  rw [decode, hdrop, decodeLossy_utf8, hslice]
  simp only [List.cons_append, List.getElem?_cons_zero, hbyte, hpath]
  rw [if_neg (by simp; omega), Int.toNat_of_nonneg hmount.1]

end DirectoryRecord

namespace DirectoryQueue

variable {queue queue' : DirectoryQueue} {done queued : List DirectoryRecord}
  {record : DirectoryRecord} {body : Bytes}

/-- The bytes of a record in the file. -/
def frame (node : NodeRuntime) (record : DirectoryRecord) : Bytes :=
  match record.encode node with
  | .ok body => uint32BE body.length ++ body
  | .error _ => []

def frames (node : NodeRuntime) (records : List DirectoryRecord) : Bytes := records.flatMap (frame node)

theorem frames_cons (h : record.encode node = .ok body) (records : List DirectoryRecord) :
    frames node (record :: records) = uint32BE body.length ++ body ++ frames node records := by
  rw [frames, List.flatMap_cons, frame, h]
  rfl

theorem frames_append (records records' : List DirectoryRecord) :
    frames node (records ++ records') = frames node records ++ frames node records' :=
  List.flatMap_append

/-- The frame of one record. -/
theorem frames_singleton (h : record.encode node = .ok body) :
    frames node [record] = uint32BE body.length ++ body :=
  (frames_cons h []).trans (List.append_nil _)

/-- The file holds the records that were taken, and those that are queued. -/
structure Stored (node : NodeRuntime) (done queued : List DirectoryRecord) (queue : DirectoryQueue) :
    Prop where
  file : queue.file = frames node done ++ frames node queued
  written : queue.written = queue.file.length
  read : queue.read = (frames node done).length

/-- Until a failure, the file is good. The count is right even then. -/
structure Fifo (node : NodeRuntime) (done queued : List DirectoryRecord) (queue : DirectoryQueue) :
    Prop where
  count : queue.count = queued.length
  encodable : ∀ record ∈ queued, ∃ body, record.encode node = .ok body
  stored : queue.failed = false → Stored node done queued queue

/-- The queue has reached its end when nothing is queued. -/
theorem Stored.read_eq_written (h : Stored node done queued queue)
    (hencodable : ∀ record ∈ queued, ∃ body, record.encode node = .ok body) :
    queue.read = queue.written ↔ queued = [] := by
  rw [h.read, h.written, h.file, List.length_append]
  cases queued with
  | nil => simp [frames]
  | cons record queued =>
      obtain ⟨body, hbody⟩ := hencodable record List.mem_cons_self
      have hlength : 4 ≤ (frames node (record :: queued)).length := by
        rw [frames_cons hbody, List.length_append, List.length_append, length_uint32BE]
        omega
      refine ⟨fun heq => ?_, fun hnil => (nomatch hnil)⟩
      omega

/-- The first record that is queued is read. -/
theorem Stored.readRecord_eq (h : Stored node done (record :: queued) queue)
    (hbody : record.encode node = .ok body) :
    queue.readRecord node = .ok (body.length, record) := by
  have hencoded := DirectoryRecord.encoded_of_ok hbody
  have hfile : queue.file = frames node done ++ uint32BE body.length ++
      (body ++ frames node queued) := by
    rw [h.file, frames_cons hbody, List.append_assoc, List.append_assoc]
  have hfile' : queue.file = (frames node done ++ uint32BE body.length) ++ body ++
      frames node queued := by
    rw [hfile, ← List.append_assoc]
  have hsmall : body.length < 2 ^ 32 := lt_of_le_of_lt hencoded.length_le (by decide)
  have hfit : queue.read + 4 + body.length ≤ queue.written := by
    rw [h.read, h.written, hfile', List.length_append, List.length_append, List.length_append,
      length_uint32BE]
    omega
  have hsize : readIndexBytes queue.file 4 queue.read = .ok (uint32BE body.length) :=
    readIndexBytes_of_eq _ _ hfile rfl h.read
  have hread : readIndexBytes queue.file body.length (queue.read + 4) = .ok body :=
    readIndexBytes_of_eq _ _ hfile' rfl (by rw [h.read, List.length_append, length_uint32BE])
  have hfixed := hencoded.length
  have hlarge := hencoded.length_le
  rw [readRecord, hsize]
  show (if _ then _ else _ : Except String (Nat × DirectoryRecord)) = _
  rw [readUIntBE_uint32BE hsmall, if_neg (by simp; omega), hread]
  show (DirectoryRecord.decode node body >>= _) = _
  rw [DirectoryRecord.decode_encode hbody]
  rfl

/-- A record that is written comes last. -/
theorem Stored.append (h : Stored node done queued queue) (hbody : record.encode node = .ok body) :
    writeIndexBytes (writeIndexBytes queue.file (uint32BE body.length) queue.written) body
        (queue.written + 4) = frames node done ++ frames node (queued ++ [record]) := by
  have hposition : queue.written + 4 = (queue.file ++ uint32BE body.length).length := by
    rw [h.written, List.length_append, length_uint32BE]
  rw [hposition, h.written, writeIndexBytes_length, writeIndexBytes_length, h.file, frames_append,
    frames_singleton hbody, List.append_assoc, List.append_assoc]

end DirectoryQueue

/-- The record that a reply says was appended, or taken. -/
def QueueReply.appendedRecord : QueueReply → List DirectoryRecord
  | .appended record => [record]
  | _ => []

def QueueReply.takenRecord : QueueReply → List DirectoryRecord
  | .taken record => [record]
  | _ => []

namespace DirectoryQueue

variable {queue queue' : DirectoryQueue} {done queued : List DirectoryRecord}
  {record : DirectoryRecord} {body : Bytes} {reply : QueueReply} {failing : Option Nat}

/-- What a step may do to the records. -/
structure Moves (node : NodeRuntime) (done queued : List DirectoryRecord) (queue' : DirectoryQueue)
    (reply : QueueReply) : Prop where
  fifo : ∃ queued', queued ++ reply.appendedRecord = reply.takenRecord ++ queued' ∧
    Fifo node (done ++ reply.takenRecord) queued' queue'
  empty : reply = .empty → queued = []

theorem Moves.same {F : Fifo node done queued queue'} (happended : reply.appendedRecord = [])
    (htaken : reply.takenRecord = []) (hempty : reply = .empty → queued = []) :
    Moves node done queued queue' reply := by
  refine ⟨⟨queued, ?_, ?_⟩, hempty⟩
  · rw [happended, htaken, List.append_nil, List.nil_append]
  · rwa [htaken, List.append_nil]

theorem Fifo.runAppend (h : Fifo node done queued queue) (hfailed : queue.failed = false)
    (record : DirectoryRecord) (failing : Option Nat) :
    Moves node done queued (queue.runAppend node maxBytes record failing).1
      (queue.runAppend node maxBytes record failing).2 := by
  rw [DirectoryQueue.runAppend]
  cases hbody : record.encode node with
  | error failure => exact .same rfl rfl (fun h => (nomatch h)) (F := h)
  | ok body =>
      dsimp only
      split_ifs with hlarge
      · exact .same rfl rfl (fun h => (nomatch h)) (F := h)
      · cases failing with
        | some failing =>
            refine .same rfl rfl (fun h => (nomatch h)) (F := ?_)
            exact ⟨h.count, h.encodable, fun hnot => (nomatch hnot)⟩
        | none =>
            have hstored := h.stored hfailed
            refine ⟨⟨queued ++ [record], rfl, ?_, ?_, fun _ => ?_⟩, fun h => (nomatch h)⟩
            · rw [List.length_append, ← h.count]
              rfl
            · intro other hother
              rcases List.mem_append.mp hother with hother | hother
              · exact h.encodable other hother
              · exact ⟨body, List.mem_singleton.mp hother ▸ hbody⟩
            · show Stored node (done ++ []) (queued ++ [record]) _
              rw [List.append_nil]
              have hfile := hstored.append hbody
              refine ⟨hfile, ?_, hstored.read⟩
              dsimp only
              rw [hfile, frames_append, frames_singleton hbody, ← List.append_assoc, ← hstored.file,
                hstored.written, List.length_append, List.length_append, length_uint32BE,
                Nat.add_assoc]

theorem Fifo.runTake (h : Fifo node done queued queue) (hfailed : queue.failed = false)
    (failing : Option Nat) : Moves node done queued (queue.runTake node failing).1
      (queue.runTake node failing).2 := by
  have hstored := h.stored hfailed
  have hend := hstored.read_eq_written h.encodable
  by_cases hread : queue.read = queue.written
  · rw [DirectoryQueue.runTake.eq_def, if_pos hread]
    exact .same rfl rfl (fun _ => hend.mp hread) (F := h)
  · rw [DirectoryQueue.runTake.eq_def, if_neg hread]
    cases queued with
    | nil => exact absurd (hend.mpr rfl) hread
    | cons record queued =>
        obtain ⟨body, hbody⟩ := h.encodable record List.mem_cons_self
        rw [hstored.readRecord_eq hbody]
        -- a failed read fails the queue, and the record stays in it
        cases failing with
        | some failing =>
            refine .same rfl rfl (fun h => (nomatch h)) (F := ?_)
            exact ⟨h.count, h.encodable, fun hnot => (nomatch hnot)⟩
        | none =>
            refine ⟨⟨queued, ?_, ?_, ?_, fun _ => ?_⟩, fun h => (nomatch h)⟩
            · exact List.append_nil _
            · show queue.count - 1 = queued.length
              rw [h.count]
              rfl
            · exact fun other hother => h.encodable other (List.mem_cons_of_mem _ hother)
            · have hfile := hstored.file
              refine ⟨?_, hstored.written, ?_⟩
              · show queue.file = _
                rw [hfile, ← List.singleton_append, frames_append, frames_append, List.append_assoc]
                rfl
              · show queue.read + (4 + body.length) = _
                rw [hstored.read, frames_append, List.length_append]
                congr 1
                show _ = (frames node [record]).length
                rw [frames_singleton hbody, List.length_append, length_uint32BE]

/-- The pending call does not matter. -/
theorem Fifo.with_pending (h : Fifo node done queued queue) (pending : Option QueueCall) :
    Fifo node done queued { queue with pending } :=
  ⟨h.count, h.encodable, fun hfailed => ⟨(h.stored hfailed).file, (h.stored hfailed).written,
    (h.stored hfailed).read⟩⟩

theorem Fifo.settle (h : Fifo node done queued queue) (admitted : Bool) (failing : Option Nat) :
    Moves node done queued (queue.settle node maxBytes admitted failing).1
      (queue.settle node maxBytes admitted failing).2 := by
  have hfree := h.with_pending none
  rw [DirectoryQueue.settle]
  cases queue.pending with
  | none => exact .same rfl rfl (fun h => (nomatch h)) (F := h)
  | some call =>
      dsimp only
      split_ifs with hrefused
      · exact .same rfl rfl (fun h => (nomatch h)) (F := hfree)
      · have hfailed : queue.failed = false := by
          simp only [Bool.or_eq_true, not_or, Bool.not_eq_true] at hrefused
          exact hrefused.1.1
        cases call with
        | append record => exact hfree.runAppend hfailed record failing
        | take => exact hfree.runTake hfailed failing

theorem Fifo.step (h : Fifo node done queued queue) (event : QueueEvent) :
    Moves node done queued (queue.step node maxBytes event).1
      (queue.step node maxBytes event).2 := by
  cases event with
  | call call =>
      rw [DirectoryQueue.step]
      split_ifs
      · exact .same rfl rfl (fun h => (nomatch h)) (F := h)
      · exact .same rfl rfl (fun h => (nomatch h)) (F := h.with_pending _)
  | settle admitted failing => exact h.settle admitted failing
  | close =>
      refine .same rfl rfl (fun h => (nomatch h)) (F := ?_)
      exact ⟨h.count, h.encodable, fun hfailed => ⟨(h.stored hfailed).file,
        (h.stored hfailed).written, (h.stored hfailed).read⟩⟩

/-- The records that a run has appended, and taken. -/
def appended (trace : List (QueueEvent × QueueReply)) : List DirectoryRecord :=
  trace.flatMap fun label => label.2.appendedRecord

def taken (trace : List (QueueEvent × QueueReply)) : List DirectoryRecord :=
  trace.flatMap fun label => label.2.takenRecord

theorem Fifo.run {trace : List (QueueEvent × QueueReply)} (h : Fifo node done queued queue)
    (hrun : Run (Steps node maxBytes) queue trace queue') :
    ∃ queued', queued ++ appended trace = taken trace ++ queued' ∧
      Fifo node (done ++ taken trace) queued' queue' := by
  induction hrun generalizing done queued with
  | nil queue =>
      refine ⟨queued, List.append_nil _, ?_⟩
      show Fifo node (done ++ []) queued queue
      rwa [List.append_nil]
  | @cons queue middle queue' label trace hstep _ ih =>
      obtain ⟨event, reply⟩ := label
      obtain ⟨⟨queued', hqueued, hfifo⟩, -⟩ := @Fifo.step node maxBytes _ _ _ h event
      rw [show queue.step node maxBytes event = (middle, reply) from hstep] at hqueued hfifo
      obtain ⟨last, hlast, hfinal⟩ := ih hfifo
      refine ⟨last, ?_, ?_⟩
      · rw [appended, taken, List.flatMap_cons, List.flatMap_cons, ← List.append_assoc, hqueued,
          List.append_assoc, List.append_assoc]
        exact congrArg _ hlast
      · rw [taken, List.flatMap_cons, ← List.append_assoc]
        exact hfinal

theorem Fifo.new : Fifo node [] [] DirectoryQueue.new :=
  ⟨rfl, fun _ h => (nomatch h), fun _ => ⟨rfl, rfl, rfl⟩⟩

/-! ### Failures -/

/-- The event is the end of an append whose write fails. -/
def WriteFails (node : NodeRuntime) (maxBytes : Nat) (queue : DirectoryQueue) (event : QueueEvent) :
    Prop :=
  ∃ record body failing, queue.pending = some (.append record) ∧ queue.failed = false ∧
    queue.closed = false ∧ event = .settle true (some failing) ∧ record.encode node = .ok body ∧
    queue.written + 4 + body.length ≤ MAX_SAFE_INTEGER ∧ queue.written + 4 + body.length ≤ maxBytes

theorem WriteFails.failed {event : QueueEvent} (h : WriteFails node maxBytes queue event) :
    (queue.step node maxBytes event).1.failed = true := by
  obtain ⟨record, body, failing, hpending, hfailed, hclosed, rfl, hbody, hsafe, hfit⟩ := h
  have hrun : queue.step node maxBytes (.settle true (some failing)) =
      { queue with pending := none }.runAppend node maxBytes record (some failing) := by
    rw [step, settle, hpending]
    dsimp only
    rw [if_neg (by simp [hfailed, hclosed])]
  rw [hrun, DirectoryQueue.runAppend, hbody]
  dsimp only
  rw [if_neg (by simp; omega)]
  rfl

/-- After a failure, no call succeeds. -/
theorem step_failed (h : queue.failed = true) (event : QueueEvent) :
    (queue.step node maxBytes event).1.failed = true ∧
      ((queue.step node maxBytes event).2 = .waits ∨
        (queue.step node maxBytes event).2 = .rejected) := by
  cases event with
  | call call =>
      rw [step]
      split_ifs
      · exact ⟨h, .inr rfl⟩
      · exact ⟨h, .inl rfl⟩
  | settle admitted failing =>
      rw [step, settle]
      cases queue.pending with
      | none => exact ⟨h, .inl rfl⟩
      | some call =>
          dsimp only
          rw [if_pos (by simp [h])]
          exact ⟨h, .inr rfl⟩
  | close => exact ⟨h, .inl rfl⟩

theorem run_failed {trace : List (QueueEvent × QueueReply)} (h : queue.failed = true)
    (hrun : Run (Steps node maxBytes) queue trace queue') :
    ∀ label ∈ trace, label.2 = .waits ∨ label.2 = .rejected := by
  induction hrun with
  | nil => exact fun _ hlabel => (nomatch hlabel)
  | @cons queue middle queue' label trace hstep _ ih =>
      obtain ⟨hfailed, hreply⟩ := @step_failed node maxBytes _ h label.1
      rw [show queue.step node maxBytes label.1 = (middle, label.2) from hstep] at hfailed hreply
      intro other hother
      rcases List.mem_cons.mp hother with rfl | hother
      · exact hreply
      · exact ih hfailed other hother

/-- What a take should answer. -/
def firstReply : List DirectoryRecord → QueueReply
  | [] => .empty
  | record :: _ => .taken record

/-- A take without an error answers with the record that is first. -/
theorem Fifo.settle_take (h : Fifo node done queued queue) (hpending : queue.pending = some .take)
    (hfailed : queue.failed = false) (hclosed : queue.closed = false) :
    (queue.step node maxBytes (.settle true none)).2 = firstReply queued := by
  have hstored := (h.with_pending none).stored hfailed
  have hend := hstored.read_eq_written h.encodable
  have hrun : queue.step node maxBytes (.settle true none) =
      { queue with pending := none }.runTake node none := by
    rw [DirectoryQueue.step, DirectoryQueue.settle, hpending]
    dsimp only
    rw [if_neg (by simp [hfailed, hclosed])]
  rw [hrun, DirectoryQueue.runTake.eq_def]
  cases queued with
  | nil => exact congrArg Prod.snd (if_pos (hend.mpr rfl))
  | cons record queued =>
      obtain ⟨body, hbody⟩ := h.encodable record List.mem_cons_self
      rw [if_neg fun hread => (nomatch hend.mp hread), hstored.readRecord_eq hbody]
      rfl

end DirectoryQueue

open DirectoryQueue in
/-- The queue is a lossless first-in first-out queue: what was taken and what is
queued is what was appended, in order. -/
theorem directoryQueue_fifo {trace : List (QueueEvent × QueueReply)} {queue : DirectoryQueue}
    (h : Run (Steps node maxBytes) .new trace queue) :
    (∃ queued, appended trace = taken trace ++ queued ∧ queue.count = queued.length ∧
      (∀ event, (queue.step node maxBytes event).2 = .empty → queued = []) ∧
      (queue.pending = some .take → queue.failed = false → queue.closed = false →
        (queue.step node maxBytes (.settle true none)).2 = firstReply queued)) ∧
    (∀ event, WriteFails node maxBytes queue event → ∀ later queue',
      Run (Steps node maxBytes) (queue.step node maxBytes event).1 later queue' →
        ∀ label ∈ later, label.2 = .waits ∨ label.2 = .rejected) ∧
    ∀ record body, DirectoryRecord.encode node record = .ok body →
      DirectoryRecord.decode node body = .ok record := by
  obtain ⟨queued, hqueued, hfifo⟩ := Fifo.new.run h
  refine ⟨⟨queued, hqueued, hfifo.count, fun event => (hfifo.step event).empty, hfifo.settle_take⟩,
    fun event hfails later queue' => run_failed hfails.failed, fun record body =>
      DirectoryRecord.decode_encode⟩

/-- The root of the first mount. -/
def rootRecord : DirectoryRecord where
  mount := 0
  path := ""
  custody := List.replicate 64 7

/-- The root is appended and taken, and a second take finds the end. -/
def rootTrace : List (QueueEvent × QueueReply) :=
  [(.call (.append rootRecord), .waits), (.settle true none, .appended rootRecord),
    (.call .take, .waits), (.call .take, .rejected), (.settle true none, .taken rootRecord),
    (.call .take, .waits)]

open DirectoryQueue in
theorem rootTrace_run : ∃ queue : DirectoryQueue, Run (Steps asciiRuntime 1000) .new rootTrace queue ∧
    queue.pending = some .take ∧ queue.failed = false ∧ queue.closed = false :=
  ⟨_, .cons rfl (.cons rfl (.cons rfl (.cons rfl (.cons rfl (.single rfl))))), rfl, rfl, rfl⟩

open DirectoryQueue in
theorem directoryQueue_fifo_root : ∃ queue : DirectoryQueue, queue.count = 0 ∧
    (queue.step asciiRuntime 1000 (.settle true none)).2 = .empty := by
  obtain ⟨queue, hrun, hpending, hfailed, hclosed⟩ := rootTrace_run
  obtain ⟨⟨queued, hqueued, hcount, -, hnext⟩, -⟩ := directoryQueue_fifo hrun
  obtain rfl : queued = [] := by
    have hlength := congrArg List.length hqueued
    rw [List.length_append] at hlength
    exact List.eq_nil_of_length_eq_zero (Nat.left_eq_add.mp hlength)
  exact ⟨queue, hcount, hnext hpending hfailed hclosed⟩

end PocketCoder.Checkpoints
