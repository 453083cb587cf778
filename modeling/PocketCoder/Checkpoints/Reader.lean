import PocketCoder.Checkpoints.Payload

/-!
The archive reader (`contracts/src/checkpoints/archive-reader.ts`), without an
abort signal and with callbacks that do not throw.

What the reader tells its caller is the list of callbacks in their order. The
main result, `readCheckpointArchive_emits`, is the counterpart of the writer's:
the reader accepts a byte string exactly when it is the archive of some header
and records, and then it has delivered these.
-/

namespace PocketCoder.Checkpoints

open PocketCoder.Foundation Generator

/-- A callback of the reader. -/
inductive ReadEvent where
  | onHeader (header : CheckpointArchiveHeader)
  | onEntry (entry : CheckpointArchiveEntry)
  | onData (entry : CheckpointArchiveEntry) (bytes : Bytes)
  | onEntryComplete (entry : CheckpointArchiveEntry)

/-- What `readCheckpointArchive` returns. -/
structure ArchiveReport where
  header : CheckpointArchiveHeader
  summary : CheckpointArchiveSummary
  archiveBytes : Nat
  archiveDigest : String

namespace Reader

/-- `padding(input, size)`. -/
def skipPadding (size : Nat) : InputM ReadEvent Unit := do
  let bytes ← InputM.read (padding size)
  if bytes.1.any (· ≠ 0) then InputM.lift (.error "Invalid checkpoint tar padding.")
  else pure ()

def document (size limit : Nat) : InputM ReadEvent Bytes :=
  if size > limit then
    InputM.lift (.error "Checkpoint metadata document exceeds its size limit.")
  else do
    let bytes ← InputM.read size
    skipPadding size
    pure bytes.1

/-- `parseCheckpointTarHeader(await input.read(512))`. -/
def nextHeader : InputM ReadEvent (String × Nat) := do
  let block ← InputM.read 512
  InputM.lift (parseCheckpointTarHeader block.1)

def member (name : String) (size : Option Nat) : InputM ReadEvent (String × Nat) := do
  let parsed ← nextHeader
  if parsed.1 ≠ name ∨ size.any (fun s => parsed.2 ≠ s) then
    InputM.lift (.error "Unexpected checkpoint tar member or size.")
  else pure parsed

/-- `while (remaining) { ... }`. -/
def payloadMembers (entry : CheckpointArchiveEntry) (state : ArchiveState) (hash : Bytes)
    (remaining chunk : Nat) : InputM ReadEvent (ArchiveState × Bytes) :=
  if remaining = 0 then pure (state, hash)
  else do
    let size := min remaining CHECKPOINT_PAYLOAD_BYTES
    let index ← InputM.lift (checkpointIndex (state.entries - 1))
    let part ← InputM.lift (checkpointIndex chunk)
    let _ ← member ("payload/" ++ index ++ "/" ++ part) (some size)
    let (state, hash) ← payloadBody (.onData entry) state hash size
    skipPadding size
    payloadMembers entry state hash (remaining - size) (chunk + 1)
termination_by remaining
decreasing_by
  have : 0 < CHECKPOINT_PAYLOAD_BYTES := by decide
  omega

def payload (node : NodeRuntime) (entry : CheckpointArchiveEntry) (state : ArchiveState) :
    InputM ReadEvent ArchiveState :=
  match entry.kind with
  | .file digest => do
      let (state, hash) ←
        payloadMembers entry (state.beginPayload entry.size) [] entry.size 0
      if node.digest hash ≠ digest then
        InputM.lift (.error "Checkpoint file content digest does not match.")
      else pure state
  | _ => pure state

/-- How one round of `while (true)` ends. -/
inductive Parsed where
  | finished (summary : CheckpointArchiveSummary)
  | entry (state : ArchiveState)

/-- The branch of `summary.json`, up to `input.end()`. -/
def parseSummary (node : NodeRuntime) (state : ArchiveState) (size : Nat) :
    InputM ReadEvent Parsed := do
  let bytes ← document size CHECKPOINT_DOCUMENT_BYTES
  let summary ← InputM.lift
    (checkpointDocument node CheckpointArchiveSummarySchema "summary" bytes)
  let observed ← InputM.lift (state.summary node)
  if canonicalJson summary.toJson ≠ canonicalJson observed.toJson then
    InputM.lift (.error "Checkpoint summary does not match observed content.")
  else do
    let last ← InputM.read 1024
    if last.1.any (· ≠ 0) then InputM.lift (.error "Invalid checkpoint tar end.")
    else pure (.finished summary)

/-- The branch of an entry, after its name has been read. -/
def parseEntry (node : NodeRuntime) (state : ArchiveState) (size : Nat) :
    InputM ReadEvent Parsed := do
  let record ← document size CHECKPOINT_ENTRY_BYTES
  let entry ← InputM.lift
    (checkpointDocument node (CheckpointArchiveEntrySchema node) "entry" record)
  let state ← InputM.lift (state.record entry record)
  InputM.emit (.onEntry entry)
  let state ← payload node entry state
  InputM.emit (.onEntryComplete entry)
  pure (.entry state)

/-- One round of `while (true)`. -/
def parseNext (node : NodeRuntime) (state : ArchiveState) : InputM ReadEvent Parsed := do
  let next ← nextHeader
  if next.1 = "summary.json" then parseSummary node state next.2
  else do
    let index ← InputM.lift (checkpointIndex state.entries)
    if next.1 ≠ "entries/" ++ index ++ ".json" then
      InputM.lift (.error "Unexpected checkpoint entry order.")
    else parseEntry node state next.2

end Reader

/-! ### What the reader delivers -/

/-- The callbacks for one record. -/
def recordEvents (record : ArchiveRecord) : List ReadEvent :=
  .onEntry record.entry ::
    (((chunksOf CHECKPOINT_PAYLOAD_BYTES record.content).flatMap
      (chunksOf CHECKPOINT_IO_BYTES)).map (.onData record.entry) ++ [.onEntryComplete record.entry])

namespace Reader

theorem any_ne_zero_iff (bytes : Bytes) :
    ¬(bytes.any (· ≠ 0) = true) ↔ bytes = zeros bytes.length := by
  rw [zeros, List.eq_replicate_iff]
  simp

theorem skipPadding_reads (size : Nat) :
    Reads (skipPadding size) fun out _ bytes => out = [] ∧ bytes = zeros (padding size) := by
  have hio : padding size ≤ CHECKPOINT_IO_BYTES := le_trans (padding_le size).le (by decide)
  refine (Reads.read_bind hio fun a => Reads.guard fun _ => Reads.pure ()).congr
    fun out u bytes => ?_
  constructor
  · rintro ⟨⟨zero, hlen⟩, rest, rfl, hzero, rfl, -, rfl⟩
    rw [any_ne_zero_iff, hlen] at hzero
    exact ⟨rfl, by rw [List.append_nil, hzero]⟩
  · rintro ⟨rfl, rfl⟩
    refine ⟨⟨zeros (padding size), length_zeros _⟩, [], (List.append_nil _).symm, ?_, rfl, rfl, rfl⟩
    rw [any_ne_zero_iff, length_zeros]

theorem document_reads {size limit : Nat} (hlimit : limit ≤ CHECKPOINT_IO_BYTES) :
    Reads (document size limit) fun out a bytes =>
      out = [] ∧ a.length = size ∧ size ≤ limit ∧ bytes = a ++ zeros (padding size) := by
  refine (Reads.guard fun hsize => Reads.read_bind (by omega) fun a =>
    (skipPadding_reads size).bind (M := fun _ => _) fun _ => Reads.pure a.1).congr
    fun out a bytes => ?_
  constructor
  · rintro ⟨hsize, ⟨content, hlen⟩, rest, rfl, -, -, -, _, _, ⟨rfl, rfl⟩, ⟨rfl, rfl, rfl⟩, rfl, rfl⟩
    exact ⟨rfl, hlen, by omega, by rw [List.append_nil]⟩
  · rintro ⟨rfl, hlen, hsize, rfl⟩
    exact ⟨by omega, ⟨a, hlen⟩, zeros (padding size), rfl, (), [], [], _, [], ⟨rfl, rfl⟩,
      ⟨rfl, rfl, rfl⟩, rfl, (List.append_nil _).symm⟩

theorem nextHeader_reads :
    Reads nextHeader fun out a bytes =>
      out = [] ∧ tarHeaderValid a.1 a.2 = true ∧ bytes = headerBlock a.1 a.2 := by
  refine (Reads.read_bind (by decide) fun block => Reads.lift _).congr fun out a bytes => ?_
  obtain ⟨name, size⟩ := a
  simp only [parseCheckpointTarHeader_eq_ok, checkpointTarHeader_eq_ok]
  constructor
  · rintro ⟨⟨block, hlen⟩, rest, rfl, ⟨hvalid, hblock⟩, rfl, rfl⟩
    exact ⟨rfl, hvalid, by rw [List.append_nil, hblock]⟩
  · rintro ⟨rfl, hvalid, rfl⟩
    exact ⟨⟨_, length_headerBlock hvalid⟩, [], (List.append_nil _).symm, ⟨hvalid, rfl⟩, rfl, rfl⟩

theorem member_reads (name : String) (size : Option Nat) :
    Reads (member name size) fun out a bytes =>
      out = [] ∧ a.1 = name ∧ (∀ s ∈ size, a.2 = s) ∧ tarHeaderValid name a.2 = true ∧
        bytes = headerBlock name a.2 := by
  refine (nextHeader_reads.bind fun {_ a _} _ => Reads.guard fun _ => Reads.pure a).congr
    fun out a bytes => ?_
  have hsize : size.any (fun s => decide (a.2 ≠ s)) = true ↔ ¬∀ s ∈ size, a.2 = s := by
    cases size <;> simp
  constructor
  · rintro ⟨_, _, _, _, _, ⟨rfl, hvalid, rfl⟩, ⟨hguard, rfl, rfl, rfl⟩, rfl, rfl⟩
    rw [not_or, hsize, not_not, not_not] at hguard
    obtain ⟨rfl, hall⟩ := hguard
    exact ⟨rfl, rfl, hall, hvalid, List.append_nil _⟩
  · rintro ⟨rfl, rfl, hall, hvalid, rfl⟩
    refine ⟨a, [], [], _, [], ⟨rfl, hvalid, rfl⟩, ⟨?_, rfl, rfl, rfl⟩, rfl, (List.append_nil _).symm⟩
    rw [not_or, hsize, not_not, not_not]
    exact ⟨rfl, hall⟩

/-- The callbacks for the content of a file. -/
def dataEvents (entry : CheckpointArchiveEntry) (pieces : List Bytes) : List ReadEvent :=
  (pieces.flatMap (chunksOf CHECKPOINT_IO_BYTES)).map (.onData entry)

theorem payloadMembers_reads (entry : CheckpointArchiveEntry) (state : ArchiveState)
    (hash : Bytes) (remaining chunk : Nat) (hindex : state.entries - 1 ≤ MAX_SAFE_INTEGER)
    (hchunk : chunk + remaining ≤ MAX_SAFE_INTEGER) :
    Reads (payloadMembers entry state hash remaining chunk) fun out a bytes =>
      ∃ content, content.length = remaining ∧
        bytes = payloadBytes (state.entries - 1) chunk
          (chunksOf CHECKPOINT_PAYLOAD_BYTES content) ∧
        out = dataEvents entry (chunksOf CHECKPOINT_PAYLOAD_BYTES content) ∧
        a = (state.payload content, hash ++ content) := by
  have hpositive : 0 < CHECKPOINT_PAYLOAD_BYTES := by decide
  have hoctal : CHECKPOINT_PAYLOAD_BYTES ≤ 0o77777777777 := by decide
  induction remaining using Nat.strong_induction_on generalizing state hash chunk with
  | _ remaining ih =>
      unfold payloadMembers
      by_cases hremaining : remaining = 0
      · rw [if_pos hremaining]
        refine (Reads.pure _).congr fun out a bytes => ?_
        constructor
        · rintro ⟨rfl, rfl, rfl⟩
          exact ⟨[], hremaining.symm, by simp [payloadBytes], by simp [dataEvents],
            by rw [ArchiveState.payload_nil, List.append_nil]⟩
        · rintro ⟨content, hlen, rfl, rfl, rfl⟩
          obtain rfl := List.eq_nil_of_length_eq_zero (hlen.trans hremaining)
          simp [ArchiveState.payload_nil, payloadBytes, dataEvents]
      · rw [if_neg hremaining]
        -- one member holds up to `CHECKPOINT_PAYLOAD_BYTES`; the rest is the induction hypothesis
        set size := min remaining CHECKPOINT_PAYLOAD_BYTES with hsize
        have hvalid : tarHeaderValid (payloadName (state.entries - 1) chunk) size = true :=
          tarHeaderValid_payloadName hindex (by omega) (by omega)
        have hrest {out : List ReadEvent} {a : ArchiveState × Bytes} {piece : Bytes}
            (h : (piece.length = size ∧
                out = (chunksOf CHECKPOINT_IO_BYTES piece).map (.onData entry)) ∧
              a = (state.payload piece, hash ++ piece)) :=
          (skipPadding_reads size).bind (M := fun _ => _) fun _ => ih (remaining - size) (by omega)
            a.1 a.2 (chunk + 1) (by rw [h.2]; simpa using hindex) (by omega)
        refine (Reads.ok_bind (checkpointIndex_eq_ok.mpr ⟨hindex, rfl⟩)
          (Reads.ok_bind (checkpointIndex_eq_ok.mpr ⟨by omega, rfl⟩)
            ((member_reads _ (some size)).bind (M := fun _ => _) fun _ =>
              (payloadBody_reads (ReadEvent.onData entry) state hash size).bind hrest))).congr
          fun out a bytes => ?_
        constructor
        · rintro ⟨⟨name, _⟩, _, _, _, _, ⟨rfl, rfl, hmember, -, rfl⟩,
            ⟨_, _, _, piece, _, ⟨⟨hpiece, rfl⟩, rfl⟩, ⟨_, _, _, _, _, ⟨rfl, rfl⟩,
              ⟨rest, hlen, rfl, rfl, rfl⟩, rfl, rfl⟩, rfl, rfl⟩, rfl, rfl⟩
          obtain rfl := hmember size rfl
          -- a full member in front leaves the cuts of the rest where they are
          have hcut := chunksOf_append rest hpositive (by omega) hpiece (by omega)
          refine ⟨piece ++ rest, by rw [List.length_append]; omega, ?_, ?_, ?_⟩
          · rw [hcut, payloadBytes, memberBytes, hpiece, ArchiveState.entries_payload]
            simp only [List.append_assoc]
            rfl
          · rw [hcut]
            simp [dataEvents]
          · rw [ArchiveState.payload_payload, List.append_assoc]
        · rintro ⟨content, hlen, rfl, rfl, rfl⟩
          have hne : content ≠ [] := by
            intro hnil
            rw [hnil, List.length_nil] at hlen
            omega
          have htake : (content.take CHECKPOINT_PAYLOAD_BYTES).length = size := by
            rw [List.length_take, hlen, min_comm]
          refine ⟨(payloadName (state.entries - 1) chunk, size), [], _, _, _,
            ⟨rfl, rfl, by simp, hvalid, rfl⟩,
            ⟨_, _, _, content.take CHECKPOINT_PAYLOAD_BYTES, _, ⟨⟨htake, rfl⟩, rfl⟩,
              ⟨(), [], _, _, _, ⟨rfl, rfl⟩, ⟨content.drop CHECKPOINT_PAYLOAD_BYTES, ?_, rfl, rfl, ?_⟩,
                rfl, rfl⟩, rfl, rfl⟩, ?_, ?_⟩
          · rw [List.length_drop]
            omega
          · rw [ArchiveState.payload_payload, List.append_assoc, List.take_append_drop]
          · rw [chunksOf_of_ne_nil hpositive hne]
            simp [dataEvents]
          · rw [chunksOf_of_ne_nil hpositive hne, payloadBytes, memberBytes, htake,
              ArchiveState.entries_payload]
            simp only [List.append_assoc]
            rfl

theorem payload_reads {node : NodeRuntime} {entry : CheckpointArchiveEntry} {state : ArchiveState}
    (hconforms : entry.conforms node = true) (hindex : state.entries - 1 ≤ MAX_SAFE_INTEGER) :
    Reads (payload node entry state) fun out a bytes => ∃ content,
      ArchiveRecord.Matches node ⟨entry, content⟩ ∧
        bytes = payloadBytes (state.entries - 1) 0 (chunksOf CHECKPOINT_PAYLOAD_BYTES content) ∧
        out = dataEvents entry (chunksOf CHECKPOINT_PAYLOAD_BYTES content) ∧
        a = state.afterPayload ⟨entry, content⟩ := by
  obtain ⟨mount, path, mode, mtime, size, kind⟩ := entry
  cases kind with
  | directory =>
      refine (Reads.pure state).congr fun out a bytes => ?_
      simp only [ArchiveRecord.Matches, ArchiveState.afterPayload, exists_eq_left, chunksOf_nil,
        payloadBytes, dataEvents, List.flatMap_nil, List.map_nil]
      exact ⟨fun ⟨hout, ha, hbytes⟩ => ⟨hbytes, hout, ha⟩,
        fun ⟨hbytes, hout, ha⟩ => ⟨hout, ha, hbytes⟩⟩
  | symlink digest target =>
      refine (Reads.pure state).congr fun out a bytes => ?_
      simp only [ArchiveRecord.Matches, ArchiveState.afterPayload, exists_eq_left, chunksOf_nil,
        payloadBytes, dataEvents, List.flatMap_nil, List.map_nil]
      exact ⟨fun ⟨hout, ha, hbytes⟩ => ⟨hbytes, hout, ha⟩,
        fun ⟨hbytes, hout, ha⟩ => ⟨hout, ha, hbytes⟩⟩
  | file digest =>
      have hsize : size ≤ MAX_SAFE_INTEGER := by
        simp only [CheckpointArchiveEntry.conforms, Bool.and_eq_true, isCount,
          decide_eq_true_eq] at hconforms
        exact hconforms.2.1
      refine ((payloadMembers_reads _ (state.beginPayload size) [] size 0 (by simpa using hindex)
        (by omega)).bind fun {_ a _} _ => Reads.guard (c := node.digest a.2 ≠ digest)
          fun _ => Reads.pure a.1).congr fun out a bytes => ?_
      simp only [ArchiveRecord.Matches, ArchiveState.afterPayload]
      constructor
      · rintro ⟨_, _, _, _, _, ⟨content, hlen, rfl, rfl, rfl⟩, ⟨hdigest, rfl, rfl, rfl⟩, rfl, rfl⟩
        exact ⟨content, ⟨hlen, not_not.mp hdigest⟩, List.append_nil _, List.append_nil _, rfl⟩
      · rintro ⟨content, ⟨hlen, hdigest⟩, rfl, rfl, rfl⟩
        exact ⟨_, _, [], _, [], ⟨content, hlen, rfl, rfl, rfl⟩,
          ⟨not_not.mpr hdigest, rfl, rfl, rfl⟩, (List.append_nil _).symm, (List.append_nil _).symm⟩

theorem parseSummary_reads {node : NodeRuntime} {state : ArchiveState} {size : Nat} :
    Reads (parseSummary node state size) fun out a bytes => out = [] ∧ ∃ summary,
      a = .finished summary ∧ Closes node state summary ∧
        (CheckpointArchiveSummarySchema.bytes summary).length = size ∧
        bytes = CheckpointArchiveSummarySchema.bytes summary ++ zeros (padding size) ++
          zeros 1024 := by
  refine ((document_reads (by decide)).bind fun {_ content _} _ => Reads.lift_bind fun summary _ =>
    Reads.lift_bind fun observed _ => Reads.guard fun _ => Reads.read_bind (by decide)
      fun last => Reads.guard fun _ => Reads.pure (Parsed.finished summary)).congr
    fun out a bytes => ?_
  constructor
  · rintro ⟨_, _, _, _, _, ⟨rfl, hlen, hshort, rfl⟩, ⟨summary, hdocument, observed, hobserved,
      hsame, ⟨last, hlast⟩, _, rfl, hzero, rfl, rfl, rfl⟩, rfl, rfl⟩
    obtain ⟨hconforms, rfl⟩ := checkpointDocument_eq_ok.mp hdocument
    obtain rfl : summary = observed :=
      CheckpointArchiveSummarySchema.eq_of_canonicalJson (not_not.mp hsame)
    rw [any_ne_zero_iff, hlast] at hzero
    refine ⟨rfl, summary, rfl, ⟨hobserved, hconforms, hlen ▸ hshort⟩, hlen, ?_⟩
    rw [List.append_nil, hzero]
  · rintro ⟨rfl, summary, rfl, ⟨hobserved, hconforms, hshort⟩, hlen, rfl⟩
    refine ⟨_, [], [], _, zeros 1024, ⟨rfl, hlen, hlen ▸ hshort, rfl⟩, ⟨summary,
      checkpointDocument_eq_ok.mpr ⟨hconforms, rfl⟩, summary, hobserved, not_not.mpr rfl,
      ⟨zeros 1024, length_zeros _⟩, [], (List.append_nil _).symm, ?_, rfl, rfl, rfl⟩, rfl, rfl⟩
    rw [any_ne_zero_iff, length_zeros]

theorem parseEntry_reads {node : NodeRuntime} {state : ArchiveState} {size : Nat}
    (hindex : state.entries ≤ MAX_SAFE_INTEGER) :
    Reads (parseEntry node state size) fun out a bytes => ∃ record state',
      a = .entry state' ∧ Extends node state record state' ∧
        (entryBytes node record.entry).length = size ∧ out = recordEvents record ∧
        bytes = entryBytes node record.entry ++ zeros (padding size) ++
          payloadBytes state.entries 0 (chunksOf CHECKPOINT_PAYLOAD_BYTES record.content) := by
  refine ((document_reads (by decide)).bind fun {_ content _} _ => Reads.lift_bind fun entry he =>
    Reads.lift_bind fun mid hmid => Reads.emit_bind _ ((payload_reads
      (checkpointDocument_eq_ok.mp he).1 (by rwa [ArchiveState.entries_sub_one hmid])).bind
        fun {_ a _} _ => Reads.emit_bind _ (Reads.pure (Parsed.entry a)))).congr fun out a bytes => ?_
  constructor
  · rintro ⟨_, _, _, _, _, ⟨rfl, hlen, hshort, rfl⟩, ⟨entry, hdocument, mid, hmid, _, rfl, _, _, _,
      _, _, ⟨content, hmatches, rfl, rfl, rfl⟩, ⟨_, rfl, rfl, rfl, rfl⟩, rfl, rfl⟩, rfl, rfl⟩
    obtain ⟨hconforms, rfl⟩ := checkpointDocument_eq_ok.mp hdocument
    refine ⟨⟨entry, content⟩, _, rfl,
      ⟨hconforms, hlen ▸ hshort, hindex, hmatches, mid, hmid, rfl⟩, hlen, ?_, ?_⟩
    · rfl
    · rw [ArchiveState.entries_sub_one hmid, List.append_nil]
      rfl
  · rintro ⟨⟨entry, content⟩, _, rfl,
      ⟨hconforms, hshort, -, hmatches, mid, hmid, rfl⟩, hlen, rfl, rfl⟩
    refine ⟨entryBytes node entry, [], recordEvents ⟨entry, content⟩, _,
      payloadBytes state.entries 0 (chunksOf CHECKPOINT_PAYLOAD_BYTES content),
      ⟨rfl, hlen, hlen ▸ hshort, rfl⟩, ⟨entry, checkpointDocument_eq_ok.mpr ⟨hconforms, rfl⟩, mid,
        hmid, _, rfl, _, dataEvents entry (chunksOf CHECKPOINT_PAYLOAD_BYTES content), _, _, [],
        ⟨content, hmatches, rfl, rfl, rfl⟩, ⟨[], rfl, rfl, rfl, rfl⟩, rfl, ?_⟩, rfl, rfl⟩
    rw [ArchiveState.entries_sub_one hmid, List.append_nil]

/-- One round reads the closing members or one record. -/
theorem parseNext_reads {node : NodeRuntime} {state : ArchiveState} :
    Reads (parseNext node state) fun out a bytes =>
      (∃ summary, a = .finished summary ∧ Closes node state summary ∧ out = [] ∧
        bytes = trailerBytes summary) ∨
      (∃ record state', a = .entry state' ∧ Extends node state record state' ∧
        out = recordEvents record ∧ bytes = recordBytes node state.entries record) := by
  refine (nextHeader_reads.bind fun {_ next _} _ => Reads.ite (c := next.1 = "summary.json")
    (fun _ => parseSummary_reads) fun _ => Reads.lift_bind fun index hindex =>
      Reads.guard (c := next.1 ≠ "entries/" ++ index ++ ".json") fun _ =>
        parseEntry_reads (checkpointIndex_eq_ok.mp hindex).1).congr fun out a bytes => ?_
  constructor
  · rintro ⟨⟨name, size⟩, _, _, _, _, ⟨rfl, hvalid, rfl⟩, hnext, rfl, rfl⟩
    dsimp only at hnext
    split at hnext
    · rename_i hname
      obtain ⟨rfl, summary, rfl, hcloses, rfl, rfl⟩ := hnext
      refine .inl ⟨summary, rfl, hcloses, rfl, ?_⟩
      rw [hname, trailerBytes, memberBytes]
      simp only [List.append_assoc]
    · obtain ⟨index, hindex, hname, record, state', rfl, hextends, rfl, rfl, rfl⟩ := hnext
      obtain ⟨-, rfl⟩ := checkpointIndex_eq_ok.mp hindex
      refine .inr ⟨record, state', rfl, hextends, rfl, ?_⟩
      rw [not_not.mp hname, recordBytes, memberBytes]
      simp only [List.append_assoc]
      rfl
  · rintro (⟨summary, rfl, hcloses, rfl, rfl⟩ | ⟨record, state', rfl, hextends, rfl, rfl⟩)
    -- the archive says which member comes next, so the branch is known
    · refine ⟨("summary.json", (CheckpointArchiveSummarySchema.bytes summary).length), [], [],
        headerBlock "summary.json" (CheckpointArchiveSummarySchema.bytes summary).length,
        CheckpointArchiveSummarySchema.bytes summary ++
          zeros (padding (CheckpointArchiveSummarySchema.bytes summary).length) ++ zeros 1024,
        ⟨rfl, tarHeaderValid_summary hcloses.short, rfl⟩, ?_, rfl, ?_⟩
      · rw [if_pos rfl]
        exact ⟨rfl, summary, rfl, hcloses, rfl, rfl⟩
      · rw [trailerBytes, memberBytes]
        simp only [List.append_assoc]
    · have hoctal : CHECKPOINT_ENTRY_BYTES ≤ 0o77777777777 := by decide
      refine ⟨(entryName state.entries, (entryBytes node record.entry).length), [],
        recordEvents record,
        headerBlock (entryName state.entries) (entryBytes node record.entry).length,
        entryBytes node record.entry ++ zeros (padding (entryBytes node record.entry).length) ++
          payloadBytes state.entries 0 (chunksOf CHECKPOINT_PAYLOAD_BYTES record.content),
        ⟨rfl, tarHeaderValid_entryName hextends.index (le_trans hextends.short hoctal), rfl⟩, ?_,
        rfl, ?_⟩
      · rw [if_neg (entryName_ne_summary _)]
        exact ⟨_, checkpointIndex_eq_ok.mpr ⟨hextends.index, rfl⟩, not_not.mpr rfl, record, state',
          rfl, hextends, rfl, rfl, rfl⟩
      · rw [recordBytes, memberBytes]
        simp only [List.append_assoc]

-- From here on a round is known by its grammar.
attribute [irreducible] parseNext

/-- A round that reads a record takes at least its header from the input. -/
theorem parseNext_shorter {node : NodeRuntime} {state state' : ArchiveState}
    {input input' : CheckpointInput}
    (h : (parseNext node state input).result = .ok (.entry state', input')) :
    input'.remaining.length < input.remaining.length := by
  obtain ⟨bytes, hgrammar, hconsumes, -⟩ := parseNext_reads.sound
    (show Emits (parseNext node state input) _ (.entry state', input') from ⟨h, rfl⟩)
  rcases hgrammar with ⟨summary, hsummary, -⟩ | ⟨record, state', -, hextends, -, rfl⟩
  · exact nomatch hsummary
  · have hlen := congrArg List.length hconsumes.remaining
    have hheader := length_headerBlock (tarHeaderValid_entryName hextends.index
      (le_trans hextends.short (by decide)))
    simp only [recordBytes, memberBytes, List.length_append] at hlen
    omega

set_option maxRecDepth 1000 in
/-- `while (true)`: rounds until one finds the summary. -/
def parseEntries (node : NodeRuntime) (state : ArchiveState) :
    InputM ReadEvent CheckpointArchiveSummary := fun input =>
  match _hround : (parseNext node state input).result with
  | .error e => ⟨(parseNext node state input).pieces, .error e⟩
  | .ok (.finished summary, input') =>
      ⟨(parseNext node state input).pieces, .ok (summary, input')⟩
  | .ok (.entry state', input') =>
      ⟨(parseNext node state input).pieces ++ (parseEntries node state' input').pieces,
        (parseEntries node state' input').result⟩
termination_by input => input.remaining.length
decreasing_by all_goals exact parseNext_shorter _hround

/-- The loop ends with a round that finds the summary. -/
theorem parseEntries_emits {node : NodeRuntime} {state : ArchiveState}
    {input input' : CheckpointInput} {out : List ReadEvent} {summary : CheckpointArchiveSummary} :
    Emits (parseEntries node state input) out (summary, input') ↔
      Emits (parseNext node state input) out (.finished summary, input') ∨
      ∃ state' input₁ out₁ out₂, Emits (parseNext node state input) out₁ (.entry state', input₁) ∧
        Emits (parseEntries node state' input₁) out₂ (summary, input') ∧ out = out₁ ++ out₂ := by
  rw [parseEntries]
  split
  · rename_i hround
    simp [Emits, hround]
  · rename_i summary' input₁ hround
    simp [Emits, hround]
  · rename_i state₁ input₁ hround
    simp only [Emits, hround, Except.ok.injEq, Prod.mk.injEq, reduceCtorEq, false_and, false_or,
      Parsed.entry.injEq]
    constructor
    · rintro ⟨hresult, rfl⟩
      exact ⟨state₁, input₁, _, _, ⟨⟨rfl, rfl⟩, rfl⟩, ⟨hresult, rfl⟩, rfl⟩
    · rintro ⟨_, _, _, _, ⟨⟨rfl, rfl⟩, rfl⟩, ⟨hresult, rfl⟩, rfl⟩
      exact ⟨hresult, rfl⟩

theorem parseEntries_reads {node : NodeRuntime} {state : ArchiveState} :
    Reads (parseEntries node state) fun out summary bytes => ∃ records body final,
      Records node state records body final ∧ Closes node final summary ∧
        out = records.flatMap recordEvents ∧ bytes = body ++ trailerBytes summary where
  sound := by
    intro input
    -- The loop is followed on the bytes left, which every record shortens.
    induction hn : input.remaining.length using Nat.strong_induction_on generalizing state input with
    | _ n ih =>
        intro input' out summary h
        rcases parseEntries_emits.mp h with hlast | ⟨state', input₁, out₁, out₂, hround, hrest, rfl⟩
        · obtain ⟨bytes, hgrammar, hconsumes, hmax⟩ := parseNext_reads.sound hlast
          rcases hgrammar with ⟨_, hsummary, hcloses, rfl, rfl⟩ | ⟨_, _, hentry, -⟩
          · obtain rfl := Parsed.finished.inj hsummary
            exact ⟨_, ⟨[], [], state, .nil state, hcloses, rfl, rfl⟩, hconsumes, hmax⟩
          · exact nomatch hentry
        · have hshorter := parseNext_shorter hround.1
          obtain ⟨bytes, hgrammar, hconsumes, hmax⟩ := parseNext_reads.sound hround
          obtain ⟨_, ⟨records, body, final, hrecords, hcloses, rfl, rfl⟩, hconsumes', hmax'⟩ :=
            ih _ (by omega) rfl hrest
          rcases hgrammar with ⟨_, hsummary, -⟩ | ⟨record, _, hentry, hextends, rfl, rfl⟩
          · exact nomatch hsummary
          · obtain rfl := Parsed.entry.inj hentry
            refine ⟨_, ⟨record :: records, _, final, .cons hextends hrecords, hcloses, rfl, rfl⟩, ?_,
              hmax' ∘ hmax⟩
            rw [List.append_assoc]
            exact hconsumes.trans hconsumes'
  complete := by
    rintro input rest bytes out summary ⟨records, body, final, hrecords, hcloses, rfl, rfl⟩ hremaining
      hmax
    -- every record of the archive is one round, which consumes exactly its bytes
    induction hrecords generalizing input with
    | nil state =>
        obtain ⟨input', hround, hconsumes⟩ := parseNext_reads.complete
          (.inl ⟨summary, rfl, hcloses, rfl, rfl⟩) hremaining hmax
        exact ⟨input', parseEntries_emits.mpr (.inl hround), hconsumes⟩
    | @cons state mid final record records out head tail ih =>
        rw [List.append_assoc] at hmax hremaining
        rw [List.length_append] at hmax
        rw [List.append_assoc] at hremaining
        obtain ⟨input₁, hround, hconsumes⟩ := parseNext_reads.complete
          (.inr ⟨record, mid, rfl, head, rfl, rfl⟩) hremaining (by omega)
        have hremaining₁ := List.append_cancel_left (hconsumes.remaining.symm.trans hremaining)
        obtain ⟨input', hrest, hconsumes'⟩ := ih hcloses
          (hremaining₁.trans (List.append_assoc _ _ _).symm) (by
          rw [hconsumes.bytes, hconsumes.maxBytes]
          omega)
        refine ⟨input', parseEntries_emits.mpr (.inr ⟨mid, input₁, _, _, hround, hrest, rfl⟩), ?_⟩
        rw [List.append_assoc]
        exact hconsumes.trans hconsumes'

def parseArchive (node : NodeRuntime) :
    InputM ReadEvent (CheckpointArchiveHeader × CheckpointArchiveSummary) := do
  let first ← member "checkpoint.json" none
  let bytes ← document first.2 CHECKPOINT_DOCUMENT_BYTES
  let header ← InputM.lift (checkpointDocument node CheckpointArchiveHeaderSchema "header" bytes)
  InputM.emit (.onHeader header)
  let summary ← parseEntries node (checkpointArchiveState header bytes)
  pure (header, summary)

end Reader

/-- The callbacks for a whole archive. -/
def archiveEvents (header : CheckpointArchiveHeader) (records : List ArchiveRecord) :
    List ReadEvent :=
  .onHeader header :: records.flatMap recordEvents

def readCheckpointArchive (node : NodeRuntime) (source : List Bytes) (maxArchiveBytes : Int) :
    Generator ReadEvent ArchiveReport := do
  let input ← lift (checkpointInput source maxArchiveBytes)
  let ((header, summary), input) ← Reader.parseArchive node input
  lift input.finish
  pure { header, summary, archiveBytes := input.bytes, archiveDigest := input.digest node }

namespace Reader

theorem parseArchive_reads {node : NodeRuntime} :
    Reads (parseArchive node) fun out a bytes => ∃ records,
      IsArchive node a.1 records a.2 bytes ∧ out = archiveEvents a.1 records := by
  refine ((member_reads _ _).bind fun {_ first _} _ => (document_reads (by decide)).bind
    fun {_ content _} _ => Reads.lift_bind fun header _ => Reads.emit_bind _
      (parseEntries_reads.bind fun {_ summary _} _ => Reads.pure (header, summary))).congr
    fun out a bytes => ?_
  constructor
  · rintro ⟨⟨_, size⟩, _, _, _, _, ⟨rfl, -, -, -, rfl⟩, ⟨_, _, _, _, _, ⟨rfl, hlen, hshort, rfl⟩,
      ⟨header, hdocument, _, rfl, summary, _, _, _, _, ⟨records, body, final, hrecords, hcloses,
        rfl, rfl⟩, ⟨rfl, rfl, rfl⟩, rfl, rfl⟩, rfl, rfl⟩, rfl, rfl⟩
    obtain ⟨hconforms, rfl⟩ := checkpointDocument_eq_ok.mp hdocument
    refine ⟨records, ⟨hconforms, hlen ▸ hshort, body, final, hrecords, hcloses, ?_⟩, ?_⟩
    · dsimp only at hlen
      rw [memberBytes, headerBytes, hlen, List.append_nil]
      simp only [List.append_assoc]
    · rw [List.append_nil]
      rfl
  · obtain ⟨header, summary⟩ := a
    rintro ⟨records, ⟨hconforms, hshort, body, final, hrecords, hcloses, rfl⟩, rfl⟩
    refine ⟨("checkpoint.json", (headerBytes header).length), [], archiveEvents header records,
      headerBlock "checkpoint.json" (headerBytes header).length,
      headerBytes header ++ zeros (padding (headerBytes header).length) ++
        (body ++ trailerBytes summary),
      ⟨rfl, rfl, by simp, tarHeaderValid_checkpoint hshort, rfl⟩,
      ⟨headerBytes header, [], archiveEvents header records, _, body ++ trailerBytes summary,
        ⟨rfl, rfl, hshort, rfl⟩, ⟨header, checkpointDocument_eq_ok.mpr ⟨hconforms, rfl⟩, _, rfl,
          summary, _, [], _, [], ⟨records, body, final, hrecords, hcloses, rfl, rfl⟩,
          ⟨rfl, rfl, rfl⟩, (List.append_nil _).symm, (List.append_nil _).symm⟩, rfl, rfl⟩, rfl, ?_⟩
    rw [memberBytes]
    simp only [List.append_assoc]

end Reader

/-- **What the reader does**: it accepts a byte string, whatever its chunks,
exactly when the string fits the reservation and is the archive of a header
and records, and then it has delivered these and reports them. -/
theorem readCheckpointArchive_emits {node : NodeRuntime} {source : List Bytes}
    {maxArchiveBytes : Int} {events : List ReadEvent} {report : ArchiveReport} :
    Emits (readCheckpointArchive node source maxArchiveBytes) events report ↔
      maxArchiveBytes ≤ MAX_SAFE_INTEGER ∧ (source.flatten.length : Int) ≤ maxArchiveBytes ∧
        (∃ records, IsArchive node report.header records report.summary source.flatten ∧
          events = archiveEvents report.header records) ∧
        report.archiveBytes = source.flatten.length ∧
        report.archiveDigest = node.digest source.flatten := by
  unfold readCheckpointArchive
  constructor
  · intro h
    obtain ⟨input, _, _, hopened, hparse, rfl⟩ := emits_bind.mp h
    obtain ⟨hinput, rfl⟩ := emits_lift.mp hopened
    obtain ⟨⟨⟨header, summary⟩, input'⟩, _, _, harchive, hend, rfl⟩ := emits_bind.mp hparse
    obtain ⟨_, _, _, hended, hreport, rfl⟩ := emits_bind.mp hend
    obtain ⟨hfinish, rfl⟩ := emits_lift.mp hended
    obtain ⟨rfl, rfl⟩ := emits_pure.mp hreport
    obtain ⟨hremaining, hbytes, hhash, hmax⟩ := checkpointInput_eq_ok hinput
    obtain ⟨bytes, ⟨records, hformat, rfl⟩, hconsumes, hfits⟩ :=
      Reader.parseArchive_reads.sound harchive
    -- `finish` succeeds at the end of the input only, so the archive is all of it
    have hall : source.flatten = bytes := by
      rw [← hremaining, hconsumes.remaining, (CheckpointInput.finish_eq_ok input').mp hfinish,
        List.append_nil]
    have hcount := hconsumes.bytes
    have hsafe := input.maxBytes_safe
    have hlimit := hconsumes.maxBytes
    have hwithin := hfits (by omega)
    rw [hall]
    refine ⟨by omega, by omega, ⟨records, hformat, by simp⟩, by dsimp only; omega, ?_⟩
    dsimp only [CheckpointInput.digest]
    rw [hconsumes.hash, hhash, List.nil_append]
  · obtain ⟨header, summary, archiveBytes, archiveDigest⟩ := report
    rintro ⟨hsafe, hfits, ⟨records, hformat, rfl⟩, rfl, rfl⟩
    obtain ⟨limit, rfl⟩ := Int.eq_ofNat_of_zero_le (by omega : 0 ≤ maxArchiveBytes)
    obtain ⟨input, hinput⟩ := checkpointInput_ok source (by omega : limit ≤ MAX_SAFE_INTEGER)
    obtain ⟨hremaining, hbytes, hhash, hmax⟩ := checkpointInput_eq_ok hinput
    obtain ⟨input', harchive, hconsumes⟩ := Reader.parseArchive_reads.complete
      (a := (header, summary)) ⟨records, hformat, rfl⟩
      (by rw [hremaining, List.append_nil] : input.remaining = _ ++ []) (by omega)
    have hend : input'.remaining = [] := by
      have hall := hconsumes.remaining
      rw [hremaining] at hall
      exact List.append_cancel_left (hall.symm.trans (List.append_nil _).symm)
    refine emits_bind.mpr ⟨input, [], _, emits_lift.mpr ⟨hinput, rfl⟩, emits_bind.mpr
      ⟨_, _, [], harchive, emits_bind.mpr ⟨(), [], [], emits_lift.mpr
        ⟨(CheckpointInput.finish_eq_ok input').mpr hend, rfl⟩, emits_pure.mpr ⟨?_, rfl⟩, rfl⟩, rfl⟩,
      by simp⟩
    simp only [CheckpointInput.digest, hconsumes.bytes, hbytes, hconsumes.hash, hhash,
      List.nil_append, Nat.zero_add]

end PocketCoder.Checkpoints
