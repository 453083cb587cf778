import PocketCoder.Checkpoints.Payload

/-!
The archive writer (`contracts/src/checkpoints/archive-writer.ts`), without an
abort signal.

A record comes with the stream of its payload, given by its chunks. The
writer is a generator of pieces behind a pull loop that counts them against
the reservation. `writeCheckpointArchive_writes` says exactly when a stream
ends without an error and what it has delivered: the bytes are the archive of
the header and the records, and they fit the reservation.
-/

namespace PocketCoder.Checkpoints

open PocketCoder.Foundation Generator

/-- `CheckpointArchiveRecord`: an entry and the stream of its payload. -/
structure CheckpointArchiveRecord where
  entry : CheckpointArchiveEntry
  payload : Option (List Bytes)

namespace Writer

def member (name : String) (bytes : Bytes) : Generator Bytes Unit := do
  let header ← lift (checkpointTarHeader name bytes.length)
  emit header
  emit bytes
  emit (zeros (padding bytes.length))

/-- `while (remaining) { ... }`. -/
def payloadMembers (state : ArchiveState) (hash : Bytes) (remaining chunk : Nat) :
    InputM Bytes (ArchiveState × Bytes) :=
  if remaining = 0 then pure (state, hash)
  else do
    let size := min remaining CHECKPOINT_PAYLOAD_BYTES
    let index ← InputM.lift (checkpointIndex (state.entries - 1))
    let part ← InputM.lift (checkpointIndex chunk)
    let header ← InputM.lift (checkpointTarHeader ("payload/" ++ index ++ "/" ++ part) size)
    InputM.emit header
    let (state, hash) ← payloadBody id state hash size
    InputM.emit (zeros (padding size))
    payloadMembers state hash (remaining - size) (chunk + 1)
termination_by remaining
decreasing_by
  have : 0 < CHECKPOINT_PAYLOAD_BYTES := by decide
  omega

/-- `payload` from `checkpointInput` on. -/
def filePayload (node : NodeRuntime) (size : Nat) (digest : String) (source : List Bytes)
    (state : ArchiveState) : Generator Bytes ArchiveState := do
  let input ← lift (checkpointInput source size)
  let ((state, hash), input) ← payloadMembers (state.beginPayload size) [] size 0 input
  lift input.finish
  if node.digest hash ≠ digest then
    lift (.error "Checkpoint file content digest does not match.")
  else pure state

def payload (node : NodeRuntime) (record : CheckpointArchiveRecord) (state : ArchiveState) :
    Generator Bytes ArchiveState :=
  match record.entry.kind, record.payload with
  | .file digest, some source => filePayload node record.entry.size digest source state
  | .file _, none => lift (.error "Missing checkpoint file payload.")
  | _, some _ => lift (.error "Only checkpoint files may have a payload.")
  | _, none => pure state

/-- The body of `for await (const record of records)`. -/
def archiveRecord (node : NodeRuntime) (state : ArchiveState) (record : CheckpointArchiveRecord) :
    Generator Bytes ArchiveState := do
  let entry ← lift ((CheckpointArchiveEntrySchema node).validate record.entry)
  let bytes ← lift (document (CheckpointArchiveEntrySchema node) entry CHECKPOINT_ENTRY_BYTES)
  let state ← lift (state.record entry bytes)
  let index ← lift (checkpointIndex (state.entries - 1))
  member ("entries/" ++ index ++ ".json") bytes
  payload node { record with entry } state

def archiveRecords (node : NodeRuntime) (state : ArchiveState) :
    List CheckpointArchiveRecord → Generator Bytes ArchiveState
  | [] => pure state
  | record :: records => do
      let state ← archiveRecord node state record
      archiveRecords node state records

def archive (node : NodeRuntime) (header : CheckpointArchiveHeader)
    (records : List CheckpointArchiveRecord) : Generator Bytes Unit := do
  let validated ← lift (CheckpointArchiveHeaderSchema.validate header)
  let bytes ← lift (document CheckpointArchiveHeaderSchema validated CHECKPOINT_DOCUMENT_BYTES)
  member "checkpoint.json" bytes
  let state ← archiveRecords node (checkpointArchiveState validated bytes) records
  let summary ← lift (state.summary node)
  let bytes ← lift (document CheckpointArchiveSummarySchema summary CHECKPOINT_DOCUMENT_BYTES)
  member "summary.json" bytes
  emit (zeros 1024)

/-- The `pull` calls of the stream, up to its end: `bytes` have been counted. -/
def pull (maxArchiveBytes : Int) (result : Except String Unit) (bytes : Nat) :
    List Bytes → Generator Bytes Unit
  | [] => lift result
  | piece :: pieces =>
      if bytes + piece.length > MAX_SAFE_INTEGER ∨ (bytes + piece.length : Nat) > maxArchiveBytes then
        lift (.error "Checkpoint archive exceeds its physical reservation.")
      else do
        emit piece
        pull maxArchiveBytes result (bytes + piece.length) pieces

end Writer

def writeCheckpointArchive (node : NodeRuntime) (header : CheckpointArchiveHeader)
    (records : List CheckpointArchiveRecord) (maxArchiveBytes : Int) : Generator Bytes Unit :=
  if maxArchiveBytes < 0 ∨ maxArchiveBytes > MAX_SAFE_INTEGER then
    lift (.error "Invalid checkpoint archive reservation.")
  else
    let iterator := Writer.archive node header records
    Writer.pull maxArchiveBytes iterator.result 0 iterator.pieces

/-! ### What the writer yields -/

/-- A file comes with a payload, and nothing else does. -/
def CheckpointArchiveRecord.WellFormed (record : CheckpointArchiveRecord) : Prop :=
  match record.entry.kind with
  | .file _ => record.payload.isSome = true
  | _ => record.payload = none

/-- The record as the format sees it: the payload's chunks joined. -/
def CheckpointArchiveRecord.joined (record : CheckpointArchiveRecord) : ArchiveRecord where
  entry := record.entry
  content := (record.payload.getD []).flatten

namespace Writer

theorem member_writes {name : String} {bytes out : Bytes} :
    Writes (member name bytes) out () ↔
      tarHeaderValid name bytes.length = true ∧ out = memberBytes name bytes := by
  simp only [member, writes_lift_bind, writes_emit_bind, writes_emit, checkpointTarHeader_eq_ok]
  constructor
  · rintro ⟨header, ⟨hvalid, hheader⟩, _, ⟨_, rfl, rfl⟩, rfl⟩
    refine ⟨hvalid, ?_⟩
    rw [hheader, memberBytes, List.append_assoc]
  · rintro ⟨hvalid, rfl⟩
    exact ⟨_, ⟨hvalid, rfl⟩, _, ⟨_, rfl, rfl⟩, by rw [memberBytes, List.append_assoc]⟩

/-- The pieces of the payload members of a file. -/
def payloadPieces (index : Nat) : Nat → List Bytes → List Bytes
  | _, [] => []
  | chunk, piece :: pieces =>
      headerBlock (payloadName index chunk) piece.length ::
        (chunksOf CHECKPOINT_IO_BYTES piece ++
          zeros (padding piece.length) :: payloadPieces index (chunk + 1) pieces)

theorem flatten_payloadPieces (index chunk : Nat) (pieces : List Bytes) :
    (payloadPieces index chunk pieces).flatten = payloadBytes index chunk pieces := by
  induction pieces generalizing chunk with
  | nil => rfl
  | cons piece pieces ih =>
      simp only [payloadPieces, payloadBytes, memberBytes, List.flatten_cons, List.flatten_append,
        flatten_chunksOf (by decide : 0 < CHECKPOINT_IO_BYTES), ih, List.append_assoc]

theorem payloadMembers_reads (state : ArchiveState) (hash : Bytes) (remaining chunk : Nat)
    (hindex : state.entries - 1 ≤ MAX_SAFE_INTEGER) (hchunk : chunk + remaining ≤ MAX_SAFE_INTEGER) :
    Reads (payloadMembers state hash remaining chunk) fun out a bytes =>
      bytes.length = remaining ∧
        out = payloadPieces (state.entries - 1) chunk (chunksOf CHECKPOINT_PAYLOAD_BYTES bytes) ∧
        a = (state.payload bytes, hash ++ bytes) := by
  have hpositive : 0 < CHECKPOINT_PAYLOAD_BYTES := by decide
  have hoctal : CHECKPOINT_PAYLOAD_BYTES ≤ 0o77777777777 := by decide
  induction remaining using Nat.strong_induction_on generalizing state hash chunk with
  | _ remaining ih =>
      unfold payloadMembers
      by_cases hremaining : remaining = 0
      · rw [if_pos hremaining]
        refine (Reads.pure _).congr fun out a bytes => ?_
        constructor
        · rintro ⟨rfl, rfl, rfl⟩
          simp [hremaining, ArchiveState.payload_nil, payloadPieces]
        · rintro ⟨hlen, rfl, rfl⟩
          obtain rfl := List.eq_nil_of_length_eq_zero (hlen.trans hremaining)
          simp [ArchiveState.payload_nil, payloadPieces]
      · rw [if_neg hremaining]
        -- one member holds up to `CHECKPOINT_PAYLOAD_BYTES`; the rest is the induction hypothesis
        set size := min remaining CHECKPOINT_PAYLOAD_BYTES with hsize
        have hvalid : tarHeaderValid (payloadName (state.entries - 1) chunk) size = true :=
          tarHeaderValid_payloadName hindex (by omega) (by omega)
        have hrest {out : List Bytes} {a : ArchiveState × Bytes} {piece : Bytes}
            (h : (piece.length = size ∧ out = (chunksOf CHECKPOINT_IO_BYTES piece).map id) ∧
              a = (state.payload piece, hash ++ piece)) :=
          Reads.emit_bind (zeros (padding size)) (ih (remaining - size) (by omega)
            a.1 a.2 (chunk + 1) (by rw [h.2]; simpa using hindex) (by omega))
        refine (Reads.ok_bind (checkpointIndex_eq_ok.mpr ⟨hindex, rfl⟩)
          (Reads.ok_bind (checkpointIndex_eq_ok.mpr ⟨by omega, rfl⟩)
            (Reads.ok_bind (checkpointTarHeader_eq_ok.mpr ⟨hvalid, rfl⟩) (Reads.emit_bind _
              ((payloadBody_reads id state hash size).bind hrest))))).congr
          fun out a bytes => ?_
        constructor
        · rintro ⟨_, rfl, _, _, _, piece, rest, ⟨⟨hpiece, rfl⟩, rfl⟩, ⟨_, rfl, hlen, rfl, rfl⟩,
            rfl, rfl⟩
          have hcut := chunksOf_append rest hpositive (by omega) hpiece (by omega)
          refine ⟨by rw [List.length_append]; omega, ?_, ?_⟩
          · rw [hcut, payloadPieces, hpiece, List.map_id, ArchiveState.entries_payload]
          · rw [ArchiveState.payload_payload, List.append_assoc]
        · rintro ⟨hlen, rfl, rfl⟩
          have hne : bytes ≠ [] := by
            intro hnil
            rw [hnil, List.length_nil] at hlen
            omega
          have htake : (bytes.take CHECKPOINT_PAYLOAD_BYTES).length = size := by
            rw [List.length_take, hlen, min_comm]
          refine ⟨_, ?_, _, _, _, bytes.take CHECKPOINT_PAYLOAD_BYTES,
            bytes.drop CHECKPOINT_PAYLOAD_BYTES, ⟨⟨htake, rfl⟩, rfl⟩, ⟨_, rfl, ?_, rfl, ?_⟩, rfl,
            (List.take_append_drop _ _).symm⟩
          · rw [chunksOf_of_ne_nil hpositive hne, payloadPieces, htake, List.map_id,
              ArchiveState.entries_payload]
          · rw [List.length_drop]
            omega
          · rw [ArchiveState.payload_payload, List.append_assoc, List.take_append_drop]

/-- A file is written when the stream holds its declared content and no more. -/
theorem filePayload_writes {node : NodeRuntime} {size : Nat} {digest : String}
    {source : List Bytes} {state state' : ArchiveState} {out : Bytes}
    (hsize : size ≤ MAX_SAFE_INTEGER) (hindex : state.entries - 1 ≤ MAX_SAFE_INTEGER) :
    Writes (filePayload node size digest source state) out state' ↔
      (source.flatten.length = size ∧ node.digest source.flatten = digest) ∧
        out = payloadBytes (state.entries - 1) 0
          (chunksOf CHECKPOINT_PAYLOAD_BYTES source.flatten) ∧
        state' = (state.beginPayload size).payload source.flatten := by
  have hmembers := payloadMembers_reads (state.beginPayload size) [] size 0
    (by simpa using hindex) (by omega)
  rw [ArchiveState.entries_beginPayload] at hmembers
  unfold filePayload
  constructor
  · intro h
    obtain ⟨input, hinput, hloop⟩ := writes_lift_bind.mp h
    obtain ⟨⟨⟨state₁, hash⟩, input'⟩, out₁, out₂, ⟨pieces, hemits, rfl⟩, hafter, rfl⟩ :=
      writes_bind.mp hloop
    obtain ⟨u, hfinish, hcheck⟩ := writes_lift_bind.mp hafter
    obtain ⟨hremaining, -, -, -⟩ := checkpointInput_eq_ok hinput
    obtain ⟨bytes, ⟨hlen, rfl, hpair⟩, hconsumes, -⟩ := hmembers.sound hemits
    obtain ⟨rfl, rfl⟩ := Prod.mk.inj hpair
    -- the content ends where the declared size does
    have hsource : source.flatten = hash := by
      rw [← hremaining, hconsumes.remaining, (CheckpointInput.finish_eq_ok input').mp hfinish,
        List.append_nil]
    split_ifs at hcheck with hdigest
    · exact absurd (writes_lift.mp hcheck).1 (by simp)
    · obtain ⟨rfl, rfl⟩ := writes_pure.mp hcheck
      rw [hsource]
      exact ⟨⟨hlen, not_not.mp hdigest⟩, by rw [flatten_payloadPieces, List.append_nil], rfl⟩
  · rintro ⟨⟨hlen, hdigest⟩, rfl, rfl⟩
    obtain ⟨input, hinput⟩ := checkpointInput_ok source hsize
    obtain ⟨hremaining, hbytes, -, hmax⟩ := checkpointInput_eq_ok hinput
    obtain ⟨input', hemits, hconsumes⟩ := hmembers.complete ⟨hlen, rfl, rfl⟩
      (by rw [hremaining, List.append_nil] : input.remaining = _ ++ []) (by omega)
    have hend : input'.remaining = [] := by
      have hall := hconsumes.remaining
      rw [hremaining] at hall
      exact List.append_cancel_left (hall.symm.trans (List.append_nil _).symm)
    refine writes_lift_bind.mpr ⟨input, hinput, writes_bind.mpr
      ⟨_, _, [], ⟨_, hemits, flatten_payloadPieces _ _ _⟩, ?_, (List.append_nil _).symm⟩⟩
    refine writes_lift_bind.mpr ⟨(), (CheckpointInput.finish_eq_ok input').mpr hend, ?_⟩
    rw [List.nil_append, if_neg (not_not.mpr hdigest)]
    exact writes_pure.mpr ⟨rfl, rfl⟩

/-- What a payload adds to the archive of a record whose entry is written. -/
theorem payload_writes {node : NodeRuntime} {record : CheckpointArchiveRecord}
    {state state' : ArchiveState} {out : Bytes} (hconforms : record.entry.conforms node = true)
    (hindex : state.entries - 1 ≤ MAX_SAFE_INTEGER) :
    Writes (payload node record state) out state' ↔
      record.WellFormed ∧ record.joined.Matches node ∧
        out = payloadBytes (state.entries - 1) 0
          (chunksOf CHECKPOINT_PAYLOAD_BYTES record.joined.content) ∧
        state' = state.afterPayload record.joined := by
  obtain ⟨entry, stream⟩ := record
  obtain ⟨mount, path, mode, mtime, size, kind⟩ := entry
  cases kind with
  | directory =>
      cases stream <;>
        simp [payload, writes_lift, writes_pure, CheckpointArchiveRecord.WellFormed,
          CheckpointArchiveRecord.joined, ArchiveRecord.Matches, ArchiveState.afterPayload,
          payloadBytes, and_comm, eq_comm]
  | symlink digest target =>
      cases stream <;>
        simp [payload, writes_lift, writes_pure, CheckpointArchiveRecord.WellFormed,
          CheckpointArchiveRecord.joined, ArchiveRecord.Matches, ArchiveState.afterPayload,
          payloadBytes, and_comm, eq_comm]
  | file digest =>
      cases stream with
      | none => simp [payload, writes_lift, CheckpointArchiveRecord.WellFormed]
      | some source =>
          have hsize : size ≤ MAX_SAFE_INTEGER := by
            simp only [CheckpointArchiveEntry.conforms, Bool.and_eq_true, isCount,
              decide_eq_true_eq] at hconforms
            exact hconforms.2.1
          change Writes (filePayload node size digest source state) out state' ↔ _
          rw [filePayload_writes hsize hindex]
          simp [CheckpointArchiveRecord.WellFormed, CheckpointArchiveRecord.joined,
            ArchiveRecord.Matches, ArchiveState.afterPayload]

theorem archiveRecord_writes {node : NodeRuntime} {record : CheckpointArchiveRecord}
    {state state' : ArchiveState} {out : Bytes} :
    Writes (archiveRecord node state record) out state' ↔
      record.WellFormed ∧ Extends node state record.joined state' ∧
        out = recordBytes node state.entries record.joined := by
  have hoctal : CHECKPOINT_ENTRY_BYTES ≤ 0o77777777777 := by decide
  unfold archiveRecord
  simp only [writes_lift_bind, DocumentSchema.validate_eq_ok, document_eq_ok,
    checkpointIndex_eq_ok]
  constructor
  · rintro ⟨entry, ⟨hconforms, rfl⟩, bytes, ⟨rfl, hshort⟩, mid, hrecord, index,
      ⟨hindex, rfl⟩, hwrites⟩
    obtain ⟨_, out₁, out₂, hmember, hpayload, rfl⟩ := writes_bind.mp hwrites
    obtain ⟨-, rfl⟩ := member_writes.mp hmember
    obtain ⟨hformed, hmatches, rfl, rfl⟩ := (payload_writes hconforms hindex).mp hpayload
    rw [ArchiveState.entries_sub_one hrecord] at hindex ⊢
    exact ⟨hformed, ⟨hconforms, hshort, hindex, hmatches, mid, hrecord, rfl⟩, rfl⟩
  · rintro ⟨hformed, ⟨hconforms, hshort, hindex, hmatches, mid, hrecord, rfl⟩, rfl⟩
    refine ⟨record.entry, ⟨hconforms, rfl⟩, _, ⟨rfl, hshort⟩, mid, hrecord, _,
      ⟨by rwa [ArchiveState.entries_sub_one hrecord], rfl⟩, ?_⟩
    rw [ArchiveState.entries_sub_one hrecord]
    refine writes_bind.mpr ⟨(), _, _, member_writes.mpr ⟨?_, rfl⟩,
      (payload_writes hconforms (by rwa [ArchiveState.entries_sub_one hrecord])).mpr
        ⟨hformed, hmatches, rfl, rfl⟩, ?_⟩
    · exact tarHeaderValid_entryName hindex (le_trans hshort hoctal)
    · rw [ArchiveState.entries_sub_one hrecord]
      rfl

theorem archiveRecords_writes {node : NodeRuntime} {records : List CheckpointArchiveRecord}
    {state state' : ArchiveState} {out : Bytes} :
    Writes (archiveRecords node state records) out state' ↔
      (∀ record ∈ records, record.WellFormed) ∧
        Records node state (records.map CheckpointArchiveRecord.joined) out state' := by
  induction records generalizing state out with
  | nil =>
      rw [archiveRecords, writes_pure]
      constructor
      · rintro ⟨rfl, rfl⟩
        exact ⟨by simp, .nil state⟩
      · rintro ⟨-, h⟩
        cases h with
        | nil => exact ⟨rfl, rfl⟩
  | cons record records ih =>
      rw [archiveRecords, writes_bind]
      constructor
      · rintro ⟨mid, out₁, out₂, hfirst, hrest, rfl⟩
        obtain ⟨hformed, hextends, rfl⟩ := archiveRecord_writes.mp hfirst
        obtain ⟨hall, hrecords⟩ := ih.mp hrest
        exact ⟨List.forall_mem_cons.mpr ⟨hformed, hall⟩, .cons hextends hrecords⟩
      · rintro ⟨hall, h⟩
        obtain ⟨hformed, hall⟩ := List.forall_mem_cons.mp hall
        cases h with
        | cons hextends hrecords =>
            exact ⟨_, _, _, archiveRecord_writes.mpr ⟨hformed, hextends, rfl⟩,
              ih.mpr ⟨hall, hrecords⟩, rfl⟩

/-- The generator behind the stream yields the archive. -/
theorem archive_writes {node : NodeRuntime} {header : CheckpointArchiveHeader}
    {records : List CheckpointArchiveRecord} {out : Bytes} :
    Writes (archive node header records) out () ↔
      (∀ record ∈ records, record.WellFormed) ∧
        ∃ summary, IsArchive node header (records.map CheckpointArchiveRecord.joined) summary out := by
  unfold archive
  simp only [writes_lift_bind, DocumentSchema.validate_eq_ok, document_eq_ok]
  constructor
  · rintro ⟨_, ⟨hconforms, rfl⟩, bytes, ⟨rfl, hshort⟩, hwrites⟩
    obtain ⟨_, _, _, hmember, hrest, rfl⟩ := writes_bind.mp hwrites
    obtain ⟨-, rfl⟩ := member_writes.mp hmember
    obtain ⟨state, body, _, hbody, hend, rfl⟩ := writes_bind.mp hrest
    obtain ⟨hformed, hrecords⟩ := archiveRecords_writes.mp hbody
    obtain ⟨summary, hsummary, hdocument⟩ := writes_lift_bind.mp hend
    obtain ⟨bytes, hbytes, hlast⟩ := writes_lift_bind.mp hdocument
    obtain ⟨rfl, hsummaryShort⟩ := document_eq_ok.mp hbytes
    obtain ⟨_, _, _, hmember', hzeros, rfl⟩ := writes_bind.mp hlast
    obtain ⟨-, rfl⟩ := member_writes.mp hmember'
    obtain rfl := writes_emit.mp hzeros
    have hsummaryConforms : summary.conforms = true :=
      ArchiveState.summary_conforms (by rwa [hrecords.header]) hsummary
    exact ⟨hformed, summary, hconforms, hshort, body, state, hrecords,
      ⟨hsummary, hsummaryConforms, hsummaryShort⟩, by rw [trailerBytes, List.append_assoc]; rfl⟩
  · rintro ⟨hformed, summary, hconforms, hshort, body, state, hrecords,
      ⟨hsummary, -, hsummaryShort⟩, rfl⟩
    refine ⟨header, ⟨hconforms, rfl⟩, _, ⟨rfl, hshort⟩, ?_⟩
    have hfirst : tarHeaderValid "checkpoint.json" (headerBytes header).length = true :=
      tarHeaderValid_checkpoint hshort
    refine writes_bind.mpr ⟨(), _, _, member_writes.mpr ⟨hfirst, rfl⟩, writes_bind.mpr
      ⟨state, body, _, archiveRecords_writes.mpr ⟨hformed, hrecords⟩, writes_lift_bind.mpr
        ⟨summary, hsummary, writes_lift_bind.mpr ⟨_, document_eq_ok.mpr ⟨rfl, hsummaryShort⟩,
          writes_bind.mpr ⟨(), _, _, member_writes.mpr ⟨tarHeaderValid_summary hsummaryShort, rfl⟩,
            writes_emit.mpr rfl, rfl⟩⟩⟩, rfl⟩, ?_⟩
    rw [trailerBytes, List.append_assoc]
    rfl

/-- The stream delivers what the generator yields, up to the reservation. -/
theorem pull_writes {maxArchiveBytes : Int} {result : Except String Unit} {bytes : Nat}
    {pieces : List Bytes} {out : Bytes} :
    Writes (pull maxArchiveBytes result bytes pieces) out () ↔
      result = .ok () ∧ out = pieces.flatten ∧ (pieces = [] ∨
        bytes + out.length ≤ MAX_SAFE_INTEGER ∧ (bytes + out.length : Nat) ≤ maxArchiveBytes) := by
  induction pieces generalizing bytes out with
  | nil => simp [pull, writes_lift]
  | cons piece pieces ih =>
      unfold pull
      split
      · rename_i hexceeds
        constructor
        · intro h
          exact absurd (writes_lift.mp h).1 (by simp)
        · rintro ⟨-, rfl, h⟩
          simp only [List.flatten_cons, List.length_append, reduceCtorEq, false_or] at h
          omega
      · rename_i hfits
        rw [writes_emit_bind]
        constructor
        · rintro ⟨rest, hrest, rfl⟩
          obtain ⟨hresult, rfl, h⟩ := ih.mp hrest
          refine ⟨hresult, List.flatten_cons.symm, .inr ?_⟩
          rw [List.length_append]
          rcases h with rfl | h
          · simp only [List.flatten_nil, List.length_nil]
            omega
          · omega
        · rintro ⟨hresult, rfl, h⟩
          simp only [List.flatten_cons, List.length_append, reduceCtorEq, false_or] at h
          exact ⟨pieces.flatten, ih.mpr ⟨hresult, rfl, .inr (by omega)⟩, List.flatten_cons⟩

end Writer

/-- **What the writer does**: its stream ends without an error exactly when the
header and the records have an archive that fits the reservation, and then it
has delivered that archive. -/
theorem writeCheckpointArchive_writes {node : NodeRuntime} {header : CheckpointArchiveHeader}
    {records : List CheckpointArchiveRecord} {maxArchiveBytes : Int} {out : Bytes} :
    Writes (writeCheckpointArchive node header records maxArchiveBytes) out () ↔
      maxArchiveBytes ≤ MAX_SAFE_INTEGER ∧ (out.length : Int) ≤ maxArchiveBytes ∧
        (∀ record ∈ records, record.WellFormed) ∧
        ∃ summary, IsArchive node header (records.map CheckpointArchiveRecord.joined) summary out := by
  unfold writeCheckpointArchive
  split
  · rename_i hinvalid
    constructor
    · intro h
      exact absurd (writes_lift.mp h).1 (by simp)
    · rintro ⟨hsafe, hfits, -⟩
      omega
  · rename_i hvalid
    rw [Writer.pull_writes, ← Writer.archive_writes]
    constructor
    · rintro ⟨hresult, rfl, h⟩
      refine ⟨by omega, ?_, ⟨_, ⟨hresult, rfl⟩, rfl⟩⟩
      rcases h with hnil | h
      · rw [hnil, List.flatten_nil, List.length_nil]
        omega
      · omega
    · rintro ⟨hsafe, hfits, pieces, ⟨hresult, rfl⟩, rfl⟩
      exact ⟨hresult, rfl, .inr (by omega)⟩

end PocketCoder.Checkpoints
