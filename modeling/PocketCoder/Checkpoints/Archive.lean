import PocketCoder.Checkpoints.State
import PocketCoder.Checkpoints.TarHeader

/-!
What a checkpoint archive is, apart from how it is written or read: a byte
string made of members, each a header block, the content and zeros up to the
next block.

`IsArchive node header records bytes` is the specification both programs are
proved against. It says which header and records have an archive and which
byte string that is; nothing in it streams, buffers or checks a reservation.
-/

namespace PocketCoder.Checkpoints

open PocketCoder.Foundation

/-! ### Members -/

/-- The number of zeros after a content of the given size. -/
def padding (size : Nat) : Nat := (512 - size % 512) % 512

/-- `Buffer.alloc(n)`. -/
def zeros (n : Nat) : Bytes := List.replicate n 0

@[simp] theorem length_zeros (n : Nat) : (zeros n).length = n := List.length_replicate

theorem padding_le (size : Nat) : padding size < 512 := Nat.mod_lt _ (by omega)

/-- The header block of a member. -/
def headerBlock (name : String) (size : Nat) : Bytes :=
  applyWrites emptyBlock (allTarWrites name size)

def memberBytes (name : String) (content : Bytes) : Bytes :=
  headerBlock name content.length ++ content ++ zeros (padding content.length)

theorem checkpointTarHeader_eq_ok {name : String} {size : Nat} {header : Bytes} :
    checkpointTarHeader name size = .ok header ↔
      tarHeaderValid name size = true ∧ header = headerBlock name size := by
  constructor
  · intro h
    have hvalid := tarHeaderValid_of_ok h
    rw [checkpointTarHeader_eq hvalid, Except.ok.injEq] at h
    exact ⟨hvalid, h.symm⟩
  · rintro ⟨hvalid, hheader⟩
    rw [checkpointTarHeader_eq hvalid, hheader, headerBlock]

theorem length_headerBlock {name : String} {size : Nat} (h : tarHeaderValid name size = true) :
    (headerBlock name size).length = 512 :=
  checkpointTarHeader_length (checkpointTarHeader_eq_ok.mpr ⟨h, rfl⟩)

-- A block is compared and measured through the lemmas above, never computed.
attribute [irreducible] headerBlock zeros

/-! ### Names -/

/-- The text of an index that `checkpointIndex` accepts. -/
def indexText (index : Nat) : String := String.ofList (numeral 16 16 index)

def entryName (index : Nat) : String := "entries/" ++ indexText index ++ ".json"

def payloadName (index chunk : Nat) : String :=
  "payload/" ++ indexText index ++ "/" ++ indexText chunk

theorem indexText_chars {index : Nat} (h : index ≤ MAX_SAFE_INTEGER) :
    (indexText index).toList.length = 16 ∧ (indexText index).toList.all isNameChar = true :=
  checkpointIndex_chars (checkpointIndex_eq_ok.mpr ⟨h, rfl⟩)

theorem tarHeaderValid_entryName {index size : Nat} (h : index ≤ MAX_SAFE_INTEGER)
    (hsize : size ≤ 0o77777777777) : tarHeaderValid (entryName index) size = true := by
  obtain ⟨hlen, hall⟩ := indexText_chars h
  have hchars : (entryName index).toList =
      "entries/".toList ++ (indexText index).toList ++ ".json".toList := by
    simp only [entryName, String.toList_append]
  have hne : entryName index ≠ "" := by
    intro heq
    simp [heq] at hchars
  simp only [tarHeaderValid, hchars, List.all_append, hall, List.length_append, hlen, hne,
    Bool.and_eq_true, decide_eq_true_eq, ne_eq, not_false_eq_true]
  exact ⟨⟨⟨trivial, by decide⟩, by decide⟩, hsize⟩

theorem tarHeaderValid_payloadName {index chunk size : Nat} (h : index ≤ MAX_SAFE_INTEGER)
    (hchunk : chunk ≤ MAX_SAFE_INTEGER) (hsize : size ≤ 0o77777777777) :
    tarHeaderValid (payloadName index chunk) size = true := by
  obtain ⟨hlen, hall⟩ := indexText_chars h
  obtain ⟨hlen', hall'⟩ := indexText_chars hchunk
  have hchars : (payloadName index chunk).toList =
      "payload/".toList ++ (indexText index).toList ++ "/".toList ++
        (indexText chunk).toList := by
    simp only [payloadName, String.toList_append]
  have hne : payloadName index chunk ≠ "" := by
    intro heq
    simp [heq] at hchars
  simp only [tarHeaderValid, hchars, List.all_append, hall, hall', List.length_append, hlen, hlen',
    hne, Bool.and_eq_true, decide_eq_true_eq, ne_eq, not_false_eq_true]
  exact ⟨⟨⟨trivial, by decide⟩, by decide⟩, hsize⟩

theorem tarHeaderValid_checkpoint {size : Nat} (h : size ≤ CHECKPOINT_DOCUMENT_BYTES) :
    tarHeaderValid "checkpoint.json" size = true := by
  have hsize : size ≤ 0o77777777777 := le_trans h (by decide)
  have hname : ("checkpoint.json" ≠ "" ∧ "checkpoint.json".toList.all isNameChar = true) ∧
      "checkpoint.json".toList.length ≤ 100 := by decide
  simp only [tarHeaderValid, Bool.and_eq_true, decide_eq_true_eq]
  exact ⟨hname, hsize⟩

theorem tarHeaderValid_summary {size : Nat} (h : size ≤ CHECKPOINT_DOCUMENT_BYTES) :
    tarHeaderValid "summary.json" size = true := by
  have hsize : size ≤ 0o77777777777 := le_trans h (by decide)
  have hname : ("summary.json" ≠ "" ∧ "summary.json".toList.all isNameChar = true) ∧
      "summary.json".toList.length ≤ 100 := by decide
  simp only [tarHeaderValid, Bool.and_eq_true, decide_eq_true_eq]
  exact ⟨hname, hsize⟩

theorem entryName_ne_summary (index : Nat) : entryName index ≠ "summary.json" := by
  intro heq
  have hhead := congrArg (fun s => s.toList.head?) heq
  simp [entryName] at hhead

/-! ### Records -/

/-- An entry and, for a file, its content. -/
structure ArchiveRecord where
  entry : CheckpointArchiveEntry
  content : Bytes

/-- The content is the one the entry declares; only files have one. -/
def ArchiveRecord.Matches (node : NodeRuntime) (record : ArchiveRecord) : Prop :=
  match record.entry.kind with
  | .file digest => record.content.length = record.entry.size ∧ node.digest record.content = digest
  | _ => record.content = []

/-- The members a file is stored as, one for each 64 MiB. -/
def payloadBytes (index : Nat) : Nat → List Bytes → Bytes
  | _, [] => []
  | chunk, piece :: pieces =>
      memberBytes (payloadName index chunk) piece ++ payloadBytes index (chunk + 1) pieces

/-- The document an entry is stored as. -/
def entryBytes (node : NodeRuntime) (entry : CheckpointArchiveEntry) : Bytes :=
  (CheckpointArchiveEntrySchema node).bytes entry

def recordBytes (node : NodeRuntime) (index : Nat) (record : ArchiveRecord) : Bytes :=
  memberBytes (entryName index) (entryBytes node record.entry) ++
    payloadBytes index 0 (chunksOf CHECKPOINT_PAYLOAD_BYTES record.content)

/-- The state after the content of a record. -/
def ArchiveState.afterPayload (state : ArchiveState) (record : ArchiveRecord) : ArchiveState :=
  match record.entry.kind with
  | .file _ => (state.beginPayload record.entry.size).payload record.content
  | _ => state

@[simp] theorem ArchiveState.header_afterPayload (state : ArchiveState) (record : ArchiveRecord) :
    (state.afterPayload record).header = state.header := by
  unfold ArchiveState.afterPayload
  split <;> rfl

/-- A record that may follow a state, and the state it leads to. -/
structure Extends (node : NodeRuntime) (state : ArchiveState) (record : ArchiveRecord)
    (state' : ArchiveState) : Prop where
  conforms : record.entry.conforms node = true
  short : (entryBytes node record.entry).length ≤ CHECKPOINT_ENTRY_BYTES
  index : state.entries ≤ MAX_SAFE_INTEGER
  matching : record.Matches node
  recorded : ∃ mid, state.record record.entry (entryBytes node record.entry) = .ok mid ∧
    state' = mid.afterPayload record

theorem Extends.header {node : NodeRuntime} {state state' : ArchiveState} {record : ArchiveRecord}
    (h : Extends node state record state') : state'.header = state.header := by
  obtain ⟨mid, hrecord, rfl⟩ := h.recorded
  rw [ArchiveState.header_afterPayload, ArchiveState.record_header hrecord]

/-- A list of records that may follow a state, with the bytes they add. -/
inductive Records (node : NodeRuntime) :
    ArchiveState → List ArchiveRecord → Bytes → ArchiveState → Prop
  | nil (state : ArchiveState) : Records node state [] [] state
  | cons {state mid final : ArchiveState} {record : ArchiveRecord} {records : List ArchiveRecord}
      {out : Bytes} (head : Extends node state record mid) (tail : Records node mid records out final) :
      Records node state (record :: records) (recordBytes node state.entries record ++ out) final

theorem Records.header {node : NodeRuntime} {state final : ArchiveState}
    {records : List ArchiveRecord} {out : Bytes} (h : Records node state records out final) :
    final.header = state.header := by
  induction h with
  | nil => rfl
  | cons head _ ih => rw [ih, head.header]

/-- The members after the last record. -/
def trailerBytes (summary : CheckpointArchiveSummary) : Bytes :=
  memberBytes "summary.json" (CheckpointArchiveSummarySchema.bytes summary) ++ zeros 1024

/-- What may close an archive in the given state. -/
structure Closes (node : NodeRuntime) (state : ArchiveState) (summary : CheckpointArchiveSummary) :
    Prop where
  totals : state.summary node = .ok summary
  conforms : summary.conforms = true
  short : (CheckpointArchiveSummarySchema.bytes summary).length ≤ CHECKPOINT_DOCUMENT_BYTES

/-- The document of a header. -/
def headerBytes (header : CheckpointArchiveHeader) : Bytes :=
  CheckpointArchiveHeaderSchema.bytes header

/-- **The format**: `bytes` is the archive of a header and records. -/
structure IsArchive (node : NodeRuntime) (header : CheckpointArchiveHeader)
    (records : List ArchiveRecord) (summary : CheckpointArchiveSummary) (bytes : Bytes) : Prop where
  conforms : header.conforms = true
  short : (headerBytes header).length ≤ CHECKPOINT_DOCUMENT_BYTES
  layout : ∃ body state,
    Records node (checkpointArchiveState header (headerBytes header)) records body state ∧
      Closes node state summary ∧
      bytes = memberBytes "checkpoint.json" (headerBytes header) ++ body ++ trailerBytes summary

end PocketCoder.Checkpoints
