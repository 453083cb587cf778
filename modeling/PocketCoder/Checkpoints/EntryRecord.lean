import Mathlib.Data.List.Lex
import Mathlib.Data.Prod.Lex
import PocketCoder.Foundation.Generator
import PocketCoder.Foundation.MergeSort
import PocketCoder.Checkpoints.Documents

/-!
Records of checkpoint entries in a file (`db/src/checkpoints/entry-record.ts`,
`index-io.ts`). A record is the length of a document, the document, and 64
bytes of custody when the highest bit of the length is set.

A file is its bytes; reads and writes make progress and end, as the file
system does when it has no error.
-/

namespace PocketCoder.Checkpoints

open PocketCoder.Foundation

/-! ### Keys -/

/-- `Buffer.compare`. -/
def compareBytes : Bytes → Bytes → Ordering
  | [], [] => .eq
  | [], _ :: _ => .lt
  | _ :: _, [] => .gt
  | a :: as, b :: bs => (compare a.toNat b.toNat).then (compareBytes as bs)

/-- A mount and a path. -/
abbrev EntryKey := Nat × String

def CheckpointArchiveEntry.key (entry : CheckpointArchiveEntry) : EntryKey :=
  (entry.mount, entry.path)

def compareCheckpointPaths (left right : EntryKey) : Ordering :=
  (compare left.1 right.1).then (compareBytes (utf8 left.2) (utf8 right.2))

/-- The order of the keys. -/
def pathOrder (key : EntryKey) : Nat ×ₗ List Nat :=
  toLex (key.1, (utf8 key.2).map UInt8.toNat)

/-- Two comparisons, one after the other, compare in the lexicographic order. -/
theorem then_eq_comparison {α β γ : Type} [LinearOrder α] [LinearOrder β] [LinearOrder γ] {a a' : α}
    {b b' : β} {c c' : γ} (hlt : c < c' ↔ a < a' ∨ a = a' ∧ b < b')
    (hgt : c' < c ↔ a' < a ∨ a' = a ∧ b' < b) :
    (comparison a a').then (comparison b b') = comparison c c' := by
  rcases lt_trichotomy a a' with h | h | h
  · rw [comparison_eq_lt.mpr h, comparison_eq_lt.mpr (hlt.mpr (.inl h))]
    rfl
  · rw [comparison_eq_eq.mpr h, Ordering.eq_then]
    rcases lt_trichotomy b b' with h' | h' | h'
    · rw [comparison_eq_lt.mpr h', comparison_eq_lt.mpr (hlt.mpr (.inr ⟨h, h'⟩))]
    · rw [comparison_eq_eq.mpr h', eq_comm, comparison_eq_eq]
      have hnlt : ¬c < c' := by
        rw [hlt, h, h']
        simp
      have hngt : ¬c' < c := by
        rw [hgt, h, h']
        simp
      exact le_antisymm (not_lt.mp hngt) (not_lt.mp hnlt)
    · rw [comparison_eq_gt.mpr h', comparison_eq_gt.mpr (hgt.mpr (.inr ⟨h.symm, h'⟩))]
  · rw [comparison_eq_gt.mpr h, comparison_eq_gt.mpr (hgt.mpr (.inl h))]
    rfl

theorem compareBytes_eq (as bs : Bytes) :
    compareBytes as bs = comparison (as.map UInt8.toNat) (bs.map UInt8.toNat) := by
  induction as generalizing bs with
  | nil =>
      cases bs with
      | nil => exact (comparison_eq_eq.mpr rfl).symm
      | cons b bs => exact (comparison_eq_lt.mpr (List.nil_lt_cons _ _)).symm
  | cons a as ih =>
      cases bs with
      | nil => exact (comparison_eq_gt.mpr (List.nil_lt_cons _ _)).symm
      | cons b bs =>
          rw [compareBytes, ih, ← cmp_eq_compare, ← comparison]
          apply then_eq_comparison
          · exact List.cons_lt_cons_iff
          · exact List.cons_lt_cons_iff

theorem compareCheckpointPaths_eq (left right : EntryKey) :
    compareCheckpointPaths left right = comparison (pathOrder left) (pathOrder right) := by
  rw [compareCheckpointPaths, compareBytes_eq, ← cmp_eq_compare, ← comparison]
  apply then_eq_comparison
  · exact Prod.Lex.toLex_lt_toLex
  · exact Prod.Lex.toLex_lt_toLex

/-- Different keys have different places in the order. -/
theorem pathOrder_injective : Function.Injective pathOrder := by
  intro left right h
  have hpair := toLex.injective h
  rw [Prod.mk.injEq] at hpair
  obtain ⟨hmount, hpath⟩ := hpair
  have hbytes := List.map_injective_iff.mpr (fun _ _ => UInt8.toNat_inj.mp) hpath
  have htext := congrArg fromUtf8 hbytes
  rw [fromUtf8_utf8, fromUtf8_utf8, Option.some.injEq] at htext
  exact Prod.ext hmount htext

/-! ### Files -/

def readIndexBytes (file : Bytes) (size position : Nat) : Except String Bytes :=
  if size = 0 ∨ position + size ≤ file.length then .ok (slice file position size)
  else .error "Checkpoint index is truncated."

/-- `writeIndexBytes`: a write past the end leaves zeros before it. -/
def writeIndexBytes (file bytes : Bytes) (position : Nat) : Bytes :=
  if bytes = [] then file
  else
    file.take position ++ List.replicate (position - file.length) 0 ++ bytes ++
      file.drop (position + bytes.length)

/-- A write at the end. -/
theorem writeIndexBytes_length (file bytes : Bytes) :
    writeIndexBytes file bytes file.length = file ++ bytes := by
  rw [writeIndexBytes]
  split
  · rename_i hempty
    rw [hempty, List.append_nil]
  · rw [List.take_length, Nat.sub_self, List.replicate_zero, List.append_nil,
      List.drop_of_length_le (Nat.le_add_right _ _), List.append_nil]

/-- A piece of a file is read where it stands. -/
theorem readIndexBytes_of_eq {file piece : Bytes} (before after : Bytes) {size position : Nat}
    (hfile : file = before ++ piece ++ after) (hsize : size = piece.length)
    (hposition : position = before.length) : readIndexBytes file size position = .ok piece := by
  rw [hfile, hsize, hposition, readIndexBytes, slice_append, if_pos]
  right
  rw [List.length_append, List.length_append]
  omega

/-! ### Records -/

/-- What a sorter is given: an entry, and the custody of its source. -/
structure SourceRecord where
  entry : CheckpointArchiveEntry
  custody : Option Bytes

/-- The parts of a record that are written. -/
structure SortRecord where
  document : Bytes
  privateBytes : Option Bytes
  length : Bytes
  size : Nat

/-- The length word of a record, with the flag for custody. -/
def framedLength (document : Bytes) (custody : Option Bytes) : Nat :=
  document.length + if custody.isSome then 2 ^ 31 else 0

def checkpointSortRecord (node : NodeRuntime) (value : CheckpointArchiveEntry)
    (custody : Option Bytes) : Except String SortRecord :=
  if custody.any fun bytes => bytes.length ≠ 64 then
    .error "Invalid checkpoint source custody size."
  else do
    let entry ← (CheckpointArchiveEntrySchema node).validate value
    let document := (CheckpointArchiveEntrySchema node).bytes entry
    if document.length > CHECKPOINT_ENTRY_BYTES then .error "Checkpoint sort record is too large."
    else
      .ok {
        document
        privateBytes := custody
        length := uint32BE (framedLength document custody)
        size := 4 + document.length + (custody.getD []).length }

/-- `readEntryRecord`: the entry, and where its custody is. -/
def readEntryRecord (node : NodeRuntime) (records : Bytes) (bytes offset : Nat) :
    Except String (CheckpointArchiveEntry × Option Nat) :=
  if offset > MAX_SAFE_INTEGER ∨ offset + 4 > bytes then
    .error "Invalid checkpoint index offset."
  else do
    let framed := readUIntBE (← readIndexBytes records 4 offset)
    let length := framed % 2 ^ 31
    let custodySize := if framed ≥ 2 ^ 31 then 64 else 0
    if length > CHECKPOINT_ENTRY_BYTES ∨ offset + 4 + length + custodySize > bytes then
      .error "Invalid checkpoint index record size."
    else
      let entry ← checkpointDocument node (CheckpointArchiveEntrySchema node) "index"
        (← readIndexBytes records length (offset + 4))
      .ok (entry, if custodySize ≠ 0 then some (offset + 4 + length) else none)

def readCheckpointIndexEntry (node : NodeRuntime) (records : Bytes) (bytes offset : Nat) :
    Except String CheckpointArchiveEntry :=
  return (← readEntryRecord node records bytes offset).1

def readCheckpointSourceRecord (node : NodeRuntime) (records : Bytes) (bytes offset : Nat) :
    Except String SourceRecord := do
  let record ← readEntryRecord node records bytes offset
  match record.2 with
  | none => return { entry := record.1, custody := none }
  | some custodyOffset =>
      return { entry := record.1, custody := some (← readIndexBytes records 64 custodyOffset) }

/-- `writeCheckpointSortRecord`: the two files after it. -/
def writeCheckpointSortRecord (records order : Bytes) (position index : Nat)
    (record : SortRecord) : Bytes × Bytes :=
  let records := writeIndexBytes records record.length position
  let records := writeIndexBytes records record.document (position + 4)
  let records :=
    match record.privateBytes with
    | none => records
    | some custody => writeIndexBytes records custody (position + 4 + record.document.length)
  (records, writeIndexBytes order (uint64BE position) (index * 8))

/-! ### A record reads back -/

namespace SourceRecord

variable (node : NodeRuntime) (record : SourceRecord)

/-- A record that a file can hold. -/
structure Fits : Prop where
  conforms : record.entry.conforms node = true
  custody : ∀ bytes, record.custody = some bytes → bytes.length = 64
  document : ((CheckpointArchiveEntrySchema node).bytes record.entry).length ≤ CHECKPOINT_ENTRY_BYTES

/-- The bytes of a record. -/
def bytes : Bytes :=
  let document := (CheckpointArchiveEntrySchema node).bytes record.entry
  uint32BE (framedLength document record.custody) ++ document ++ record.custody.getD []

end SourceRecord

variable {node : NodeRuntime} {record : SourceRecord}

/-- The document of an entry. -/
abbrev entryDocument (node : NodeRuntime) (entry : CheckpointArchiveEntry) : Bytes :=
  (CheckpointArchiveEntrySchema node).bytes entry

theorem SourceRecord.length_bytes :
    (record.bytes node).length =
      4 + (entryDocument node record.entry).length + (record.custody.getD []).length := by
  rw [SourceRecord.bytes, List.length_append, List.length_append, length_uint32BE]

/-- A record is written where it fits. -/
theorem checkpointSortRecord_eq_ok {result : SortRecord} :
    checkpointSortRecord node record.entry record.custody = .ok result ↔
      record.Fits node ∧ result =
        { document := entryDocument node record.entry
          privateBytes := record.custody
          length := uint32BE (framedLength (entryDocument node record.entry) record.custody)
          size := (record.bytes node).length } := by
  rw [SourceRecord.length_bytes, checkpointSortRecord]
  by_cases hcustody : record.custody.any (fun bytes => bytes.length ≠ 64) = true
  · rw [if_pos hcustody]
    refine ⟨fun h => (nomatch h), fun h => ?_⟩
    obtain ⟨bytes, hsome, hlength⟩ := (Option.any_eq_true _ _).mp hcustody
    exact absurd (h.1.custody bytes hsome) (of_decide_eq_true hlength)
  · rw [if_neg hcustody]
    have hsize : ∀ bytes, record.custody = some bytes → bytes.length = 64 := by
      intro bytes hsome
      rw [hsome] at hcustody
      simpa using hcustody
    constructor
    · intro h
      obtain ⟨entry, hentry, h⟩ := Except.bind_eq_ok.mp h
      obtain ⟨hconforms, rfl⟩ := DocumentSchema.validate_eq_ok.mp hentry
      dsimp only at h
      split_ifs at h with hlarge
      exact ⟨⟨hconforms, hsize, Nat.le_of_not_lt hlarge⟩, (Except.ok.inj h).symm⟩
    · rintro ⟨hfits, rfl⟩
      refine Except.bind_eq_ok.mpr ⟨record.entry,
        DocumentSchema.validate_eq_ok.mpr ⟨hfits.conforms, rfl⟩, ?_⟩
      dsimp only
      rw [if_neg (Nat.not_lt.mpr hfits.document)]

/-- The parts of a record, each with what stands before and after it. -/
theorem read_parts (node : NodeRuntime) (record : SourceRecord) (before after : Bytes) :
    let file := before ++ record.bytes node ++ after
    readIndexBytes file 4 before.length =
      .ok (uint32BE (framedLength (entryDocument node record.entry) record.custody)) ∧
    readIndexBytes file (entryDocument node record.entry).length (before.length + 4) =
      .ok (entryDocument node record.entry) ∧
    readIndexBytes file (record.custody.getD []).length
      (before.length + 4 + (entryDocument node record.entry).length) =
        .ok (record.custody.getD []) := by
  refine ⟨?_, ?_, ?_⟩
  · refine readIndexBytes_of_eq before
      (entryDocument node record.entry ++ record.custody.getD [] ++ after) ?_ rfl rfl
    simp only [SourceRecord.bytes, List.append_assoc]
  · refine readIndexBytes_of_eq
      (before ++ uint32BE (framedLength (entryDocument node record.entry) record.custody))
      (record.custody.getD [] ++ after) ?_ rfl ?_
    · simp only [SourceRecord.bytes, List.append_assoc]
    · rw [List.length_append, length_uint32BE]
  · refine readIndexBytes_of_eq
      (before ++ uint32BE (framedLength (entryDocument node record.entry) record.custody) ++
        entryDocument node record.entry) after ?_ rfl ?_
    · simp only [SourceRecord.bytes, List.append_assoc]
    · rw [List.length_append, List.length_append, length_uint32BE]

/-- The entry of a record, read where the record stands. -/
theorem readEntryRecord_append (hfits : record.Fits node) {before after : Bytes} {bytes : Nat}
    (hbytes : before.length + (record.bytes node).length ≤ bytes)
    (hsafe : before.length ≤ MAX_SAFE_INTEGER) :
    readEntryRecord node (before ++ record.bytes node ++ after) bytes before.length =
      .ok (record.entry, if record.custody.isSome then
        some (before.length + 4 + (entryDocument node record.entry).length) else none) := by
  have hlimit : (entryDocument node record.entry).length ≤ CHECKPOINT_ENTRY_BYTES := hfits.document
  have hentryBytes : CHECKPOINT_ENTRY_BYTES = 16384 := rfl
  obtain ⟨hframe, hdocument, -⟩ := read_parts node record before after
  rw [SourceRecord.length_bytes] at hbytes
  have hentry : checkpointDocument node (CheckpointArchiveEntrySchema node) "index"
      (entryDocument node record.entry) = .ok record.entry :=
    checkpointDocument_eq_ok.mpr ⟨hfits.conforms, rfl⟩
  rw [readEntryRecord, if_neg (by omega), hframe]
  dsimp only [bind, Except.bind]
  cases hcustody : record.custody with
  | none =>
      have hframed : framedLength (entryDocument node record.entry) none =
        (entryDocument node record.entry).length := rfl
      have hplain : ¬(entryDocument node record.entry).length ≥ 2 ^ 31 := by omega
      have hwithin : ¬((entryDocument node record.entry).length > CHECKPOINT_ENTRY_BYTES ∨
          before.length + 4 + (entryDocument node record.entry).length + 0 > bytes) := by omega
      rw [hframed, readUIntBE_uint32BE (by omega), Nat.mod_eq_of_lt (by omega), if_neg hplain,
        if_neg hwithin, hdocument]
      dsimp only
      rw [hentry]
      rfl
  | some custody =>
      have hframed : framedLength (entryDocument node record.entry) (some custody) =
        (entryDocument node record.entry).length + 2 ^ 31 := rfl
      have hsize := hfits.custody custody hcustody
      rw [hcustody, Option.getD_some, hsize] at hbytes
      -- the top bit of the frame says that custody follows
      have hflag : (entryDocument node record.entry).length + 2 ^ 31 ≥ 2 ^ 31 := by omega
      have hwithin : ¬((entryDocument node record.entry).length > CHECKPOINT_ENTRY_BYTES ∨
          before.length + 4 + (entryDocument node record.entry).length + 64 > bytes) := by omega
      rw [hframed, readUIntBE_uint32BE (by omega), Nat.add_mod_right, Nat.mod_eq_of_lt (by omega),
        if_pos hflag, if_neg hwithin, hdocument]
      dsimp only
      rw [hentry]
      rfl

theorem readCheckpointIndexEntry_append (hfits : record.Fits node) {before after : Bytes}
    {bytes : Nat} (hbytes : before.length + (record.bytes node).length ≤ bytes)
    (hsafe : before.length ≤ MAX_SAFE_INTEGER) :
    readCheckpointIndexEntry node (before ++ record.bytes node ++ after) bytes before.length =
      .ok record.entry := by
  rw [readCheckpointIndexEntry, readEntryRecord_append hfits hbytes hsafe]
  rfl

/-- A record reads back with its own custody. -/
theorem readCheckpointSourceRecord_append (hfits : record.Fits node) {before after : Bytes}
    {bytes : Nat} (hbytes : before.length + (record.bytes node).length ≤ bytes)
    (hsafe : before.length ≤ MAX_SAFE_INTEGER) :
    readCheckpointSourceRecord node (before ++ record.bytes node ++ after) bytes before.length =
      .ok record := by
  obtain ⟨-, -, hcustody⟩ := read_parts node record before after
  rw [readCheckpointSourceRecord, readEntryRecord_append hfits hbytes hsafe]
  dsimp only [bind, Except.bind]
  obtain ⟨entry, custody⟩ := record
  cases custody with
  | none => rfl
  | some custody =>
      have hsize : custody.length = 64 := hfits.custody custody rfl
      rw [Option.getD_some, hsize] at hcustody
      dsimp only [Option.isSome_some, if_true]
      rw [if_pos rfl]
      dsimp only
      rw [hcustody]
      rfl

/-! ### Files of offsets -/

/-- A record with its offset. -/
abbrev Placed := Nat × SourceRecord

/-- The file of the offsets of a list of records. -/
def offsetFile (placed : List Placed) : Bytes := placed.flatMap fun record => uint64BE record.1

theorem length_offsetFile (placed : List Placed) : (offsetFile placed).length = placed.length * 8 := by
  induction placed with
  | nil => rfl
  | cons record placed ih =>
      rw [offsetFile, List.flatMap_cons, List.length_append, length_uint64BE, ← offsetFile, ih,
        List.length_cons]
      omega

theorem offsetFile_append (before after : List Placed) :
    offsetFile (before ++ after) = offsetFile before ++ offsetFile after := List.flatMap_append

/-- The offset at an index. -/
theorem readIndexBytes_offsetFile {placed : List Placed} {index : Nat}
    (h : index < placed.length) :
    readIndexBytes (offsetFile placed) 8 (index * 8) = .ok (uint64BE placed[index].1) := by
  have hsplit : placed = placed.take index ++ [placed[index]] ++ placed.drop (index + 1) := by
    rw [List.append_assoc, List.singleton_append, List.getElem_cons_drop, List.take_append_drop]
  refine readIndexBytes_of_eq (offsetFile (placed.take index)) (offsetFile (placed.drop (index + 1)))
    ?_ rfl ?_
  · conv_lhs => rw [hsplit]
    rw [offsetFile_append, offsetFile_append]
    rfl
  · rw [length_offsetFile, List.length_take]
    omega

/-! ### Files of records -/

/-- The bytes that a list of records takes. -/
def recordFile (node : NodeRuntime) (records : List SourceRecord) : Bytes :=
  records.flatMap (SourceRecord.bytes node)

/-- The records with their offsets, from `start` on. -/
def place (node : NodeRuntime) (start : Nat) : List SourceRecord → List Placed
  | [] => []
  | record :: records =>
      (start, record) :: place node (start + (record.bytes node).length) records

theorem place_append (node : NodeRuntime) (start : Nat) (before : List SourceRecord)
    (record : SourceRecord) :
    place node start (before ++ [record]) =
      place node start before ++ [(start + (recordFile node before).length, record)] := by
  induction before generalizing start with
  | nil => rfl
  | cons first before ih =>
      rw [List.cons_append, place, ih, place, List.cons_append, recordFile, recordFile,
        List.flatMap_cons, List.length_append, Nat.add_assoc]

theorem map_snd_place (node : NodeRuntime) (start : Nat) (records : List SourceRecord) :
    (place node start records).map Prod.snd = records := by
  induction records generalizing start with
  | nil => rfl
  | cons record records ih => rw [place, List.map_cons, ih]

theorem length_place (node : NodeRuntime) (start : Nat) (records : List SourceRecord) :
    (place node start records).length = records.length := by
  rw [← List.length_map Prod.snd, map_snd_place]

/-- Where a placed record stands. -/
theorem mem_place {node : NodeRuntime} {records : List SourceRecord} {placed : Placed} {start : Nat}
    (h : placed ∈ place node start records) :
    ∃ before after, records = before ++ placed.2 :: after ∧
      placed.1 = start + (recordFile node before).length := by
  induction records generalizing start with
  | nil => cases h
  | cons record records ih =>
      rcases List.mem_cons.mp h with rfl | h
      · exact ⟨[], records, rfl, rfl⟩
      · obtain ⟨before, after, heq, hoffset⟩ := ih h
        refine ⟨record :: before, after, by rw [heq]; rfl, ?_⟩
        rw [hoffset, recordFile, recordFile, List.flatMap_cons, List.length_append, Nat.add_assoc]

theorem recordFile_append (node : NodeRuntime) (before after : List SourceRecord) :
    recordFile node (before ++ after) = recordFile node before ++ recordFile node after :=
  List.flatMap_append

end PocketCoder.Checkpoints
