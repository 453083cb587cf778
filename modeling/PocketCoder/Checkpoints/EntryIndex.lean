import PocketCoder.Checkpoints.EntryRecord

/-!
The index of checkpoint entries (`db/src/checkpoints/entry-index.ts`). Entries
are appended in order, and a sealed index finds them by binary search.

An index holds its entries in the two files of `EntryRecord`, without custody.
-/

namespace PocketCoder.Checkpoints

open PocketCoder.Foundation

structure EntryIndex where
  maxBytes : Nat
  records : Bytes
  offsets : Bytes
  recordBytes : Nat
  count : Nat
  previous : Option CheckpointArchiveEntry
  isSealed : Bool

def createCheckpointEntryIndex (maxBytes : Nat) : Except String EntryIndex :=
  if maxBytes > MAX_SAFE_INTEGER then .error "Invalid checkpoint index reservation."
  else
    .ok { maxBytes, records := [], offsets := [], recordBytes := 0, count := 0, previous := none
          isSealed := false }

namespace EntryIndex

variable (node : NodeRuntime) (index : EntryIndex)

/-- The previous entry is not before this one. -/
def outOfOrder (entry : CheckpointArchiveEntry) : Bool :=
  index.previous.any fun previous => compareCheckpointPaths previous.key entry.key ≠ .lt

/-- The index would need more than its reservation. -/
def exceedsReservation (nextBytes : Nat) : Bool :=
  nextBytes + (index.count + 1) * 8 > MAX_SAFE_INTEGER ||
    nextBytes + (index.count + 1) * 8 > index.maxBytes

def append (value : CheckpointArchiveEntry) : Except String EntryIndex :=
  if index.isSealed then .error "Checkpoint index is sealed."
  else do
    let entry ← (CheckpointArchiveEntrySchema node).validate value
    if index.outOfOrder entry then
      .error "Checkpoint index entries are duplicate or out of order."
    else
      let document := (CheckpointArchiveEntrySchema node).bytes entry
      if document.length > CHECKPOINT_ENTRY_BYTES then
        .error "Checkpoint index record is too large."
      else
        let nextBytes := index.recordBytes + 4 + document.length
        if index.exceedsReservation nextBytes then
          .error "Checkpoint index exceeds its physical byte reservation."
        else
          -- the frame and the document first, then their offset
          let records := writeIndexBytes index.records (uint32BE document.length) index.recordBytes
          let records := writeIndexBytes records document (index.recordBytes + 4)
          let offsets := writeIndexBytes index.offsets (uint64BE index.recordBytes) (index.count * 8)
          .ok { index with
            records, offsets, recordBytes := nextBytes, count := index.count + 1
            previous := some entry }

/-- `seal`. -/
def sealIndex : EntryIndex := { index with isSealed := true, previous := none }

/-- `entryAt`. -/
def readEntry (ordinal : Nat) : Except String CheckpointArchiveEntry := do
  let offset := readUIntBE (← readIndexBytes index.offsets 8 (ordinal * 8))
  if offset > MAX_SAFE_INTEGER ∨ offset + 4 > index.recordBytes then
    .error "Invalid checkpoint index offset."
  else
    let length := readUIntBE (← readIndexBytes index.records 4 offset)
    if length > CHECKPOINT_ENTRY_BYTES ∨ offset + 4 + length > index.recordBytes then
      .error "Invalid checkpoint index record size."
    else
      checkpointDocument node (CheckpointArchiveEntrySchema node) "index"
        (← readIndexBytes index.records length (offset + 4))

def requireSealed : Except String Unit :=
  if index.isSealed then .ok () else .error "Checkpoint index is not sealed."

def find (mount : Nat) (path : String) : Except String (Option (CheckpointArchiveEntry × Nat)) := do
  index.requireSealed
  search (index.readEntry node) (fun entry => compareCheckpointPaths entry.key (mount, path)) 0
    index.count

def lookup (mount : Nat) (path : String) : Except String (Option CheckpointArchiveEntry) :=
  return (← index.find node mount path).map Prod.fst

def ordinal (mount : Nat) (path : String) : Except String (Option Nat) :=
  return (← index.find node mount path).map Prod.snd

/-- `at`, which the sealed index offers as `entryAt`. -/
def entryAt (ordinal : Nat) : Except String CheckpointArchiveEntry := do
  index.requireSealed
  if ordinal ≥ index.count then .error "Invalid checkpoint entry ordinal."
  else index.readEntry node ordinal

/-- Appends, one after the other. -/
def appendAll (entries : List CheckpointArchiveEntry) : Except String EntryIndex :=
  entries.foldlM (fun index entry => index.append node entry) index

end EntryIndex

/-! ### Appends -/

variable {node : NodeRuntime}

/-- An entry without custody. -/
def bare (entry : CheckpointArchiveEntry) : SourceRecord := { entry, custody := none }

/-- The index that has taken a list of entries. -/
def EntryIndex.holding (node : NodeRuntime) (maxBytes : Nat)
    (entries : List CheckpointArchiveEntry) : EntryIndex where
  maxBytes := maxBytes
  records := recordFile node (entries.map bare)
  offsets := offsetFile (place node 0 (entries.map bare))
  recordBytes := (recordFile node (entries.map bare)).length
  count := entries.length
  previous := entries.getLast?
  isSealed := false

/-- What a list of entries needs of the reservation. -/
def indexReserve (node : NodeRuntime) (entries : List CheckpointArchiveEntry) : Nat :=
  (recordFile node (entries.map bare)).length + entries.length * 8

/-- The entries are in order. -/
abbrev InOrder (entries : List CheckpointArchiveEntry) : Prop :=
  Increasing (fun entry : CheckpointArchiveEntry => pathOrder entry.key) entries

/-- An entry that can be indexed. -/
def Indexable (node : NodeRuntime) (entry : CheckpointArchiveEntry) : Prop :=
  entry.conforms node = true ∧ (entryDocument node entry).length ≤ CHECKPOINT_ENTRY_BYTES

theorem indexReserve_mono (node : NodeRuntime) (before after : List CheckpointArchiveEntry) :
    indexReserve node before ≤ indexReserve node (before ++ after) := by
  rw [indexReserve, indexReserve, List.map_append, recordFile_append, List.length_append,
    List.length_append]
  omega

theorem recordFile_concat (entries : List CheckpointArchiveEntry) (entry : CheckpointArchiveEntry) :
    recordFile node ((entries ++ [entry]).map bare) = recordFile node (entries.map bare) ++
      uint32BE (entryDocument node entry).length ++ entryDocument node entry := by
  have hbytes : (bare entry).bytes node =
      uint32BE (entryDocument node entry).length ++ entryDocument node entry ++ [] := rfl
  rw [List.map_append, recordFile_append, List.map_singleton, recordFile, recordFile,
    List.flatMap_singleton, hbytes, List.append_nil, List.append_assoc]

/-- The last entry is before a new one exactly when the whole list is. -/
theorem inOrder_concat {entries : List CheckpointArchiveEntry} (entry : CheckpointArchiveEntry)
    (h : InOrder entries) :
    InOrder (entries ++ [entry]) ↔
      entries.getLast?.any (fun previous =>
        compareCheckpointPaths previous.key entry.key ≠ .lt) = false := by
  rw [InOrder, Increasing, List.pairwise_append]
  have hsingle : [entry].Pairwise fun a b : CheckpointArchiveEntry =>
      pathOrder a.key < pathOrder b.key := List.pairwise_singleton _ _
  rcases List.eq_nil_or_concat' entries with rfl | ⟨init, last, rfl⟩
  · exact ⟨fun _ => rfl, fun _ => ⟨List.Pairwise.nil, hsingle, fun _ hmem => (by cases hmem)⟩⟩
  · rw [List.getLast?_concat, Option.any_some, decide_eq_false_iff_not, not_not,
      compareCheckpointPaths_eq, comparison_eq_lt]
    refine ⟨fun hall => ?_, fun hlast => ⟨h, hsingle, fun a ha b hb => ?_⟩⟩
    · exact hall.2.2 last (List.mem_append_right _ List.mem_cons_self) entry List.mem_cons_self
    · rw [List.mem_singleton.mp hb]
      rcases List.mem_append.mp ha with hinit | hlast'
      · exact ((List.pairwise_append.mp h).2.2 a hinit last List.mem_cons_self).trans hlast
      · rw [List.mem_singleton.mp hlast']
        exact hlast

theorem append_holding_index {maxBytes : Nat} {entries : List CheckpointArchiveEntry}
    {value : CheckpointArchiveEntry} :
    (EntryIndex.holding node maxBytes entries).append node value =
      ((CheckpointArchiveEntrySchema node).validate value >>= fun entry =>
        if (EntryIndex.holding node maxBytes entries).outOfOrder entry then
          .error "Checkpoint index entries are duplicate or out of order."
        else
          let document := (CheckpointArchiveEntrySchema node).bytes entry
          if document.length > CHECKPOINT_ENTRY_BYTES then
            .error "Checkpoint index record is too large."
          else
            let nextBytes := (recordFile node (entries.map bare)).length + 4 + document.length
            if (EntryIndex.holding node maxBytes entries).exceedsReservation nextBytes then
              .error "Checkpoint index exceeds its physical byte reservation."
            else
              let records := writeIndexBytes (recordFile node (entries.map bare))
                (uint32BE document.length) (recordFile node (entries.map bare)).length
              let records := writeIndexBytes records document
                ((recordFile node (entries.map bare)).length + 4)
              let offsets := writeIndexBytes (offsetFile (place node 0 (entries.map bare)))
                (uint64BE (recordFile node (entries.map bare)).length) (entries.length * 8)
              .ok { EntryIndex.holding node maxBytes entries with
                records, offsets, recordBytes := nextBytes, count := entries.length + 1
                previous := some entry }) := rfl

/-- The files after an append. -/
theorem holding_concat (maxBytes : Nat) (entries : List CheckpointArchiveEntry)
    (entry : CheckpointArchiveEntry) :
    { EntryIndex.holding node maxBytes entries with
      records := writeIndexBytes (writeIndexBytes (recordFile node (entries.map bare))
          (uint32BE (entryDocument node entry).length) (recordFile node (entries.map bare)).length)
        (entryDocument node entry) ((recordFile node (entries.map bare)).length + 4)
      offsets := writeIndexBytes (offsetFile (place node 0 (entries.map bare)))
        (uint64BE (recordFile node (entries.map bare)).length) (entries.length * 8)
      recordBytes := (recordFile node (entries.map bare)).length + 4 + (entryDocument node entry).length
      count := entries.length + 1
      previous := some entry } = EntryIndex.holding node maxBytes (entries ++ [entry]) := by
  have hwrite : ∀ file bytes : Bytes, ∀ n, n = file.length →
      writeIndexBytes file bytes n = file ++ bytes := by
    rintro file bytes n rfl
    exact writeIndexBytes_length file bytes
  have hoffsets : offsetFile (place node 0 ((entries ++ [entry]).map bare)) =
      offsetFile (place node 0 (entries.map bare)) ++
        uint64BE (recordFile node (entries.map bare)).length := by
    rw [List.map_append, List.map_singleton, place_append, offsetFile_append, Nat.zero_add]
    rfl
  rw [writeIndexBytes_length, hwrite _ _ _ (by rw [List.length_append, length_uint32BE]),
    hwrite _ _ _ (by rw [length_offsetFile, length_place, List.length_map]), EntryIndex.holding,
    EntryIndex.holding, recordFile_concat, hoffsets, List.length_append, List.length_append,
    List.length_append, length_uint32BE, List.getLast?_concat]
  rfl

/-- An append succeeds where the entry can be indexed, comes after the others
and has its room reserved. -/
theorem index_append_eq_ok {maxBytes : Nat} (hmax : maxBytes ≤ MAX_SAFE_INTEGER)
    {next : EntryIndex} {entries : List CheckpointArchiveEntry} {entry : CheckpointArchiveEntry}
    (horder : InOrder entries) :
    (EntryIndex.holding node maxBytes entries).append node entry = .ok next ↔
      Indexable node entry ∧ InOrder (entries ++ [entry]) ∧
        indexReserve node (entries ++ [entry]) ≤ maxBytes ∧
        next = .holding node maxBytes (entries ++ [entry]) := by
  have hreserve : indexReserve node (entries ++ [entry]) =
      (recordFile node (entries.map bare)).length + 4 + (entryDocument node entry).length +
        (entries.length + 1) * 8 := by
    rw [indexReserve, recordFile_concat, List.length_append, List.length_append, List.length_append,
      length_uint32BE]
    rfl
  -- the reservation is checked for the index with the entry in it
  have hexceeds : (EntryIndex.holding node maxBytes entries).exceedsReservation
      ((recordFile node (entries.map bare)).length + 4 + (entryDocument node entry).length) = false ↔
        indexReserve node (entries ++ [entry]) ≤ maxBytes := by
    rw [hreserve, EntryIndex.exceedsReservation, Bool.or_eq_false_iff, decide_eq_false_iff_not,
      decide_eq_false_iff_not]
    have hcount : (EntryIndex.holding node maxBytes entries).count = entries.length := rfl
    have hbytes : (EntryIndex.holding node maxBytes entries).maxBytes = maxBytes := rfl
    rw [hcount, hbytes]
    omega
  have hinOrder := inOrder_concat entry horder
  rw [append_holding_index]
  constructor
  · intro h
    obtain ⟨valid, hvalid, hrest⟩ := Except.bind_eq_ok.mp h
    obtain ⟨hconforms, hsame⟩ := DocumentSchema.validate_eq_ok.mp hvalid
    subst hsame
    dsimp only at hrest
    split_ifs at hrest with hout hlarge hroom
    rw [Bool.not_eq_true] at hout hroom
    exact ⟨⟨hconforms, Nat.le_of_not_lt hlarge⟩, hinOrder.mpr hout, hexceeds.mp hroom,
      ((holding_concat maxBytes entries valid).symm.trans (Except.ok.inj hrest)).symm⟩
  · rintro ⟨hindexable, hnext, hroom, rfl⟩
    refine Except.bind_eq_ok.mpr ⟨entry, DocumentSchema.validate_eq_ok.mpr ⟨hindexable.1, rfl⟩, ?_⟩
    have hout : (EntryIndex.holding node maxBytes entries).outOfOrder entry = false :=
      hinOrder.mp hnext
    dsimp only
    rw [hout, if_neg Bool.false_ne_true, if_neg (Nat.not_lt.mpr hindexable.2), hexceeds.mpr hroom,
      if_neg Bool.false_ne_true, ← holding_concat]

/-- The entries that can be indexed in a reservation. -/
theorem index_appendAll_eq_ok {maxBytes : Nat} (hmax : maxBytes ≤ MAX_SAFE_INTEGER)
    {next : EntryIndex} {entries : List CheckpointArchiveEntry}
    (before : List CheckpointArchiveEntry) (horder : InOrder before)
    (hbefore : indexReserve node before ≤ maxBytes) :
    (EntryIndex.holding node maxBytes before).appendAll node entries = .ok next ↔
      (∀ entry ∈ entries, Indexable node entry) ∧ InOrder (before ++ entries) ∧
        indexReserve node (before ++ entries) ≤ maxBytes ∧
        next = .holding node maxBytes (before ++ entries) := by
  induction entries generalizing before with
  | nil =>
      rw [List.append_nil]
      constructor
      · intro h
        exact ⟨fun _ hmem => (nomatch hmem), horder, hbefore, (Except.ok.inj h).symm⟩
      · rintro ⟨-, -, -, rfl⟩
        rfl
  | cons entry entries ih =>
      have hsplit : before ++ entry :: entries = (before ++ [entry]) ++ entries := by
        rw [List.append_assoc]
        rfl
      have happend : (EntryIndex.holding node maxBytes before).appendAll node (entry :: entries) =
          ((EntryIndex.holding node maxBytes before).append node entry >>= fun index =>
            index.appendAll node entries) := rfl
      rw [happend, hsplit]
      constructor
      · intro h
        obtain ⟨index, hindex, h⟩ := Except.bind_eq_ok.mp h
        obtain ⟨hindexable, hnext, hroom, rfl⟩ := (index_append_eq_ok hmax horder).mp hindex
        obtain ⟨hrest, hall, hreserve, hresult⟩ := (ih (before ++ [entry]) hnext hroom).mp h
        refine ⟨fun other hmem => ?_, hall, hreserve, hresult⟩
        rcases List.mem_cons.mp hmem with rfl | hmem
        · exact hindexable
        · exact hrest other hmem
      · rintro ⟨hindexable, hall, hreserve, hresult⟩
        have hroom := (indexReserve_mono node (before ++ [entry]) entries).trans hreserve
        have hnext : InOrder (before ++ [entry]) := (List.pairwise_append.mp hall).1
        exact Except.bind_eq_ok.mpr ⟨_, (index_append_eq_ok hmax horder).mpr
            ⟨hindexable entry List.mem_cons_self, hnext, hroom, rfl⟩,
          (ih (before ++ [entry]) hnext hroom).mpr
            ⟨fun other hmem => hindexable other (List.mem_cons_of_mem _ hmem), hall, hreserve,
              hresult⟩⟩

/-! ### The sealed index -/

/-- An index that was built from a list of entries, and sealed. -/
def BuiltFrom (node : NodeRuntime) (maxBytes : Nat) (entries : List CheckpointArchiveEntry)
    (index : EntryIndex) : Prop :=
  ∃ built, (createCheckpointEntryIndex maxBytes >>= fun index => index.appendAll node entries) =
    .ok built ∧ index = built.sealIndex

/-- An index is built exactly from a list of entries that are valid and in
order. -/
theorem builtFrom_iff {maxBytes : Nat} {entries : List CheckpointArchiveEntry} {index : EntryIndex} :
    BuiltFrom node maxBytes entries index ↔
      maxBytes ≤ MAX_SAFE_INTEGER ∧ (∀ entry ∈ entries, Indexable node entry) ∧ InOrder entries ∧
        indexReserve node entries ≤ maxBytes ∧
        index = (EntryIndex.holding node maxBytes entries).sealIndex := by
  rw [BuiltFrom, createCheckpointEntryIndex]
  by_cases hmax : maxBytes ≤ MAX_SAFE_INTEGER
  · rw [if_neg (Nat.not_lt.mpr hmax)]
    have happended : ∀ built, (EntryIndex.holding node maxBytes []).appendAll node entries =
        .ok built ↔ _ := fun built =>
      @index_appendAll_eq_ok node maxBytes hmax built entries [] List.Pairwise.nil (Nat.zero_le _)
    constructor
    · rintro ⟨built, hbuilt, rfl⟩
      obtain ⟨hindexable, horder, hroom, rfl⟩ := (happended built).mp hbuilt
      exact ⟨hmax, hindexable, horder, hroom, rfl⟩
    · rintro ⟨-, hindexable, horder, hroom, rfl⟩
      exact ⟨_, (happended _).mpr ⟨hindexable, horder, hroom, rfl⟩, rfl⟩
  · rw [if_pos (Nat.lt_of_not_le hmax)]
    exact ⟨fun ⟨_, h, _⟩ => (nomatch h), fun h => absurd h.1 hmax⟩

/-- An entry is read where its record stands. -/
theorem readEntry_append {index : EntryIndex} {entry : CheckpointArchiveEntry} {ordinal : Nat}
    {before after : Bytes} (hindexable : Indexable node entry)
    (hoffset : readIndexBytes index.offsets 8 (ordinal * 8) = .ok (uint64BE before.length))
    (hrecords : index.records = before ++ (bare entry).bytes node ++ after)
    (hbytes : index.recordBytes = index.records.length)
    (hsafe : index.recordBytes ≤ MAX_SAFE_INTEGER) :
    index.readEntry node ordinal = .ok entry := by
  obtain ⟨hframe, hdocument, -⟩ := read_parts node (bare entry) before after
  have hlimit : (entryDocument node entry).length ≤ CHECKPOINT_ENTRY_BYTES := hindexable.2
  have hentryBytes : CHECKPOINT_ENTRY_BYTES = 16384 := rfl
  have hsafeBytes : MAX_SAFE_INTEGER = 2 ^ 53 - 1 := rfl
  have htotal := congrArg List.length hrecords
  have hlength : ((bare entry).bytes node).length = 4 + (entryDocument node entry).length + 0 :=
    SourceRecord.length_bytes
  rw [List.length_append, List.length_append, hlength] at htotal
  rw [← hrecords] at hframe hdocument
  have hframed : framedLength (entryDocument node entry) none = (entryDocument node entry).length := rfl
  have hframe : readIndexBytes index.records 4 before.length =
      .ok (uint32BE (entryDocument node entry).length) := hframe
  have hdocument : readIndexBytes index.records (entryDocument node entry).length
      (before.length + 4) = .ok (entryDocument node entry) := hdocument
  rw [EntryIndex.readEntry, hoffset]
  dsimp only [bind, Except.bind]
  rw [readUIntBE_uint64BE (by omega), if_neg (by omega), hframe]
  dsimp only
  rw [readUIntBE_uint32BE (by omega), if_neg (by omega), hdocument]
  exact checkpointDocument_eq_ok.mpr ⟨hindexable.1, rfl⟩

section
variable {maxBytes : Nat} {entries : List CheckpointArchiveEntry} {index : EntryIndex}
variable (hbuilt : BuiltFrom node maxBytes entries index)

include hbuilt

theorem readEntry_built {ordinal : Nat} (h : ordinal < entries.length) :
    index.readEntry node ordinal = .ok entries[ordinal] := by
  obtain ⟨hmax, hindexable, -, hroom, rfl⟩ := builtFrom_iff.mp hbuilt
  have hplace : ordinal < (place node 0 (entries.map bare)).length := by
    rw [length_place, List.length_map]
    exact h
  have hrecord : (place node 0 (entries.map bare))[ordinal].2 = bare entries[ordinal] := by
    have hmap := congrArg (fun records => records[ordinal]?) (map_snd_place node 0 (entries.map bare))
    rw [List.getElem?_map, List.getElem?_map, List.getElem?_eq_getElem hplace,
      List.getElem?_eq_getElem h] at hmap
    exact Option.some.inj hmap
  obtain ⟨before, after, hsplit, hoffset⟩ := mem_place (List.getElem_mem hplace)
  rw [Nat.zero_add] at hoffset
  rw [hrecord] at hsplit
  have hfile : recordFile node (entries.map bare) =
      recordFile node before ++ (bare entries[ordinal]).bytes node ++ recordFile node after := by
    rw [hsplit, recordFile_append, List.append_assoc]
    rfl
  have hread := readIndexBytes_offsetFile hplace
  rw [hoffset] at hread
  refine readEntry_append (hindexable _ (List.getElem_mem h)) hread hfile rfl ?_
  exact (Nat.le_add_right _ _).trans (hroom.trans hmax)

theorem count_built : index.count = entries.length := by
  obtain ⟨-, -, -, -, rfl⟩ := builtFrom_iff.mp hbuilt
  rfl

theorem entryAt_built {ordinal : Nat} (h : ordinal < entries.length) :
    index.entryAt node ordinal = .ok entries[ordinal] := by
  have hread := readEntry_built hbuilt h
  have hcount := count_built hbuilt
  obtain ⟨-, -, -, -, rfl⟩ := builtFrom_iff.mp hbuilt
  have hentryAt : ((EntryIndex.holding node maxBytes entries).sealIndex).entryAt node ordinal =
      if ordinal ≥ entries.length then .error "Invalid checkpoint entry ordinal."
      else (EntryIndex.holding node maxBytes entries).sealIndex.readEntry node ordinal := rfl
  rw [hentryAt, if_neg (Nat.not_le.mpr h), hread]

/-- `find` answers with an entry and its ordinal exactly when they are there. -/
theorem find_built (mount : Nat) (path : String) :
    (∀ entry ordinal, index.find node mount path = .ok (some (entry, ordinal)) ↔
      entries[ordinal]? = some entry ∧ entry.mount = mount ∧ entry.path = path) ∧
    (index.find node mount path = .ok none ↔
      ∀ entry ∈ entries, ¬(entry.mount = mount ∧ entry.path = path)) := by
  have hread : ∀ ordinal (h : ordinal < entries.length),
      index.readEntry node ordinal = .ok entries[ordinal] := fun _ h => readEntry_built hbuilt h
  have horder : InOrder entries := (builtFrom_iff.mp hbuilt).2.2.1
  have hfind : index.find node mount path =
      search (index.readEntry node) (fun entry => compareCheckpointPaths entry.key (mount, path)) 0
        entries.length := by
    obtain ⟨-, -, -, -, rfl⟩ := builtFrom_iff.mp hbuilt
    rfl
  have hkey : ∀ entry : CheckpointArchiveEntry, pathOrder entry.key = pathOrder (mount, path) ↔
      entry.mount = mount ∧ entry.path = path := fun entry =>
    ⟨fun h => Prod.mk.inj (pathOrder_injective h), fun h => congrArg pathOrder (Prod.ext h.1 h.2)⟩
  obtain ⟨hsome, hnone⟩ := search_eq_ok horder hread
    (fun entry => compareCheckpointPaths_eq entry.key (mount, path))
  rw [hfind]
  refine ⟨fun entry ordinal => (hsome entry ordinal).trans (and_congr_right fun _ => hkey entry),
    hnone.trans (forall₂_congr fun entry _ => not_congr (hkey entry))⟩

end

/-- The lookup in a list of entries. -/
def indexed (entries : List CheckpointArchiveEntry) (mount : Nat) (path : String) :
    Option CheckpointArchiveEntry :=
  entries.find? fun entry => entry.mount = mount ∧ entry.path = path

section
variable {maxBytes : Nat} {entries : List CheckpointArchiveEntry} {index : EntryIndex}
variable (hbuilt : BuiltFrom node maxBytes entries index)

include hbuilt

/-- Entries of an index with one key are the same. -/
theorem indexed_of_key {entry : CheckpointArchiveEntry} (hmem : entry ∈ entries) :
    indexed entries entry.mount entry.path = some entry := by
  have horder : InOrder entries := (builtFrom_iff.mp hbuilt).2.2.1
  cases hfound : indexed entries entry.mount entry.path with
  | none =>
      have habsent := List.find?_eq_none.mp hfound entry hmem
      simp at habsent
  | some found =>
      have hkey := List.find?_some hfound
      rw [decide_eq_true_eq] at hkey
      obtain ⟨i, hi, rfl⟩ := List.getElem_of_mem (List.mem_of_find?_eq_some hfound)
      obtain ⟨j, hj, rfl⟩ := List.getElem_of_mem hmem
      obtain rfl := horder.getElem_inj hi hj (congrArg pathOrder (Prod.ext hkey.1 hkey.2))
      rfl

/-- A found entry, with its ordinal; or nothing is found. -/
theorem find_cases (mount : Nat) (path : String) :
    (∃ entry ordinal, index.find node mount path = .ok (some (entry, ordinal)) ∧
      entries[ordinal]? = some entry ∧ indexed entries mount path = some entry) ∨
    (index.find node mount path = .ok none ∧ indexed entries mount path = none) := by
  obtain ⟨hsome, hnone⟩ := find_built hbuilt mount path
  cases hindexed : indexed entries mount path with
  | none =>
      refine .inr ⟨hnone.mpr fun entry hmem hkey => ?_, rfl⟩
      have habsent := List.find?_eq_none.mp hindexed entry hmem
      rw [decide_eq_true_eq] at habsent
      exact habsent hkey
  | some entry =>
      have hkey := List.find?_some hindexed
      rw [decide_eq_true_eq] at hkey
      obtain ⟨ordinal, hordinal⟩ := List.mem_iff_getElem?.mp (List.mem_of_find?_eq_some hindexed)
      exact .inl ⟨entry, ordinal, (hsome entry ordinal).mpr ⟨hordinal, hkey⟩, hordinal, rfl⟩

theorem lookup_built (mount : Nat) (path : String) :
    index.lookup node mount path = .ok (indexed entries mount path) := by
  rw [EntryIndex.lookup]
  rcases find_cases hbuilt mount path with ⟨entry, ordinal, hfind, -, hindexed⟩ | ⟨hfind, hindexed⟩
  · rw [hfind, hindexed]
    rfl
  · rw [hfind, hindexed]
    rfl

end

end PocketCoder.Checkpoints
