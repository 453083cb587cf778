import PocketCoder.Checkpoints.Reader
import PocketCoder.Checkpoints.Size

/-!
Writer, reader and measurement are one format: what is written is read back,
what is read is what would be written, and what is measured is what is
written. Each result goes through `IsArchive`, which determines the bytes of
a header and its records.
-/

namespace PocketCoder.Checkpoints

open PocketCoder.Foundation Generator

/-! ### What callbacks deliver -/

/-- The callbacks deliver the records: for each one its entry, pieces that
join to its content, and its end. -/
inductive DeliversRecords : List ArchiveRecord → List ReadEvent → Prop
  | nil : DeliversRecords [] []
  | cons {record : ArchiveRecord} {records : List ArchiveRecord} {events : List ReadEvent}
      (pieces : List Bytes) (content : pieces.flatten = record.content)
      (tail : DeliversRecords records events) :
      DeliversRecords (record :: records)
        (.onEntry record.entry ::
          (pieces.map (.onData record.entry) ++ .onEntryComplete record.entry :: events))

/-- The callbacks deliver a header and records. -/
def Delivers (header : CheckpointArchiveHeader) (records : List ArchiveRecord)
    (events : List ReadEvent) : Prop :=
  ∃ rest, events = .onHeader header :: rest ∧ DeliversRecords records rest

theorem deliversRecords_flatMap (records : List ArchiveRecord) :
    DeliversRecords records (records.flatMap recordEvents) := by
  induction records with
  | nil => exact .nil
  | cons record records ih =>
      have hcontent : ((chunksOf CHECKPOINT_PAYLOAD_BYTES record.content).flatMap
          (chunksOf CHECKPOINT_IO_BYTES)).flatten = record.content := by
        have hio (piece : Bytes) : (chunksOf CHECKPOINT_IO_BYTES piece).flatten = piece :=
          flatten_chunksOf (by decide) piece
        rw [List.flatMap, List.flatten_flatten, List.map_map]
        simp only [Function.comp_def, hio, List.map_id']
        exact flatten_chunksOf (by decide) record.content
      have hcons := DeliversRecords.cons _ hcontent ih
      rw [List.flatMap_cons, recordEvents]
      simpa using hcons

theorem delivers_archiveEvents (header : CheckpointArchiveHeader) (records : List ArchiveRecord) :
    Delivers header records (archiveEvents header records) :=
  ⟨_, rfl, deliversRecords_flatMap records⟩

/-- Where the pieces of an entry end is visible in the callbacks. -/
theorem map_onData_append_inj {entry entry' : CheckpointArchiveEntry} {pieces pieces' : List Bytes}
    {events events' : List ReadEvent}
    (h : pieces.map (ReadEvent.onData entry) ++ .onEntryComplete entry :: events =
      pieces'.map (ReadEvent.onData entry') ++ .onEntryComplete entry' :: events') :
    pieces = pieces' ∧ events = events' := by
  induction pieces generalizing pieces' with
  | nil =>
      cases pieces' with
      | nil => exact ⟨rfl, (List.cons.inj h).2⟩
      | cons => exact nomatch (List.cons.inj h).1
  | cons piece pieces ih =>
      cases pieces' with
      | nil => exact nomatch (List.cons.inj h).1
      | cons piece' pieces' =>
          obtain ⟨hpiece, hrest⟩ := List.cons.inj h
          obtain ⟨rfl, rfl⟩ := ih hrest
          rw [(ReadEvent.onData.inj hpiece).2]
          exact ⟨rfl, rfl⟩

theorem DeliversRecords.unique {records records' : List ArchiveRecord} {events : List ReadEvent}
    (h : DeliversRecords records events) (h' : DeliversRecords records' events) :
    records = records' := by
  induction h generalizing records' with
  | nil =>
      cases h' with
      | nil => rfl
  | @cons record records events pieces content tail ih =>
      generalize hevents : ReadEvent.onEntry record.entry ::
        (pieces.map (.onData record.entry) ++ .onEntryComplete record.entry :: events) = all at h'
      cases h' with
      | nil => exact nomatch hevents
      | @cons record' records' events' pieces' content' tail' =>
          obtain ⟨hentry, hrest⟩ := List.cons.inj hevents
          obtain ⟨rfl, rfl⟩ := map_onData_append_inj hrest
          have hrecord : record = record' := by
            obtain ⟨entry, data⟩ := record
            obtain ⟨entry', data'⟩ := record'
            obtain rfl := ReadEvent.onEntry.inj hentry
            rw [ArchiveRecord.mk.injEq]
            exact ⟨rfl, content.symm.trans content'⟩
          rw [hrecord, ih tail']

theorem Delivers.unique {header header' : CheckpointArchiveHeader}
    {records records' : List ArchiveRecord} {events : List ReadEvent}
    (h : Delivers header records events) (h' : Delivers header' records' events) :
    header = header' ∧ records = records' := by
  obtain ⟨rest, rfl, hrecords⟩ := h
  obtain ⟨rest', hevents, hrecords'⟩ := h'
  obtain ⟨hheader, rfl⟩ := List.cons.inj hevents
  exact ⟨ReadEvent.onHeader.inj hheader, hrecords.unique hrecords'⟩

/-! ### The bytes of an archive are determined -/

theorem Extends.unique {node : NodeRuntime} {state a b : ArchiveState} {record : ArchiveRecord}
    (ha : Extends node state record a) (hb : Extends node state record b) : a = b := by
  obtain ⟨mid, hmid, rfl⟩ := ha.recorded
  obtain ⟨mid', hmid', rfl⟩ := hb.recorded
  rw [Except.ok.inj (hmid.symm.trans hmid')]

theorem Records.unique {node : NodeRuntime} {state final final' : ArchiveState}
    {records : List ArchiveRecord} {out out' : Bytes} (h : Records node state records out final)
    (h' : Records node state records out' final') : out = out' ∧ final = final' := by
  induction h generalizing out' with
  | nil =>
      cases h' with
      | nil => exact ⟨rfl, rfl⟩
  | cons head tail ih =>
      cases h' with
      | cons head' tail' =>
          obtain rfl := head.unique head'
          obtain ⟨rfl, rfl⟩ := ih tail'
          exact ⟨rfl, rfl⟩

theorem IsArchive.unique {node : NodeRuntime} {header : CheckpointArchiveHeader}
    {records : List ArchiveRecord} {summary summary' : CheckpointArchiveSummary}
    {bytes bytes' : Bytes} (h : IsArchive node header records summary bytes)
    (h' : IsArchive node header records summary' bytes') : bytes = bytes' := by
  obtain ⟨body, final, hrecords, hcloses, rfl⟩ := h.layout
  obtain ⟨body', final', hrecords', hcloses', rfl⟩ := h'.layout
  obtain ⟨rfl, rfl⟩ := hrecords.unique hrecords'
  rw [Except.ok.inj (hcloses.totals.symm.trans hcloses'.totals)]

/-! ### Records as the writer takes them -/

/-- The record with its content as a stream of one chunk. -/
def ArchiveRecord.streamed (record : ArchiveRecord) : CheckpointArchiveRecord where
  entry := record.entry
  payload := if record.entry.isFile then some [record.content] else none

theorem ArchiveRecord.streamed_wellFormed (record : ArchiveRecord) : record.streamed.WellFormed := by
  obtain ⟨⟨mount, path, mode, mtime, size, kind⟩, content⟩ := record
  cases kind <;> rfl

theorem ArchiveRecord.joined_streamed {node : NodeRuntime} {record : ArchiveRecord}
    (h : record.Matches node) : record.streamed.joined = record := by
  obtain ⟨⟨mount, path, mode, mtime, size, kind⟩, content⟩ := record
  cases kind with
  | directory =>
      obtain rfl : content = [] := h
      rfl
  | symlink digest target =>
      obtain rfl : content = [] := h
      rfl
  | file digest => simp [streamed, CheckpointArchiveEntry.isFile, CheckpointArchiveRecord.joined]

theorem Records.matches {node : NodeRuntime} {state final : ArchiveState}
    {records : List ArchiveRecord} {out : Bytes} (h : Records node state records out final) :
    ∀ record ∈ records, record.Matches node := by
  induction h with
  | nil => simp
  | cons head _ ih => exact List.forall_mem_cons.mpr ⟨head.matching, ih⟩

theorem IsArchive.map_joined_streamed {node : NodeRuntime} {header : CheckpointArchiveHeader}
    {records : List ArchiveRecord} {summary : CheckpointArchiveSummary} {bytes : Bytes}
    (h : IsArchive node header records summary bytes) :
    (records.map ArchiveRecord.streamed).map CheckpointArchiveRecord.joined = records := by
  obtain ⟨body, final, hrecords, -, -⟩ := h.layout
  rw [List.map_map]
  conv_rhs => rw [← List.map_id records]
  exact List.map_congr_left fun record hrecord =>
    ArchiveRecord.joined_streamed (hrecords.matches record hrecord)

/-! ### A small archive -/

def smallHeader : CheckpointArchiveHeader where
  format := CHECKPOINT_ARCHIVE_FORMAT
  checkpoint_id := "5f0c1f3a-6d2b-4c1e-9a43-0d4f2b7c8e11"
  workspace_id := "00000000-0000-0000-0000-000000000000"
  template_digest := asciiRuntime.digest []
  mounts := [{ name := "data", logical_bytes := 1, file_count := 1 }]

/-- One file of one byte, which its stream delivers after an empty chunk. -/
def smallRecord : CheckpointArchiveRecord where
  entry :=
    { mount := 0, path := "a.txt", mode := 0o644, mtime_ns := "0", size := 1
      kind := .file (asciiRuntime.digest [97]) }
  payload := some [[], [97]]

theorem smallHeader_conforms : smallHeader.conforms = true := by
  have hdigest := asciiRuntime.isDigest_digest []
  have hcheckpoint : isUuid "5f0c1f3a-6d2b-4c1e-9a43-0d4f2b7c8e11" = true := by decide
  have hworkspace : isUuid "00000000-0000-0000-0000-000000000000" = true := by decide
  have hmounts : mountsConform [{ name := "data", logical_bytes := 1, file_count := 1 }] = true := by
    decide
  simp only [CheckpointArchiveHeader.conforms, smallHeader, hdigest, hcheckpoint, hworkspace,
    hmounts, decide_true, Bool.and_self]

theorem smallHeader_short : (headerBytes smallHeader).length ≤ CHECKPOINT_DOCUMENT_BYTES := by
  have hsort : smallHeader.toJson.sortValue =
      .obj [("checkpoint_id", .str smallHeader.checkpoint_id), ("format", .str smallHeader.format),
        ("mounts", .arr [.obj [("file_count", .num 1), ("logical_bytes", .num 1),
          ("name", .str "data")]]),
        ("template_digest", .str (asciiRuntime.digest [])),
        ("workspace_id", .str smallHeader.workspace_id)] := by
    simp +decide [CheckpointArchiveHeader.toJson, Json.sortValue, Json.sortFields,
      Json.insertField, smallHeader, CheckpointMount.toJson, Json.sortItems]
  simp only [headerBytes, DocumentSchema.bytes, CheckpointArchiveHeaderSchema, canonicalJson, hsort,
    Json.stringify, utf8_ofList, Json.chars, Json.fieldsChars, Json.itemsChars, List.flatMap_cons,
    List.flatMap_append, List.length_append, length_quote_digest, List.flatMap_nil, List.length_nil]
  decide

theorem smallRecord_conforms : smallRecord.entry.conforms asciiRuntime = true := by
  have hdigest := asciiRuntime.isDigest_digest [97]
  have hpath : safeCheckpointPath asciiRuntime "a.txt" = true := by decide
  have hmtime : isDecimal "0" = true := by decide
  have hsize : isCount 1 = true := by decide
  simp +decide only [CheckpointArchiveEntry.conforms, smallRecord, hdigest, hpath, hmtime, hsize,
    Bool.and_self, decide_true]

theorem smallRecord_short :
    (entryBytes asciiRuntime smallRecord.entry).length ≤ CHECKPOINT_ENTRY_BYTES := by
  have hsort : smallRecord.entry.toJson.sortValue =
      .obj [("digest", .str (asciiRuntime.digest [97])), ("kind", .str "file"),
        ("mode", .num 0o644), ("mount", .num 0), ("mtime_ns", .str "0"), ("path", .str "a.txt"),
        ("size", .num 1)] := by
    simp +decide only [CheckpointArchiveEntry.toJson, smallRecord, EntryKind.fields,
      List.cons_append, List.nil_append, Json.sortValue, Json.sortFields, Json.insertField, if_true,
      if_false]
    rfl
  simp only [entryBytes, DocumentSchema.bytes, CheckpointArchiveEntrySchema, canonicalJson, hsort,
    Json.stringify, utf8_ofList, Json.chars, Json.fieldsChars, List.flatMap_cons,
    List.flatMap_append, List.length_append, length_quote_digest, List.flatMap_nil, List.length_nil]
  decide

theorem smallRecord_matches : smallRecord.joined.Matches asciiRuntime := ⟨rfl, rfl⟩

theorem smallSummary_short (manifest content : Bytes) :
    (CheckpointArchiveSummarySchema.bytes
      { mounts := smallHeader.mounts, manifest_digest := asciiRuntime.digest manifest
        content_digest := asciiRuntime.digest content }).length ≤ CHECKPOINT_DOCUMENT_BYTES := by
  have hsort : (CheckpointArchiveSummary.toJson
      { mounts := smallHeader.mounts, manifest_digest := asciiRuntime.digest manifest
        content_digest := asciiRuntime.digest content }).sortValue =
      .obj [("content_digest", .str (asciiRuntime.digest content)),
        ("manifest_digest", .str (asciiRuntime.digest manifest)),
        ("mounts", .arr [.obj [("file_count", .num 1), ("logical_bytes", .num 1),
          ("name", .str "data")]])] := by
    simp +decide [CheckpointArchiveSummary.toJson, Json.sortValue, Json.sortFields,
      Json.insertField, smallHeader, CheckpointMount.toJson, Json.sortItems]
  simp only [DocumentSchema.bytes, CheckpointArchiveSummarySchema, canonicalJson, hsort,
    Json.stringify, utf8_ofList, Json.chars, Json.fieldsChars, Json.itemsChars, List.flatMap_cons,
    List.flatMap_append, List.length_append, length_quote_digest, List.flatMap_nil, List.length_nil]
  decide

/-- The header and the record have an archive, of a few blocks. -/
theorem small_isArchive : ∃ summary bytes,
    IsArchive asciiRuntime smallHeader [smallRecord.joined] summary bytes ∧
      bytes.length ≤ MAX_SAFE_INTEGER := by
  obtain ⟨mid, hmid, hmounts, hheader⟩ : ∃ mid,
      (checkpointArchiveState smallHeader (headerBytes smallHeader)).record smallRecord.entry
        (entryBytes asciiRuntime smallRecord.entry) = .ok mid ∧
      mid.mounts = smallHeader.mounts ∧ mid.header = smallHeader :=
    ⟨_, ArchiveState.record_eq_ok.mpr ⟨rfl, _, _, rfl, rfl, by decide, by decide, by decide, rfl⟩,
      rfl, rfl⟩
  have hextends : Extends asciiRuntime (checkpointArchiveState smallHeader (headerBytes smallHeader))
      smallRecord.joined (mid.afterPayload smallRecord.joined) :=
    ⟨smallRecord_conforms, smallRecord_short, Nat.zero_le _, smallRecord_matches, mid, hmid, rfl⟩
  obtain ⟨summary, htotals, hshort⟩ : ∃ summary,
      (mid.afterPayload smallRecord.joined).summary asciiRuntime = .ok summary ∧
      (CheckpointArchiveSummarySchema.bytes summary).length ≤ CHECKPOINT_DOCUMENT_BYTES :=
    ⟨_, ArchiveState.summary_eq_ok.mpr ⟨hmounts.trans (by rw [← hheader]; rfl), rfl⟩,
      hmounts ▸ smallSummary_short _ _⟩
  refine ⟨summary, _, ⟨smallHeader_conforms, smallHeader_short, _, _, .cons hextends (.nil _),
    ⟨htotals, ArchiveState.summary_conforms (hheader ▸ smallHeader_conforms) htotals, hshort⟩,
    rfl⟩, ?_⟩
  have hbound (size : Nat) : memberSize size ≤ 1024 + size := by
    have := padding_le size
    unfold memberSize
    omega
  have hheaderLen := length_memberBytes (tarHeaderValid_checkpoint smallHeader_short)
  have hrecordLen := Measure.length_recordBytes hextends.index hextends.conforms hextends.short
    hextends.matching
  have hfile : smallRecord.joined.entry.isFile = true := rfl
  have hpayload : payloadSize smallRecord.joined.entry.size = 1024 := by decide
  rw [Measure.recordSize, if_pos hfile, hpayload] at hrecordLen
  have hsummaryLen := length_trailerBytes hshort
  have hheaderBound := hbound (headerBytes smallHeader).length
  have hrecordBound := hbound (entryBytes asciiRuntime smallRecord.joined.entry).length
  have hsummaryBound := hbound (CheckpointArchiveSummarySchema.bytes summary).length
  have hheaderShort := smallHeader_short
  have hrecordShort := hextends.short
  have hsafe : 8192 + 2 * CHECKPOINT_DOCUMENT_BYTES + CHECKPOINT_ENTRY_BYTES ≤
      MAX_SAFE_INTEGER := by decide
  rw [List.length_append, List.length_append, List.length_append, List.length_nil, hheaderLen,
    hrecordLen, hsummaryLen]
  generalize (headerBytes smallHeader).length = a at hheaderBound hheaderShort ⊢
  generalize (entryBytes asciiRuntime smallRecord.joined.entry).length = b at hrecordBound hrecordShort ⊢
  generalize (CheckpointArchiveSummarySchema.bytes summary).length = c at hsummaryBound hshort ⊢
  clear hheaderLen hrecordLen hsummaryLen
  omega

/-- The writer completes on them. -/
theorem small_written : ∃ written, written.length ≤ MAX_SAFE_INTEGER ∧
    Writes (writeCheckpointArchive asciiRuntime smallHeader [smallRecord] MAX_SAFE_INTEGER)
      written () := by
  obtain ⟨summary, written, harchive, hsafe⟩ := small_isArchive
  exact ⟨written, hsafe, writeCheckpointArchive_writes.mpr
    ⟨le_refl _, by omega, by simp [smallRecord, CheckpointArchiveRecord.WellFormed], summary,
      harchive⟩⟩

/-! ### The three results -/

/-- **Round trip.** What the writer has written, cut into any chunks, the
reader accepts with any reservation that holds it. A reservation is a safe
integer: both programs refuse any other before they start. -/
theorem readCheckpointArchive_of_written {node : NodeRuntime} {header : CheckpointArchiveHeader}
    {records : List CheckpointArchiveRecord} {maxWritten maxRead : Int} {written : Bytes}
    {chunks : List Bytes}
    (hwritten : Writes (writeCheckpointArchive node header records maxWritten) written ())
    (hchunks : chunks.flatten = written) (hroom : (written.length : Int) ≤ maxRead)
    (hsafe : maxRead ≤ MAX_SAFE_INTEGER) :
    ∃ events report, Emits (readCheckpointArchive node chunks maxRead) events report ∧
      Delivers header (records.map CheckpointArchiveRecord.joined) events ∧
      report.header = header ∧ report.archiveBytes = written.length := by
  obtain ⟨-, -, -, summary, harchive⟩ := writeCheckpointArchive_writes.mp hwritten
  subst hchunks
  exact ⟨archiveEvents header (records.map CheckpointArchiveRecord.joined),
    ⟨header, summary, chunks.flatten.length, node.digest chunks.flatten⟩,
    readCheckpointArchive_emits.mpr ⟨hsafe, hroom, ⟨_, harchive, rfl⟩, rfl, rfl⟩,
    delivers_archiveEvents _ _, rfl, rfl⟩

theorem readCheckpointArchive_small : ∃ written events report,
    Writes (writeCheckpointArchive asciiRuntime smallHeader [smallRecord] MAX_SAFE_INTEGER)
      written () ∧
    Emits (readCheckpointArchive asciiRuntime [[], written] MAX_SAFE_INTEGER) events report ∧
    Delivers smallHeader [smallRecord.joined] events ∧ report.archiveBytes = written.length := by
  obtain ⟨written, hsafe, hwritten⟩ := small_written
  obtain ⟨events, report, hread, hdelivers, -, hbytes⟩ := readCheckpointArchive_of_written
    hwritten (by simp : [[], written].flatten = written) (by omega : (written.length : Int) ≤ _) (le_refl _)
  exact ⟨written, events, report, hwritten, hread, hdelivers, hbytes⟩

/-- **Canonical format.** A byte string the reader accepts is the one the
writer writes for the header and the records the reader has delivered, and no
other byte string is accepted with these. -/
theorem writeCheckpointArchive_of_read {node : NodeRuntime} {chunks : List Bytes} {maxRead : Int}
    {events : List ReadEvent} {report : ArchiveReport}
    (hread : Emits (readCheckpointArchive node chunks maxRead) events report) :
    (∃ records : List CheckpointArchiveRecord, (∀ record ∈ records, record.WellFormed) ∧
        Delivers report.header (records.map CheckpointArchiveRecord.joined) events) ∧
      (∀ header (records : List CheckpointArchiveRecord), (∀ record ∈ records, record.WellFormed) →
        Delivers header (records.map CheckpointArchiveRecord.joined) events →
        ∀ maxWritten : Int, (chunks.flatten.length : Int) ≤ maxWritten →
          maxWritten ≤ MAX_SAFE_INTEGER →
          Writes (writeCheckpointArchive node header records maxWritten) chunks.flatten ()) ∧
      (∀ header records, Delivers header records events →
        ∀ chunks' maxRead' events' report',
          Emits (readCheckpointArchive node chunks' maxRead') events' report' →
          Delivers header records events' → chunks'.flatten = chunks.flatten) := by
  obtain ⟨-, -, ⟨read, harchive, rfl⟩, -, -⟩ := readCheckpointArchive_emits.mp hread
  have hdelivers := delivers_archiveEvents report.header read
  refine ⟨⟨read.map ArchiveRecord.streamed, ?_, harchive.map_joined_streamed.symm ▸ hdelivers⟩,
    ?_, ?_⟩
  · intro record hrecord
    obtain ⟨source, -, rfl⟩ := List.mem_map.mp hrecord
    exact source.streamed_wellFormed
  · intro header records hformed hrecords maxWritten hroom hsafe
    obtain ⟨rfl, rfl⟩ := hdelivers.unique hrecords
    exact writeCheckpointArchive_writes.mpr ⟨hsafe, hroom, hformed, report.summary, harchive⟩
  · intro header records hrecords chunks' maxRead' events' report' hread' hrecords'
    obtain ⟨-, -, ⟨read', harchive', rfl⟩, -, -⟩ := readCheckpointArchive_emits.mp hread'
    obtain ⟨hheader, rfl⟩ := hdelivers.unique hrecords
    obtain ⟨hheader', rfl⟩ := (delivers_archiveEvents report'.header read').unique hrecords'
    rw [hheader', ← hheader] at harchive'
    exact harchive'.unique harchive

theorem writeCheckpointArchive_small : ∃ written events report,
    Emits (readCheckpointArchive asciiRuntime [written] MAX_SAFE_INTEGER) events report ∧
    Delivers smallHeader [smallRecord.joined] events ∧
    Writes (writeCheckpointArchive asciiRuntime smallHeader [smallRecord] written.length)
      written () := by
  obtain ⟨summary, written, harchive, hsafe⟩ := small_isArchive
  have hflatten : [written].flatten = written := List.flatten_singleton
  have hread : Emits (readCheckpointArchive asciiRuntime [written] MAX_SAFE_INTEGER)
      (archiveEvents smallHeader [smallRecord.joined])
      ⟨smallHeader, summary, written.length, asciiRuntime.digest written⟩ := by
    rw [readCheckpointArchive_emits, hflatten]
    exact ⟨le_refl _, by omega, ⟨_, harchive, rfl⟩, rfl, rfl⟩
  have hdelivers := delivers_archiveEvents smallHeader [smallRecord.joined]
  have hwrites := (writeCheckpointArchive_of_read hread).2.1 smallHeader [smallRecord]
    (by simp [smallRecord, CheckpointArchiveRecord.WellFormed]) hdelivers written.length
    (by rw [hflatten]) (by omega)
  rw [hflatten] at hwrites
  exact ⟨written, _, _, hread, hdelivers, hwrites⟩

/-- **Measured size.** A measured archive is written, byte for byte, in the
measured number of bytes with every reservation from that number on, and with
none below it; and whatever has been written could have been measured. -/
theorem measureCheckpointArchive_exact (node : NodeRuntime) (header : CheckpointArchiveHeader)
    (records : List CheckpointArchiveRecord) :
    (∀ n, measureCheckpointArchive node header (records.map CheckpointArchiveRecord.entry) = .ok n →
      (∀ record ∈ records, record.WellFormed ∧ record.joined.Matches node) →
      (∀ maxArchiveBytes : Int, (n : Int) ≤ maxArchiveBytes → maxArchiveBytes ≤ MAX_SAFE_INTEGER →
        ∃ written, Writes (writeCheckpointArchive node header records maxArchiveBytes) written () ∧
          written.length = n) ∧
      (∀ maxArchiveBytes : Int, maxArchiveBytes < n →
        ∃ e, (writeCheckpointArchive node header records maxArchiveBytes).result = .error e)) ∧
    (∀ (maxArchiveBytes : Int) (written : Bytes),
      Writes (writeCheckpointArchive node header records maxArchiveBytes) written () →
        measureCheckpointArchive node header (records.map CheckpointArchiveRecord.entry) =
          .ok written.length) := by
  have hentries : (records.map CheckpointArchiveRecord.joined).map ArchiveRecord.entry =
      records.map CheckpointArchiveRecord.entry := by
    rw [List.map_map]
    rfl
  have hmeasured {written : Bytes} {maxArchiveBytes : Int}
      (h : Writes (writeCheckpointArchive node header records maxArchiveBytes) written ()) :
      measureCheckpointArchive node header (records.map CheckpointArchiveRecord.entry) =
        .ok written.length := by
    obtain ⟨hsafe, hroom, -, summary, harchive⟩ := writeCheckpointArchive_writes.mp h
    rw [← hentries]
    exact measureCheckpointArchive_of_isArchive harchive (by omega)
  refine ⟨fun n hn hrecords => ⟨?_, ?_⟩, fun _ _ => hmeasured⟩
  · intro maxArchiveBytes hroom hsafe
    obtain ⟨-, summary, written, harchive, rfl⟩ :=
      isArchive_of_measureCheckpointArchive (hentries.symm ▸ hn) (by
        intro record hrecord
        obtain ⟨source, hsource, rfl⟩ := List.mem_map.mp hrecord
        exact (hrecords source hsource).2)
    exact ⟨written, writeCheckpointArchive_writes.mpr
      ⟨hsafe, hroom, fun record hrecord => (hrecords record hrecord).1, summary, harchive⟩, rfl⟩
  · intro maxArchiveBytes hshort
    cases hresult : (writeCheckpointArchive node header records maxArchiveBytes).result with
    | error e => exact ⟨e, rfl⟩
    | ok u =>
        -- A completed stream would have been measured and would fit the reservation.
        have hwrites : Writes (writeCheckpointArchive node header records maxArchiveBytes) _ () :=
          ⟨_, ⟨hresult, rfl⟩, rfl⟩
        have hsame := Except.ok.inj ((hmeasured hwrites).symm.trans hn)
        obtain ⟨-, hroom, -⟩ := writeCheckpointArchive_writes.mp hwrites
        omega

theorem measureCheckpointArchive_small : ∃ n : Nat,
    measureCheckpointArchive asciiRuntime smallHeader [smallRecord.entry] = .ok n ∧
    (∃ written, Writes (writeCheckpointArchive asciiRuntime smallHeader [smallRecord] n)
      written () ∧ written.length = n) ∧
    ∃ e, (writeCheckpointArchive asciiRuntime smallHeader [smallRecord] (n - 1)).result =
      .error e := by
  obtain ⟨written, hsafe, hwritten⟩ := small_written
  have hexact := measureCheckpointArchive_exact asciiRuntime smallHeader [smallRecord]
  have hmeasured := hexact.2 _ written hwritten
  obtain ⟨hfits, hfails⟩ := hexact.1 _ hmeasured (by
    simpa [smallRecord, CheckpointArchiveRecord.WellFormed] using smallRecord_matches)
  exact ⟨written.length, hmeasured, hfits _ (le_refl _) (by omega), hfails _ (by omega)⟩

end PocketCoder.Checkpoints
