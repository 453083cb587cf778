import PocketCoder.Checkpoints.Writer

/-!
The size of an archive before it is written
(`contracts/src/checkpoints/archive-size.ts`).

The measurement runs the archive state over the entries alone: it never sees
a payload, so its content digest is not the archive's. `SameTotals` relates
its state to the writer's, and the document of the summary has the same
length for both, since every digest is written in the same number of bytes.
-/

namespace PocketCoder.Checkpoints

open PocketCoder.Foundation Generator

def checkpointMemberBytes (size : Nat) : Except String Nat :=
  if size > MAX_SAFE_INTEGER then .error "Invalid checkpoint member size."
  else if 512 + (size + 511) / 512 * 512 > MAX_SAFE_INTEGER then
    .error "Checkpoint member size exceeds safe integers."
  else .ok (512 + (size + 511) / 512 * 512)

/-- `entry.kind === "file"`. -/
def CheckpointArchiveEntry.isFile (entry : CheckpointArchiveEntry) : Bool :=
  match entry.kind with
  | .file _ => true
  | _ => false

namespace Measure

/-- `add(bytes)`. -/
def add (total bytes : Nat) : Except String Nat :=
  if total + bytes > MAX_SAFE_INTEGER then
    .error "Checkpoint archive size exceeds safe integers."
  else .ok (total + bytes)

/-- The payload members of a file, in closed form. -/
def addPayload (total size : Nat) : Except String Nat := do
  let full := size / CHECKPOINT_PAYLOAD_BYTES
  let total ← add total (full * (← checkpointMemberBytes CHECKPOINT_PAYLOAD_BYTES))
  let remainder := size % CHECKPOINT_PAYLOAD_BYTES
  if remainder ≠ 0 then add total (← checkpointMemberBytes remainder) else pure total

/-- `if (entry.kind === "file" && entry.size) { ... }`. -/
def addFile (total : Nat) (entry : CheckpointArchiveEntry) : Except String Nat :=
  if entry.isFile && entry.size ≠ 0 then addPayload total entry.size else .ok total

/-- The body of `for await (const input of entries)`. -/
def measureEntry (node : NodeRuntime) (state : ArchiveState) (total : Nat)
    (entry : CheckpointArchiveEntry) : Except String (ArchiveState × Nat) := do
  let entry ← (CheckpointArchiveEntrySchema node).validate entry
  let bytes ← document (CheckpointArchiveEntrySchema node) entry CHECKPOINT_ENTRY_BYTES
  let state ← state.record entry bytes
  let total ← add total (← checkpointMemberBytes bytes.length)
  let total ← addFile total entry
  pure (state, total)

def measureEntries (node : NodeRuntime) (state : ArchiveState) (total : Nat) :
    List CheckpointArchiveEntry → Except String (ArchiveState × Nat)
  | [] => pure (state, total)
  | entry :: entries => do
      let (state, total) ← measureEntry node state total entry
      measureEntries node state total entries

end Measure

def measureCheckpointArchive (node : NodeRuntime) (header : CheckpointArchiveHeader)
    (entries : List CheckpointArchiveEntry) : Except String Nat := do
  let validated ← CheckpointArchiveHeaderSchema.validate header
  let headerBytes ← document CheckpointArchiveHeaderSchema validated CHECKPOINT_DOCUMENT_BYTES
  let first ← checkpointMemberBytes headerBytes.length
  let (state, total) ← Measure.measureEntries node
    (checkpointArchiveState validated headerBytes) (first + 1024) entries
  let summary ← state.summary node
  let bytes ← document CheckpointArchiveSummarySchema summary CHECKPOINT_DOCUMENT_BYTES
  Measure.add total (← checkpointMemberBytes bytes.length)

/-! ### The length of a member -/

/-- The bytes of a member whose content has the given size. -/
def memberSize (size : Nat) : Nat := 512 + size + padding size

theorem length_memberBytes {name : String} {content : Bytes}
    (h : tarHeaderValid name content.length = true) :
    (memberBytes name content).length = memberSize content.length := by
  simp only [memberBytes, List.length_append, length_headerBlock h, length_zeros, memberSize]

/-- Rounding up to blocks is what the padding adds. -/
theorem memberSize_eq (size : Nat) : memberSize size = 512 + (size + 511) / 512 * 512 := by
  unfold memberSize padding
  omega

theorem checkpointMemberBytes_eq_ok {size bytes : Nat} :
    checkpointMemberBytes size = .ok bytes ↔
      bytes = memberSize size ∧ memberSize size ≤ MAX_SAFE_INTEGER := by
  rw [memberSize_eq]
  unfold checkpointMemberBytes
  split_ifs with hsize hbytes
  · constructor
    · intro h
      exact nomatch h
    · rintro ⟨-, h⟩
      omega
  · constructor
    · intro h
      exact nomatch h
    · rintro ⟨-, h⟩
      omega
  · rw [Except.ok.injEq]
    constructor
    · intro h
      exact ⟨h.symm, by omega⟩
    · rintro ⟨h, -⟩
      exact h.symm

namespace Measure

theorem add_eq_ok {total bytes sum : Nat} :
    add total bytes = .ok sum ↔ sum = total + bytes ∧ sum ≤ MAX_SAFE_INTEGER := by
  unfold add
  split_ifs with h
  · constructor
    · intro heq
      exact nomatch heq
    · rintro ⟨rfl, hsum⟩
      omega
  · rw [Except.ok.injEq]
    constructor
    · rintro rfl
      exact ⟨rfl, by omega⟩
    · rintro ⟨heq, -⟩
      exact heq.symm

end Measure

/-! ### The length of a payload -/

/-- The bytes of the payload members of a file of the given size. -/
def payloadSize (size : Nat) : Nat :=
  size / CHECKPOINT_PAYLOAD_BYTES * memberSize CHECKPOINT_PAYLOAD_BYTES +
    if size % CHECKPOINT_PAYLOAD_BYTES = 0 then 0 else memberSize (size % CHECKPOINT_PAYLOAD_BYTES)

/-- The closed form follows the loop that writes the members. -/
theorem payloadSize_step {size : Nat} (h : 0 < size) :
    payloadSize size = memberSize (min size CHECKPOINT_PAYLOAD_BYTES) +
      payloadSize (size - CHECKPOINT_PAYLOAD_BYTES) := by
  have hpositive : 0 < CHECKPOINT_PAYLOAD_BYTES := by decide
  unfold payloadSize
  generalize CHECKPOINT_PAYLOAD_BYTES = p at hpositive ⊢
  rcases Nat.lt_or_ge size p with hlt | hge
  · rw [Nat.sub_eq_zero_of_le hlt.le, min_eq_left hlt.le, Nat.div_eq_of_lt hlt,
      Nat.mod_eq_of_lt hlt, if_neg (by omega)]
    simp
  · have hdiv : size / p = (size - p) / p + 1 := Nat.div_eq_sub_div hpositive hge
    rw [min_eq_right hge, hdiv, Nat.mod_eq_sub_mod hge, Nat.succ_mul]
    omega

theorem length_payloadBytes {index chunk : Nat} (content : Bytes)
    (hindex : index ≤ MAX_SAFE_INTEGER) (hchunk : chunk + content.length ≤ MAX_SAFE_INTEGER) :
    (payloadBytes index chunk (chunksOf CHECKPOINT_PAYLOAD_BYTES content)).length =
      payloadSize content.length := by
  have hpositive : 0 < CHECKPOINT_PAYLOAD_BYTES := by decide
  have hoctal : CHECKPOINT_PAYLOAD_BYTES ≤ 0o77777777777 := by decide
  induction hn : content.length using Nat.strong_induction_on generalizing content chunk with
  | _ n ih =>
      by_cases hempty : content = []
      · obtain rfl : n = 0 := by rw [← hn, hempty, List.length_nil]
        rw [hempty, chunksOf_nil]
        simp [payloadBytes, payloadSize]
      · have hlen : 0 < content.length := List.length_pos_iff.mpr hempty
        have htake : (content.take CHECKPOINT_PAYLOAD_BYTES).length =
            min content.length CHECKPOINT_PAYLOAD_BYTES := by
          rw [List.length_take, min_comm]
        have hvalid : tarHeaderValid (payloadName index chunk)
            (content.take CHECKPOINT_PAYLOAD_BYTES).length = true :=
          tarHeaderValid_payloadName hindex (by omega) (by omega)
        have hrest := ih (content.length - CHECKPOINT_PAYLOAD_BYTES) (by omega)
          (content.drop CHECKPOINT_PAYLOAD_BYTES)
          (by rw [List.length_drop]; omega :
            chunk + 1 + (content.drop CHECKPOINT_PAYLOAD_BYTES).length ≤ _) List.length_drop
        rw [chunksOf_of_ne_nil hpositive hempty, payloadBytes, List.length_append,
          length_memberBytes hvalid, hrest, htake, hn, ← payloadSize_step (by omega)]

namespace Measure

theorem addPayload_eq_ok {total size sum : Nat} :
    addPayload total size = .ok sum ↔
      sum = total + payloadSize size ∧ sum ≤ MAX_SAFE_INTEGER := by
  have hpayload : memberSize CHECKPOINT_PAYLOAD_BYTES ≤ MAX_SAFE_INTEGER := by decide
  unfold addPayload payloadSize
  generalize CHECKPOINT_PAYLOAD_BYTES = p at hpayload ⊢
  by_cases hremainder : size % p = 0
  · simp only [Except.bind_eq_ok, checkpointMemberBytes_eq_ok, add_eq_ok, hremainder, ne_eq,
      not_true_eq_false, if_false, if_true, Nat.add_zero]
    constructor
    · rintro ⟨_, ⟨rfl, -⟩, _, ⟨rfl, hfull⟩, h⟩
      obtain rfl := Except.ok.inj h
      exact ⟨rfl, hfull⟩
    · rintro ⟨rfl, hsum⟩
      exact ⟨_, ⟨rfl, hpayload⟩, _, ⟨rfl, hsum⟩, rfl⟩
  · simp only [Except.bind_eq_ok, checkpointMemberBytes_eq_ok, add_eq_ok, hremainder, ne_eq,
      not_false_eq_true, if_false, if_true]
    constructor
    · rintro ⟨_, ⟨rfl, -⟩, _, ⟨rfl, -⟩, _, ⟨rfl, -⟩, rfl, hsum⟩
      exact ⟨Nat.add_assoc _ _ _, hsum⟩
    · rintro ⟨rfl, hsum⟩
      exact ⟨_, ⟨rfl, hpayload⟩, _, ⟨rfl, by omega⟩, _, ⟨rfl, by omega⟩,
        (Nat.add_assoc _ _ _).symm, hsum⟩

/-- The bytes an entry and its payload take. -/
def recordSize (node : NodeRuntime) (entry : CheckpointArchiveEntry) : Nat :=
  memberSize (entryBytes node entry).length + if entry.isFile then payloadSize entry.size else 0

/-- A file of size zero has no payload member, and the closed form agrees. -/
theorem addFile_eq_ok {total sum : Nat} {entry : CheckpointArchiveEntry}
    (htotal : total ≤ MAX_SAFE_INTEGER) :
    addFile total entry = .ok sum ↔
      sum = total + (if entry.isFile then payloadSize entry.size else 0) ∧
        sum ≤ MAX_SAFE_INTEGER := by
  unfold addFile
  cases hfile : entry.isFile with
  | false =>
      simp only [Bool.false_and, Bool.false_eq_true, if_false, Except.ok.injEq, Nat.add_zero]
      exact ⟨fun h => h ▸ ⟨rfl, htotal⟩, fun h => h.1.symm⟩
  | true =>
      by_cases hsize : entry.size = 0
      · have hzero : payloadSize 0 = 0 := by simp [payloadSize]
        simp only [hsize, hzero, ne_eq, not_true_eq_false, decide_false, Bool.and_false,
          Bool.false_eq_true, if_false, if_true, Except.ok.injEq, Nat.add_zero]
        exact ⟨fun h => h ▸ ⟨rfl, htotal⟩, fun h => h.1.symm⟩
      · simp only [hsize, ne_eq, not_false_eq_true, decide_true, Bool.and_self, if_true,
          addPayload_eq_ok]

theorem measureEntry_eq_ok {node : NodeRuntime} {state state' : ArchiveState}
    {total total' : Nat} {entry : CheckpointArchiveEntry} :
    measureEntry node state total entry = .ok (state', total') ↔
      entry.conforms node = true ∧ (entryBytes node entry).length ≤ CHECKPOINT_ENTRY_BYTES ∧
        state.record entry (entryBytes node entry) = .ok state' ∧
        total' = total + recordSize node entry ∧ total' ≤ MAX_SAFE_INTEGER := by
  unfold measureEntry recordSize
  simp only [Except.bind_eq_ok, DocumentSchema.validate_eq_ok, document_eq_ok,
    checkpointMemberBytes_eq_ok, add_eq_ok]
  constructor
  · rintro ⟨_, ⟨hconforms, rfl⟩, _, ⟨rfl, hshort⟩, mid, hrecord, _, ⟨rfl, -⟩, _, ⟨rfl, hsum⟩, last,
      hlast, hpair⟩
    obtain ⟨rfl, rfl⟩ := Prod.mk.inj (Except.ok.inj hpair)
    obtain ⟨rfl, hsafe⟩ := (addFile_eq_ok hsum).mp hlast
    exact ⟨hconforms, hshort, hrecord, by rw [Nat.add_assoc]; rfl, hsafe⟩
  · rintro ⟨hconforms, hshort, hrecord, rfl, hsafe⟩
    have hsum : total + memberSize (entryBytes node entry).length ≤ MAX_SAFE_INTEGER := by omega
    exact ⟨entry, ⟨hconforms, rfl⟩, _, ⟨rfl, hshort⟩, state', hrecord, _,
      ⟨rfl, le_trans (Nat.le_add_left _ _) hsum⟩, _, ⟨rfl, hsum⟩, _,
      (addFile_eq_ok hsum).mpr ⟨(Nat.add_assoc _ _ _).symm, hsafe⟩, rfl⟩

/-! ### Two runs of the archive state -/

/-- The states agree in all but the content digest. -/
structure SameTotals (a b : ArchiveState) : Prop where
  header : a.header = b.header
  manifest : a.manifest = b.manifest
  mounts : a.mounts = b.mounts
  previous : a.previous = b.previous
  entries : a.entries = b.entries

theorem SameTotals.afterPayload {a b : ArchiveState} (h : SameTotals a b) (record : ArchiveRecord) :
    SameTotals (a.afterPayload record) b := by
  unfold ArchiveState.afterPayload
  split
  · exact ⟨h.header, h.manifest, h.mounts, h.previous, h.entries⟩
  · exact h

theorem SameTotals.record {a b a' : ArchiveState} {entry : CheckpointArchiveEntry} {bytes : Bytes}
    (h : SameTotals a b) (ha : a.record entry bytes = .ok a') :
    ∃ b', b.record entry bytes = .ok b' ∧ SameTotals a' b' := by
  obtain ⟨horder, mount, reserved, hmount, hreserved, hsafe, hbytes, hcount, rfl⟩ :=
    ArchiveState.record_eq_ok.mp ha
  have horder' : b.outOfOrder entry = false := by
    simpa only [ArchiveState.outOfOrder, h.previous] using horder
  rw [h.mounts] at hmount
  rw [h.header] at hreserved
  refine ⟨_, ArchiveState.record_eq_ok.mpr
    ⟨horder', mount, reserved, hmount, hreserved, hsafe, hbytes, hcount, rfl⟩, ?_⟩
  exact ⟨h.header, by rw [h.manifest], by rw [h.mounts], rfl, by rw [h.entries]⟩

theorem SameTotals.symm {a b : ArchiveState} (h : SameTotals a b) : SameTotals b a :=
  ⟨h.header.symm, h.manifest.symm, h.mounts.symm, h.previous.symm, h.entries.symm⟩

/-- The bytes of a record whose content matches its entry. -/
theorem length_recordBytes {node : NodeRuntime} {index : Nat} {record : ArchiveRecord}
    (hindex : index ≤ MAX_SAFE_INTEGER) (hconforms : record.entry.conforms node = true)
    (hshort : (entryBytes node record.entry).length ≤ CHECKPOINT_ENTRY_BYTES)
    (hmatches : record.Matches node) :
    (recordBytes node index record).length = recordSize node record.entry := by
  have hname := tarHeaderValid_entryName hindex (le_trans hshort (by decide))
  have hcontent : record.content.length ≤ MAX_SAFE_INTEGER ∧
      payloadSize record.content.length =
        if record.entry.isFile then payloadSize record.entry.size else 0 := by
    obtain ⟨⟨mount, path, mode, mtime, size, kind⟩, content⟩ := record
    cases kind with
    | directory =>
        obtain rfl : content = [] := hmatches
        exact ⟨Nat.zero_le _, by simp [CheckpointArchiveEntry.isFile, payloadSize]⟩
    | symlink digest target =>
        obtain rfl : content = [] := hmatches
        exact ⟨Nat.zero_le _, by simp [CheckpointArchiveEntry.isFile, payloadSize]⟩
    | file digest =>
        obtain ⟨rfl, -⟩ : content.length = size ∧ node.digest content = digest := hmatches
        simp only [CheckpointArchiveEntry.conforms, Bool.and_eq_true, isCount,
          decide_eq_true_eq] at hconforms
        exact ⟨hconforms.2.1, by simp [CheckpointArchiveEntry.isFile]⟩
  rw [recordBytes, List.length_append, length_memberBytes hname,
    length_payloadBytes record.content hindex (by omega), hcontent.2, recordSize]

/-- The measurement follows the records of an archive. -/
theorem measureEntries_of_records {node : NodeRuntime} {state final measured : ArchiveState}
    {records : List ArchiveRecord} {body : Bytes} {total : Nat}
    (h : Records node state records body final) (hsame : SameTotals state measured)
    (hsafe : total + body.length ≤ MAX_SAFE_INTEGER) :
    ∃ measured', measureEntries node measured total (records.map ArchiveRecord.entry) =
      .ok (measured', total + body.length) ∧ SameTotals final measured' := by
  induction h generalizing measured total with
  | nil state => exact ⟨measured, rfl, hsame⟩
  | @cons state mid final record records out head tail ih =>
      obtain ⟨mid', hrecord, rfl⟩ := head.recorded
      obtain ⟨measured', hmeasured, hsame'⟩ := hsame.record hrecord
      have hlen := length_recordBytes head.index head.conforms head.short head.matching
      rw [List.length_append, hlen, ← Nat.add_assoc] at hsafe
      obtain ⟨final', hfinal, hsameFinal⟩ := ih (hsame'.afterPayload record) hsafe
      refine ⟨final', ?_, hsameFinal⟩
      rw [List.map_cons, measureEntries, Except.bind_eq_ok]
      refine ⟨(measured', total + recordSize node record.entry), measureEntry_eq_ok.mpr
        ⟨head.conforms, head.short, hmeasured, rfl, by omega⟩, ?_⟩
      dsimp only
      rw [hfinal, List.length_append, hlen, Nat.add_assoc]

/-- Records that match measured entries follow the measurement. -/
theorem records_of_measureEntries {node : NodeRuntime} {state measured measured' : ArchiveState}
    {records : List ArchiveRecord} {total total' : Nat}
    (h : measureEntries node measured total (records.map ArchiveRecord.entry) =
      .ok (measured', total'))
    (hsame : SameTotals state measured) (hmatches : ∀ record ∈ records, record.Matches node)
    (hentries : state.entries ≤ total) :
    ∃ body final, Records node state records body final ∧ SameTotals final measured' ∧
      total' = total + body.length := by
  induction records generalizing state measured total with
  | nil =>
      obtain ⟨rfl, rfl⟩ := Prod.mk.inj (Except.ok.inj h)
      exact ⟨[], state, .nil state, hsame, rfl⟩
  | cons record records ih =>
      rw [List.map_cons, measureEntries, Except.bind_eq_ok] at h
      obtain ⟨⟨mid, sum⟩, hentry, hrest⟩ := h
      obtain ⟨hconforms, hshort, hrecord, rfl, hsafe⟩ := measureEntry_eq_ok.mp hentry
      obtain ⟨hmatch, hmatches⟩ := List.forall_mem_cons.mp hmatches
      obtain ⟨mid', hrecord', hsame'⟩ := hsame.symm.record hrecord
      -- Every entry takes at least a header block, so the counter stays below the total.
      have hsize : 512 ≤ recordSize node record.entry := by
        unfold recordSize memberSize
        omega
      have hindex : state.entries ≤ MAX_SAFE_INTEGER := by omega
      have hafter := hsame'.symm.afterPayload record
      have hcount : (mid'.afterPayload record).entries ≤ total + recordSize node record.entry := by
        rw [hafter.entries, hsame'.entries, ArchiveState.record_entries hrecord']
        omega
      obtain ⟨body, final, hrecords, hfinal, rfl⟩ := ih hrest hafter hmatches hcount
      refine ⟨_, final, .cons ⟨hconforms, hshort, hindex, hmatch, mid', hrecord', rfl⟩ hrecords,
        hfinal, ?_⟩
      rw [List.length_append, length_recordBytes hindex hconforms hshort hmatch, Nat.add_assoc]

end Measure

/-! ### The length of the summary -/

/-- Digests are plain text: no character is escaped or takes two bytes. -/
theorem digest_plain (node : NodeRuntime) (bytes : Bytes) :
    ∀ c ∈ (node.digest bytes).toList, Json.escape c = [c] ∧ c.toNat < 128 := by
  intro c hc
  rw [NodeRuntime.digest, String.toList_append, List.mem_append] at hc
  rcases hc with hc | hc
  · have hall : "sha256:".toList.all fun c => decide (Json.escape c = [c] ∧ c.toNat < 128) := by
      decide
    exact of_decide_eq_true (List.all_eq_true.mp hall c hc)
  · exact forall_mem_hex (P := fun c => Json.escape c = [c] ∧ c.toNat < 128) _ (by decide) c hc

theorem length_quote_digest (node : NodeRuntime) (bytes : Bytes) :
    ((Json.quote (node.digest bytes)).flatMap String.utf8EncodeChar).length = 73 := by
  have hplain := digest_plain node bytes
  have hlen : (node.digest bytes).toList.length = 71 := by
    have hhex := length_hex (node.sha256 bytes)
    rw [node.sha256_length] at hhex
    rw [NodeRuntime.digest, String.toList_append, List.length_append, hhex]
    rfl
  have hquote : Json.quote (node.digest bytes) =
      '"' :: ((node.digest bytes).toList ++ ['"']) := by
    rw [Json.quote, List.flatMap_congr fun c hc => (hplain c hc).1, List.flatMap_singleton']
  rw [hquote, flatMap_utf8EncodeChar_ascii, List.length_map, List.length_cons, List.length_append,
    hlen, List.length_singleton]
  intro c hc
  simp only [List.mem_cons, List.mem_append, List.not_mem_nil, or_false] at hc
  rcases hc with rfl | hc | rfl
  · decide
  · exact (hplain c hc).2
  · decide

theorem length_summaryBytes (node : NodeRuntime) (mounts : List CheckpointMount)
    (a b a' b' : Bytes) :
    (CheckpointArchiveSummarySchema.bytes
      { mounts, manifest_digest := node.digest a, content_digest := node.digest b }).length =
    (CheckpointArchiveSummarySchema.bytes
      { mounts, manifest_digest := node.digest a', content_digest := node.digest b' }).length := by
  simp only [DocumentSchema.bytes, CheckpointArchiveSummarySchema, canonicalJson,
    CheckpointArchiveSummary.sortValue_toJson, Json.stringify, utf8_ofList, Json.chars,
    Json.fieldsChars, List.flatMap_cons, List.flatMap_append, List.length_append,
    length_quote_digest]

/-- Two runs that agree in their totals close with documents of one length. -/
theorem Measure.SameTotals.summary {node : NodeRuntime} {a b : ArchiveState}
    {summary : CheckpointArchiveSummary} (h : SameTotals a b)
    (ha : a.summary node = .ok summary) :
    ∃ summary', b.summary node = .ok summary' ∧
      (CheckpointArchiveSummarySchema.bytes summary').length =
        (CheckpointArchiveSummarySchema.bytes summary).length := by
  obtain ⟨hmounts, rfl⟩ := ArchiveState.summary_eq_ok.mp ha
  refine ⟨_, ArchiveState.summary_eq_ok.mpr ⟨?_, rfl⟩, ?_⟩
  · rw [← h.mounts, ← h.header, hmounts]
  · rw [← h.mounts]
    exact length_summaryBytes node a.mounts _ _ _ _

/-! ### The length of an archive -/

theorem length_trailerBytes {summary : CheckpointArchiveSummary}
    (hshort : (CheckpointArchiveSummarySchema.bytes summary).length ≤ CHECKPOINT_DOCUMENT_BYTES) :
    (trailerBytes summary).length =
      memberSize (CheckpointArchiveSummarySchema.bytes summary).length + 1024 := by
  rw [trailerBytes, List.length_append, length_memberBytes (tarHeaderValid_summary hshort),
    length_zeros]

/-- A member of a metadata document has a safe size. -/
theorem memberSize_document {size : Nat} (h : size ≤ CHECKPOINT_DOCUMENT_BYTES) :
    memberSize size ≤ MAX_SAFE_INTEGER := by
  have hpadding := padding_le size
  have hsafe : 512 + CHECKPOINT_DOCUMENT_BYTES + 512 ≤ MAX_SAFE_INTEGER := by decide
  unfold memberSize
  omega

theorem measureCheckpointArchive_of_isArchive {node : NodeRuntime}
    {header : CheckpointArchiveHeader} {records : List ArchiveRecord}
    {summary : CheckpointArchiveSummary} {bytes : Bytes}
    (h : IsArchive node header records summary bytes) (hsafe : bytes.length ≤ MAX_SAFE_INTEGER) :
    measureCheckpointArchive node header (records.map ArchiveRecord.entry) = .ok bytes.length := by
  obtain ⟨hconforms, hshort, body, final, hrecords, hcloses, rfl⟩ := h
  have hlen : (memberBytes "checkpoint.json" (headerBytes header) ++ body ++
      trailerBytes summary).length = memberSize (headerBytes header).length + 1024 + body.length +
        memberSize (CheckpointArchiveSummarySchema.bytes summary).length := by
    simp only [List.length_append, length_memberBytes (tarHeaderValid_checkpoint hshort),
      length_trailerBytes hcloses.short]
    omega
  rw [hlen] at hsafe ⊢
  have hstart : Measure.SameTotals (checkpointArchiveState header (headerBytes header))
      (checkpointArchiveState header (headerBytes header)) := ⟨rfl, rfl, rfl, rfl, rfl⟩
  obtain ⟨measured, hmeasured, hsame⟩ := Measure.measureEntries_of_records hrecords hstart
    (by omega : memberSize (headerBytes header).length + 1024 + body.length ≤ MAX_SAFE_INTEGER)
  obtain ⟨summary', hsummary, hsummaryLen⟩ := hsame.summary hcloses.totals
  unfold measureCheckpointArchive
  simp only [Except.bind_eq_ok, DocumentSchema.validate_eq_ok, document_eq_ok,
    checkpointMemberBytes_eq_ok, Measure.add_eq_ok]
  refine ⟨header, ⟨hconforms, rfl⟩, _, ⟨rfl, hshort⟩, _, ⟨rfl, memberSize_document hshort⟩, _,
    hmeasured, ?_⟩
  exact ⟨summary', hsummary, _, ⟨rfl, hsummaryLen ▸ hcloses.short⟩, _,
    ⟨rfl, memberSize_document (hsummaryLen ▸ hcloses.short)⟩, by rw [hsummaryLen], hsafe⟩

theorem isArchive_of_measureCheckpointArchive {node : NodeRuntime}
    {header : CheckpointArchiveHeader} {records : List ArchiveRecord} {n : Nat}
    (h : measureCheckpointArchive node header (records.map ArchiveRecord.entry) = .ok n)
    (hmatches : ∀ record ∈ records, record.Matches node) :
    n ≤ MAX_SAFE_INTEGER ∧
      ∃ summary bytes, IsArchive node header records summary bytes ∧ bytes.length = n := by
  unfold measureCheckpointArchive at h
  simp only [Except.bind_eq_ok, DocumentSchema.validate_eq_ok, document_eq_ok,
    checkpointMemberBytes_eq_ok, Measure.add_eq_ok] at h
  obtain ⟨_, ⟨hconforms, rfl⟩, _, ⟨rfl, hshort⟩, _, ⟨rfl, -⟩, ⟨measured, total⟩, hmeasured,
    observed, hobserved, _, ⟨rfl, hobservedShort⟩, _, ⟨rfl, -⟩, rfl, hsafe⟩ := h
  obtain ⟨body, final, hrecords, hsame, rfl⟩ := Measure.records_of_measureEntries hmeasured
    ⟨rfl, rfl, rfl, rfl, rfl⟩ hmatches (Nat.zero_le _)
  obtain ⟨summary, hsummary, hsummaryLen⟩ := hsame.symm.summary hobserved
  have hsummaryShort := hsummaryLen ▸ hobservedShort
  have hsummaryConforms : summary.conforms = true :=
    ArchiveState.summary_conforms (by rwa [hrecords.header]) hsummary
  refine ⟨hsafe, summary, _, ⟨hconforms, hshort, body, final, hrecords,
    ⟨hsummary, hsummaryConforms, hsummaryShort⟩, rfl⟩, ?_⟩
  simp only [List.length_append, length_memberBytes (tarHeaderValid_checkpoint hshort),
    length_trailerBytes hsummaryShort, hsummaryLen, headerBytes]
  omega

end PocketCoder.Checkpoints
