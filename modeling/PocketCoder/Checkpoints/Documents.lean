import PocketCoder.Checkpoints.Format

/-!
The JSON documents of an archive. A `DocumentSchema` is one of the three
schemas of the format together with the facts the codec rests on: the value is
written as an object, the sorted object reads back to the value, and it is one
that `JSON.parse` reads back where the schema accepts the value.

`checkpointDocument_eq_ok` says the whole of what a stored document is: the
reader accepts a byte string with a value exactly when the value conforms
and the bytes are its canonical text.
-/

namespace PocketCoder.Checkpoints

open PocketCoder.Foundation

/-- A schema, seen from the typed values it accepts. -/
structure DocumentSchema (α : Type) where
  toJson : α → Json
  fromJson : Json → Option α
  conforms : α → Bool
  /-- A value is stored as an object. -/
  toJson_obj : ∀ a, ∃ fields, (toJson a) = .obj fields
  /-- The canonical text reads back to the value. -/
  fromJson_sortValue : ∀ a, fromJson (toJson a).sortValue = some a
  plain : ∀ a, conforms a = true → (toJson a).sortValue.Plain

variable {α : Type}

/-- `schema.parse(value)`, `none` for a `ZodError`. -/
def DocumentSchema.parse (schema : DocumentSchema α) (v : Json) : Option α :=
  (schema.fromJson v).filter schema.conforms

/-- `schema.parse(value)` of a value that has its type already. -/
def DocumentSchema.validate (schema : DocumentSchema α) (value : α) : Except String α :=
  if schema.conforms value then .ok value else .error "ZodError"

/-- `Buffer.from(canonicalJson(value))`. -/
def DocumentSchema.bytes (schema : DocumentSchema α) (value : α) : Bytes :=
  utf8 (canonicalJson (schema.toJson value))

/-- The reader's `checkpointDocument`. -/
def checkpointDocument (node : NodeRuntime) (schema : DocumentSchema α) (name : String)
    (bytes : Bytes) : Except String α :=
  match ((decodeText bytes).bind node.json.parse).bind schema.parse with
  | some value =>
      if schema.bytes value = bytes then .ok value
      else .error ("Invalid checkpoint " ++ name ++ " document.")
  | none => .error ("Invalid checkpoint " ++ name ++ " document.")

/-- The writer's `document`, over a value its schema has accepted. -/
def document (schema : DocumentSchema α) (value : α) (limit : Nat) : Except String Bytes :=
  if (schema.bytes value).length > limit then
    .error "Checkpoint metadata document exceeds its size limit."
  else .ok (schema.bytes value)

/-- The text of an object starts with a brace, sorted or not. -/
theorem chars_sortValue_obj (fields : List (String × Json)) :
    ∃ cs, (Json.sortValue (.obj fields)).chars = '{' :: cs := by
  rw [Json.sortValue]
  cases h : Json.sortFields fields with
  | nil => exact ⟨['}'], by simp [Json.chars]⟩
  | cons f fs =>
      obtain ⟨k, v⟩ := f
      exact ⟨_, by rw [Json.chars]⟩

theorem DocumentSchema.decodeText_bytes (schema : DocumentSchema α) (value : α) :
    decodeText (schema.bytes value) = some (canonicalJson (schema.toJson value)) := by
  obtain ⟨fields, hobj⟩ := schema.toJson_obj value
  obtain ⟨cs, hcs⟩ := chars_sortValue_obj fields
  have htext : canonicalJson (schema.toJson value) = String.ofList ('{' :: cs) := by
    rw [hobj, canonicalJson, Json.stringify, hcs]
  rw [DocumentSchema.bytes, htext]
  exact decodeText_utf8 (by decide)

/-- A stored document is the canonical text of a conforming value. -/
theorem checkpointDocument_eq_ok {node : NodeRuntime} {schema : DocumentSchema α} {name : String}
    {bytes : Bytes} {value : α} :
    checkpointDocument node schema name bytes = .ok value ↔
      schema.conforms value = true ∧ bytes = schema.bytes value := by
  constructor
  · intro h
    unfold checkpointDocument at h
    split at h
    · rename_i v hv
      split at h
      · rename_i hbytes
        obtain ⟨v', -, hparse⟩ := Option.bind_eq_some_iff.mp hv
        injection h with h
        subst h
        exact ⟨(Option.filter_eq_some_iff.mp hparse).2, hbytes.symm⟩
      · contradiction
    · contradiction
  · rintro ⟨hconforms, rfl⟩
    have hparse : ((decodeText (schema.bytes value)).bind node.json.parse).bind schema.parse =
        some value := by
      rw [schema.decodeText_bytes, Option.bind_some, canonicalJson,
        node.json.parse_stringify _ (schema.plain value hconforms), Option.bind_some,
        DocumentSchema.parse, schema.fromJson_sortValue, Option.filter_some, if_pos hconforms]
    simp only [checkpointDocument, hparse, if_true]

/-- Values with the same canonical text are equal. -/
theorem DocumentSchema.eq_of_canonicalJson (schema : DocumentSchema α) {a b : α}
    (h : canonicalJson (schema.toJson a) = canonicalJson (schema.toJson b)) : a = b := by
  have hparse := congrArg Json.parse h
  rw [canonicalJson, canonicalJson, Json.parse_stringify, Json.parse_stringify,
    Option.some.injEq] at hparse
  have ha := schema.fromJson_sortValue a
  rw [hparse, schema.fromJson_sortValue] at ha
  exact (Option.some.inj ha).symm

theorem DocumentSchema.validate_eq_ok {schema : DocumentSchema α} {value value' : α} :
    schema.validate value = .ok value' ↔ schema.conforms value = true ∧ value' = value := by
  unfold validate
  split
  · rename_i h
    rw [Except.ok.injEq]
    exact ⟨fun heq => ⟨h, heq.symm⟩, fun hand => hand.2.symm⟩
  · rename_i h
    exact ⟨fun heq => by contradiction, fun hand => absurd hand.1 h⟩

theorem document_eq_ok {schema : DocumentSchema α} {value : α} {limit : Nat} {bytes : Bytes} :
    document schema value limit = .ok bytes ↔
      bytes = schema.bytes value ∧ bytes.length ≤ limit := by
  unfold document
  split
  · constructor
    · intro h
      contradiction
    · rintro ⟨rfl, h⟩
      omega
  · constructor
    · intro h
      injection h with h
      subst h
      exact ⟨rfl, by omega⟩
    · rintro ⟨rfl, -⟩
      rfl

-- A document is known by the lemmas above; its text is never computed.
attribute [irreducible] DocumentSchema.bytes

/-! ### The three schemas -/

theorem CheckpointMount.sortValue_toJson (mount : CheckpointMount) :
    mount.toJson.sortValue =
      .obj [("file_count", .num mount.file_count), ("logical_bytes", .num mount.logical_bytes),
        ("name", .str mount.name)] := by
  simp +decide [CheckpointMount.toJson, Json.sortValue, Json.sortFields, Json.insertField]

theorem CheckpointMount.fromJson_sortValue (mount : CheckpointMount) :
    CheckpointMount.fromJson mount.toJson.sortValue = some mount := by
  rw [mount.sortValue_toJson]
  rfl

theorem CheckpointMount.plain {mount : CheckpointMount} (h : mount.conforms = true) :
    mount.toJson.sortValue.Plain := by
  rw [CheckpointMount.conforms, Bool.and_eq_true, Bool.and_eq_true, isCount, isCount,
    decide_eq_true_eq, decide_eq_true_eq] at h
  rw [mount.sortValue_toJson]
  refine ⟨by simp, by decide, ?_, by decide, ?_, by decide, trivial, trivial⟩
  · exact h.2
  · exact h.1.2

/-- Mounts read back from the sorted array they are stored as. -/
theorem mapM_fromJson_sortItems (mounts : List CheckpointMount) :
    (Json.sortItems (mounts.map CheckpointMount.toJson)).mapM CheckpointMount.fromJson =
      some mounts := by
  rw [Json.sortItems_eq_map, List.map_map]
  induction mounts with
  | nil => rfl
  | cons mount mounts ih =>
      rw [List.map_cons, List.mapM_cons, Function.comp_apply, mount.fromJson_sortValue, ih]
      rfl

theorem plain_mounts {mounts : List CheckpointMount} (h : mountsConform mounts = true) :
    (Json.arr (Json.sortItems (mounts.map CheckpointMount.toJson))).Plain := by
  rw [mountsConform, Bool.and_eq_true, Bool.and_eq_true, List.all_eq_true] at h
  rw [Json.Plain, Json.plainItems_iff, Json.sortItems_eq_map, List.map_map]
  intro v hv
  obtain ⟨mount, hmount, rfl⟩ := List.mem_map.mp hv
  exact CheckpointMount.plain (h.1.1 mount hmount)

theorem CheckpointArchiveHeader.sortValue_toJson (header : CheckpointArchiveHeader) :
    header.toJson.sortValue =
      .obj [("checkpoint_id", .str header.checkpoint_id), ("format", .str header.format),
        ("mounts", .arr (Json.sortItems (header.mounts.map CheckpointMount.toJson))),
        ("template_digest", .str header.template_digest),
        ("workspace_id", .str header.workspace_id)] := by
  simp +decide [CheckpointArchiveHeader.toJson, Json.sortValue, Json.sortFields, Json.insertField]

def CheckpointArchiveHeaderSchema : DocumentSchema CheckpointArchiveHeader where
  toJson := CheckpointArchiveHeader.toJson
  fromJson := CheckpointArchiveHeader.fromJson
  conforms := CheckpointArchiveHeader.conforms
  toJson_obj _ := ⟨_, rfl⟩
  fromJson_sortValue header := by
    rw [header.sortValue_toJson]
    -- Every field but the mounts is read by computation.
    change ((Json.sortItems (header.mounts.map CheckpointMount.toJson)).mapM
      CheckpointMount.fromJson).bind (fun mounts => some { header with mounts }) = some header
    rw [mapM_fromJson_sortItems]
    rfl
  plain header h := by
    rw [CheckpointArchiveHeader.conforms, Bool.and_eq_true] at h
    rw [header.sortValue_toJson]
    exact ⟨by simp, by decide, trivial, by decide, trivial, by decide, plain_mounts h.2,
      by decide, trivial, by decide, trivial, trivial⟩

def CheckpointArchiveEntrySchema (node : NodeRuntime) : DocumentSchema CheckpointArchiveEntry where
  toJson := CheckpointArchiveEntry.toJson
  fromJson := CheckpointArchiveEntry.fromJson
  conforms := CheckpointArchiveEntry.conforms node
  toJson_obj _ := ⟨_, rfl⟩
  fromJson_sortValue entry := by
    obtain ⟨mount, path, mode, mtime, size, kind⟩ := entry
    cases kind <;>
      simp +decide only [CheckpointArchiveEntry.toJson, EntryKind.fields, List.cons_append,
        List.nil_append, Json.sortValue, Json.sortFields, Json.insertField, if_true, if_false] <;>
      rfl
  plain entry h := by
    obtain ⟨mount, path, mode, mtime, size, kind⟩ := entry
    have hmax : 511 ≤ MAX_SAFE_INTEGER := by decide
    have hnumbers : mount ≤ MAX_SAFE_INTEGER ∧ mode ≤ MAX_SAFE_INTEGER ∧
        size ≤ MAX_SAFE_INTEGER := by
      cases kind <;>
        simp only [CheckpointArchiveEntry.conforms, isCount, Bool.and_eq_true,
          decide_eq_true_eq] at h <;>
        omega
    obtain ⟨hmount, hmode, hsize⟩ := hnumbers
    cases kind <;>
      simp +decide only [CheckpointArchiveEntry.toJson, EntryKind.fields, List.cons_append,
        List.nil_append, Json.sortValue, Json.sortFields, Json.insertField, if_true, if_false] <;>
      simp +decide [Json.Plain, Json.PlainFields, hmount, hmode, hsize]

theorem CheckpointArchiveSummary.sortValue_toJson (summary : CheckpointArchiveSummary) :
    summary.toJson.sortValue =
      .obj [("content_digest", .str summary.content_digest),
        ("manifest_digest", .str summary.manifest_digest),
        ("mounts", .arr (Json.sortItems (summary.mounts.map CheckpointMount.toJson)))] := by
  simp +decide [CheckpointArchiveSummary.toJson, Json.sortValue, Json.sortFields,
    Json.insertField]

def CheckpointArchiveSummarySchema : DocumentSchema CheckpointArchiveSummary where
  toJson := CheckpointArchiveSummary.toJson
  fromJson := CheckpointArchiveSummary.fromJson
  conforms := CheckpointArchiveSummary.conforms
  toJson_obj _ := ⟨_, rfl⟩
  fromJson_sortValue summary := by
    rw [summary.sortValue_toJson]
    change ((Json.sortItems (summary.mounts.map CheckpointMount.toJson)).mapM
      CheckpointMount.fromJson).bind (fun mounts => some { summary with mounts }) = some summary
    rw [mapM_fromJson_sortItems]
    rfl
  plain summary h := by
    rw [CheckpointArchiveSummary.conforms, Bool.and_eq_true, Bool.and_eq_true] at h
    rw [summary.sortValue_toJson]
    exact ⟨by simp, by decide, trivial, by decide, trivial, by decide, plain_mounts h.1.1,
      trivial⟩

end PocketCoder.Checkpoints
