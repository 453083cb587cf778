import PocketCoder.Checkpoints.Documents

/-!
The running state writer and reader share
(`contracts/src/checkpoints/archive-state.ts`): the order of entries, the
totals of each mount, and the two digests.

A hash is modelled by the bytes it has been updated with; `digest` is applied
at the end.
-/

namespace PocketCoder.Checkpoints

open PocketCoder.Foundation

/-- A length and the bytes, as the digests frame a document. -/
def frame (bytes : Bytes) : Bytes := uint64BE bytes.length ++ bytes

structure ArchiveState where
  header : CheckpointArchiveHeader
  manifest : Bytes
  content : Bytes
  mounts : List CheckpointMount
  previous : Option (Nat × Bytes)
  entries : Nat
  deriving DecidableEq

def checkpointArchiveState (header : CheckpointArchiveHeader) (document : Bytes) : ArchiveState where
  header := header
  manifest := frame document
  content := frame document
  mounts := header.mounts.map fun m => { name := m.name, logical_bytes := 0, file_count := 0 }
  previous := none
  entries := 0

namespace ArchiveState

/-- Entries come in the order of their mount and the bytes of their path. -/
def outOfOrder (state : ArchiveState) (entry : CheckpointArchiveEntry) : Bool :=
  match state.previous with
  | none => false
  | some (mount, path) =>
      entry.mount < mount || (entry.mount = mount && !decide (path < utf8 entry.path))

def record (state : ArchiveState) (entry : CheckpointArchiveEntry) (bytes : Bytes) :
    Except String ArchiveState :=
  if state.outOfOrder entry then .error "Checkpoint entries are duplicate or out of order."
  else
    match state.mounts[entry.mount]?, state.header.mounts[entry.mount]? with
    | some mount, some reserved =>
        let logicalBytes := mount.logical_bytes + entry.size
        let fileCount := mount.file_count + 1
        if logicalBytes > MAX_SAFE_INTEGER || logicalBytes > reserved.logical_bytes ||
            fileCount > reserved.file_count then
          .error "Checkpoint entry exceeds its declared totals."
        else
          .ok { state with
            mounts := state.mounts.set entry.mount
              { mount with logical_bytes := logicalBytes, file_count := fileCount }
            previous := some (entry.mount, utf8 entry.path)
            entries := state.entries + 1
            manifest := state.manifest ++ frame bytes
            content := state.content ++ frame bytes }
    | _, _ => .error "Invalid checkpoint entry mount."

def beginPayload (state : ArchiveState) (size : Nat) : ArchiveState :=
  { state with content := state.content ++ uint64BE size }

def payload (state : ArchiveState) (bytes : Bytes) : ArchiveState :=
  { state with content := state.content ++ bytes }

def summary (node : NodeRuntime) (state : ArchiveState) : Except String CheckpointArchiveSummary :=
  if canonicalJson (.arr (state.mounts.map CheckpointMount.toJson)) ≠
      canonicalJson (.arr (state.header.mounts.map CheckpointMount.toJson)) then
    .error "Checkpoint declared totals do not match content."
  else
    .ok { mounts := state.mounts
          manifest_digest := node.digest state.manifest
          content_digest := node.digest state.content }

@[simp] theorem entries_beginPayload (state : ArchiveState) (size : Nat) :
    (state.beginPayload size).entries = state.entries := rfl

@[simp] theorem entries_payload (state : ArchiveState) (bytes : Bytes) :
    (state.payload bytes).entries = state.entries := rfl

theorem payload_payload (state : ArchiveState) (a b : Bytes) :
    (state.payload a).payload b = state.payload (a ++ b) := by
  simp [payload]

theorem payload_nil (state : ArchiveState) : state.payload [] = state := by
  simp [payload]

/-- Everything `record` does when it does not throw. -/
theorem record_eq_ok {state state' : ArchiveState} {entry : CheckpointArchiveEntry}
    {bytes : Bytes} :
    state.record entry bytes = .ok state' ↔
      state.outOfOrder entry = false ∧ ∃ mount reserved,
        state.mounts[entry.mount]? = some mount ∧
        state.header.mounts[entry.mount]? = some reserved ∧
        mount.logical_bytes + entry.size ≤ MAX_SAFE_INTEGER ∧
        mount.logical_bytes + entry.size ≤ reserved.logical_bytes ∧
        mount.file_count + 1 ≤ reserved.file_count ∧
        state' = { state with
          mounts := state.mounts.set entry.mount
            { mount with
              logical_bytes := mount.logical_bytes + entry.size
              file_count := mount.file_count + 1 }
          previous := some (entry.mount, utf8 entry.path)
          entries := state.entries + 1
          manifest := state.manifest ++ frame bytes
          content := state.content ++ frame bytes } := by
  unfold record
  cases horder : state.outOfOrder entry with
  | true => simp
  | false =>
      cases hmount : state.mounts[entry.mount]? with
      | none => simp
      | some mount =>
          cases hreserved : state.header.mounts[entry.mount]? with
          | none => simp
          | some reserved =>
              simp only [Bool.false_eq_true, if_false, Option.some.injEq, true_and]
              split
              · rename_i hexceeds
                simp only [gt_iff_lt, Bool.or_eq_true, decide_eq_true_eq] at hexceeds
                constructor
                · intro h
                  contradiction
                · rintro ⟨_, _, rfl, rfl, hsafe, hbytes, hcount, -⟩
                  omega
              · rename_i hfits
                simp only [gt_iff_lt, Bool.or_eq_true, decide_eq_true_eq, not_or, not_lt] at hfits
                rw [Except.ok.injEq]
                constructor
                · rintro rfl
                  exact ⟨mount, reserved, rfl, rfl, hfits.1.1, hfits.1.2, hfits.2, rfl⟩
                · rintro ⟨_, _, rfl, rfl, -, -, -, h⟩
                  exact h.symm

theorem record_header {state state' : ArchiveState} {entry : CheckpointArchiveEntry}
    {bytes : Bytes} (h : state.record entry bytes = .ok state') : state'.header = state.header := by
  obtain ⟨-, _, _, -, -, -, -, -, rfl⟩ := record_eq_ok.mp h
  rfl

theorem record_entries {state state' : ArchiveState} {entry : CheckpointArchiveEntry}
    {bytes : Bytes} (h : state.record entry bytes = .ok state') :
    state'.entries = state.entries + 1 := by
  obtain ⟨-, _, _, -, -, -, -, -, rfl⟩ := record_eq_ok.mp h
  rfl

theorem entries_sub_one {state state' : ArchiveState} {entry : CheckpointArchiveEntry}
    {bytes : Bytes} (h : state.record entry bytes = .ok state') :
    state'.entries - 1 = state.entries := by
  rw [record_entries h, Nat.add_sub_cancel]

/-! ### The summary of a finished archive -/

theorem canonicalJson_mounts_injective {a b : List CheckpointMount}
    (h : canonicalJson (.arr (a.map CheckpointMount.toJson)) =
      canonicalJson (.arr (b.map CheckpointMount.toJson))) : a = b := by
  have hparse := congrArg Json.parse h
  rw [canonicalJson, canonicalJson, Json.parse_stringify, Json.parse_stringify, Option.some.injEq,
    Json.sortValue, Json.sortValue, Json.arr.injEq] at hparse
  have ha := mapM_fromJson_sortItems a
  rw [hparse, mapM_fromJson_sortItems] at ha
  exact (Option.some.inj ha).symm

theorem summary_eq_ok {node : NodeRuntime} {state : ArchiveState}
    {summary : CheckpointArchiveSummary} :
    state.summary node = .ok summary ↔ state.mounts = state.header.mounts ∧
      summary = { mounts := state.mounts
                  manifest_digest := node.digest state.manifest
                  content_digest := node.digest state.content } := by
  unfold ArchiveState.summary
  split
  · rename_i hne
    constructor
    · intro h
      contradiction
    · rintro ⟨hmounts, -⟩
      exact absurd (by rw [hmounts]) hne
  · rename_i heq
    have hmounts := canonicalJson_mounts_injective (not_not.mp heq)
    rw [Except.ok.injEq]
    exact ⟨fun h => ⟨hmounts, h.symm⟩, fun h => h.2.symm⟩

/-- The summary of an archive passes its own schema. -/
theorem summary_conforms {node : NodeRuntime} {state : ArchiveState}
    {summary : CheckpointArchiveSummary} (hheader : state.header.conforms = true)
    (h : state.summary node = .ok summary) : summary.conforms = true := by
  obtain ⟨hmounts, rfl⟩ := summary_eq_ok.mp h
  simp only [CheckpointArchiveHeader.conforms, Bool.and_eq_true] at hheader
  simp only [CheckpointArchiveSummary.conforms, hmounts, hheader.2, node.isDigest_digest,
    Bool.and_self]

end ArchiveState

end PocketCoder.Checkpoints
