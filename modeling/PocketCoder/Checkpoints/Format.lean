import PocketCoder.Foundation.Formats
import PocketCoder.Foundation.Json
import PocketCoder.Foundation.PosixPath
import PocketCoder.Foundation.Sha256

/-!
The checkpoint archive format: header, entries and summary, the schemas that
accept them, and the canonical JSON documents they are stored as
(`contracts/src/checkpoints/archive-format.ts`, `common/canonical.ts`).

Three things come from Node and are parameters, collected in `NodeRuntime`:
SHA-256, of which only the length of its result is used; Unicode NFC
normalization, an arbitrary function; and `JSON.parse`, a correct decoder.
Strings are sequences of Unicode scalar values, so `validUnicode` holds of
every one of them; a text whose value holds a lone surrogate has no `Json`
value and is refused, as every schema here refuses it.

A schema is a Boolean predicate on the typed value (`conforms`) and a reader
of JSON values (`parse`) that is strict about keys. What a document says is
fixed by its bytes: `checkpointDocument` accepts a byte string only if it is
the canonical text of the value it returns.
-/

namespace PocketCoder.Checkpoints

open PocketCoder.Foundation

/-- What the codec takes from its platform. -/
structure NodeRuntime where
  /-- `createHash("sha256").update(bytes).digest()`. -/
  sha256 : Bytes → Bytes
  sha256_length : ∀ bytes, (sha256 bytes).length = 32
  /-- `text.normalize("NFC")`. -/
  nfc : String → String
  /-- `JSON.parse`. -/
  json : JsonDecoder

/-- A runtime for ASCII text, which normalization leaves alone. -/
def asciiRuntime : NodeRuntime where
  sha256 := sha256
  sha256_length := length_sha256
  nfc := id
  json := Json.decoder

/-- The text of a SHA-256 digest, `sha256:${hash.digest("hex")}`. -/
def NodeRuntime.digest (node : NodeRuntime) (bytes : Bytes) : String :=
  "sha256:" ++ hex (node.sha256 bytes)

def CHECKPOINT_ARCHIVE_FORMAT : String := "pocketcoder-checkpoint-tar/v1"
def CHECKPOINT_PAYLOAD_BYTES : Nat := 64 * 1024 * 1024
def CHECKPOINT_IO_BYTES : Nat := 65536
def CHECKPOINT_DOCUMENT_BYTES : Nat := 32 * 1024
def CHECKPOINT_ENTRY_BYTES : Nat := 16 * 1024

/-! ### Texts the schemas accept -/

theorem NodeRuntime.isDigest_digest (node : NodeRuntime) (bytes : Bytes) :
    isDigest (node.digest bytes) = true :=
  isDigest_hex (node.sha256_length bytes)

/-- `z.string().min(1).max(64).regex(/^[a-z0-9]([a-z0-9-]{0,62}[a-z0-9])?$/)`. -/
def isMountName (s : String) : Bool :=
  s.toList.length ≤ 64 && s.toList.all (fun c => isLowerAlnum c || c = '-') &&
    s.toList.head?.any isLowerAlnum && s.toList.getLast?.any isLowerAlnum

/-! ### Safe paths and links -/

def safeCheckpointPath (node : NodeRuntime) (value : String) : Bool :=
  value = node.nfc value && !value.toList.contains '\x00' && !value.toList.contains '\\' &&
    (PosixPath.split value).all fun part => part ≠ "" && part ≠ "." && part ≠ ".."

def safeCheckpointLink (path target : String) : Bool :=
  if target = "" || PosixPath.isAbsolute target || target.toList.contains '\x00' ||
      target.toList.contains '\\' then false
  else
    let resolved := PosixPath.normalize (PosixPath.join (PosixPath.dirname path) target)
    resolved ≠ ".." && !(resolved.toList.take 3 = "../".toList) && !PosixPath.isAbsolute resolved

/-! ### Header, entries and summary -/

structure CheckpointMount where
  name : String
  logical_bytes : Nat
  file_count : Nat
  deriving DecidableEq, Repr

structure CheckpointArchiveHeader where
  format : String
  checkpoint_id : String
  workspace_id : String
  template_digest : String
  mounts : List CheckpointMount
  deriving DecidableEq, Repr

/-- The part of an entry that depends on its kind. -/
inductive EntryKind where
  | directory
  | file (digest : String)
  | symlink (digest link_target : String)
  deriving DecidableEq, Repr

structure CheckpointArchiveEntry where
  mount : Nat
  path : String
  mode : Nat
  mtime_ns : String
  size : Nat
  kind : EntryKind
  deriving DecidableEq, Repr

structure CheckpointArchiveSummary where
  mounts : List CheckpointMount
  manifest_digest : String
  content_digest : String
  deriving DecidableEq, Repr

def CheckpointMount.conforms (mount : CheckpointMount) : Bool :=
  isMountName mount.name && isCount mount.logical_bytes && isCount mount.file_count

/-- At most sixteen mounts, with distinct names. -/
def mountsConform (mounts : List CheckpointMount) : Bool :=
  mounts.all CheckpointMount.conforms && mounts.length ≤ 16 && decide (mounts.map (·.name)).Nodup

def CheckpointArchiveHeader.conforms (header : CheckpointArchiveHeader) : Bool :=
  header.format = CHECKPOINT_ARCHIVE_FORMAT && isUuid header.checkpoint_id &&
    isUuid header.workspace_id && isDigest header.template_digest && mountsConform header.mounts

def CheckpointArchiveEntry.conforms (node : NodeRuntime) (entry : CheckpointArchiveEntry) : Bool :=
  entry.mount ≤ 15 && safeCheckpointPath node entry.path && entry.mode ≤ 0o777 &&
    isDecimal entry.mtime_ns &&
    match entry.kind with
    | .directory => entry.size = 0
    | .file digest => isCount entry.size && isDigest digest
    | .symlink digest target =>
        entry.mode = 0o777 && isCount entry.size && isDigest digest &&
          safeCheckpointLink entry.path target && entry.size = (utf8 target).length &&
          digest = node.digest (utf8 target)

def CheckpointArchiveSummary.conforms (summary : CheckpointArchiveSummary) : Bool :=
  mountsConform summary.mounts && isDigest summary.manifest_digest && isDigest summary.content_digest

/-! ### As JSON values -/

def CheckpointMount.toJson (mount : CheckpointMount) : Json :=
  .obj [("name", .str mount.name), ("logical_bytes", .num mount.logical_bytes),
    ("file_count", .num mount.file_count)]

def CheckpointArchiveHeader.toJson (header : CheckpointArchiveHeader) : Json :=
  .obj [("format", .str header.format), ("checkpoint_id", .str header.checkpoint_id),
    ("workspace_id", .str header.workspace_id), ("template_digest", .str header.template_digest),
    ("mounts", .arr (header.mounts.map CheckpointMount.toJson))]

def EntryKind.fields : EntryKind → List (String × Json)
  | .directory => [("kind", .str "directory")]
  | .file digest => [("kind", .str "file"), ("digest", .str digest)]
  | .symlink digest target =>
      [("kind", .str "symlink"), ("digest", .str digest), ("link_target", .str target)]

def CheckpointArchiveEntry.toJson (entry : CheckpointArchiveEntry) : Json :=
  .obj ([("mount", .num entry.mount), ("path", .str entry.path), ("mode", .num entry.mode),
    ("mtime_ns", .str entry.mtime_ns), ("size", .num entry.size)] ++ entry.kind.fields)

def CheckpointArchiveSummary.toJson (summary : CheckpointArchiveSummary) : Json :=
  .obj [("mounts", .arr (summary.mounts.map CheckpointMount.toJson)),
    ("manifest_digest", .str summary.manifest_digest),
    ("content_digest", .str summary.content_digest)]

/-! ### From JSON values -/

/-- `z.strictObject`: the fields of an object that has no other keys. -/
def strictObject (keys : List String) : Json → Option (List (String × Json))
  | .obj fields => if fields.all (fun f => keys.contains f.1) then some fields else none
  | _ => none

def stringField (fields : List (String × Json)) (key : String) : Option String :=
  match fields.lookup key with
  | some (.str s) => some s
  | _ => none

def natField (fields : List (String × Json)) (key : String) : Option Nat :=
  match fields.lookup key with
  | some (.num (.ofNat n)) => some n
  | _ => none

def CheckpointMount.fromJson (v : Json) : Option CheckpointMount := do
  let fields ← strictObject ["name", "logical_bytes", "file_count"] v
  some { name := ← stringField fields "name", logical_bytes := ← natField fields "logical_bytes",
         file_count := ← natField fields "file_count" }

def mountsField (fields : List (String × Json)) : Option (List CheckpointMount) :=
  match fields.lookup "mounts" with
  | some (.arr items) => items.mapM CheckpointMount.fromJson
  | _ => none

def CheckpointArchiveHeader.fromJson (v : Json) : Option CheckpointArchiveHeader := do
  let fields ← strictObject
    ["format", "checkpoint_id", "workspace_id", "template_digest", "mounts"] v
  some { format := ← stringField fields "format",
         checkpoint_id := ← stringField fields "checkpoint_id",
         workspace_id := ← stringField fields "workspace_id",
         template_digest := ← stringField fields "template_digest",
         mounts := ← mountsField fields }

/-- The keys of an entry, by the value of its discriminator. -/
def entryKeys : String → List String
  | "directory" => ["mount", "path", "mode", "mtime_ns", "kind", "size"]
  | "file" => ["mount", "path", "mode", "mtime_ns", "kind", "size", "digest"]
  | "symlink" => ["mount", "path", "mode", "mtime_ns", "kind", "size", "digest", "link_target"]
  | _ => []

def kindField (fields : List (String × Json)) : Option EntryKind :=
  match stringField fields "kind" with
  | some "directory" => some .directory
  | some "file" => do some (.file (← stringField fields "digest"))
  | some "symlink" => do
      some (.symlink (← stringField fields "digest") (← stringField fields "link_target"))
  | _ => none

def CheckpointArchiveEntry.fromJson : Json → Option CheckpointArchiveEntry
  | .obj all => do
      let fields ← strictObject (entryKeys (← stringField all "kind")) (.obj all)
      some { mount := ← natField fields "mount", path := ← stringField fields "path",
             mode := ← natField fields "mode", mtime_ns := ← stringField fields "mtime_ns",
             size := ← natField fields "size", kind := ← kindField fields }
  | _ => none

def CheckpointArchiveSummary.fromJson (v : Json) : Option CheckpointArchiveSummary := do
  let fields ← strictObject ["mounts", "manifest_digest", "content_digest"] v
  some { mounts := ← mountsField fields,
         manifest_digest := ← stringField fields "manifest_digest",
         content_digest := ← stringField fields "content_digest" }

end PocketCoder.Checkpoints
