import PocketCoder.Foundation.Formats
import PocketCoder.Foundation.Json

/-!
The documents of account purges: the intent that every one of them is about
(`contracts/src/recovery/account-purge.ts`), and how documents are kept as text
in the object store and in private files (`db/src/off-node/private-files.ts`).
-/

namespace PocketCoder.Purge

open PocketCoder.Foundation

/-- The limit of a metadata document, in bytes. -/
def LIMIT : Nat := 65536

structure AccountPurgeIntent where
  accountId : String
  operationId : String
  createRequestDigest : String
  purgeRequestDigest : String
  admittedAt : String
  deriving DecidableEq

/-- The intent passes `AccountPurgeIntentSchema`. -/
def AccountPurgeIntent.admitted (intent : AccountPurgeIntent) : Bool :=
  isUuid intent.accountId && isUuid intent.operationId &&
    isHexDigest intent.createRequestDigest && isHexDigest intent.purgeRequestDigest &&
    isDatetime intent.admittedAt

/-- How the documents of a schema are written and read: `JSON.stringify`, and
`JSON.parse` with the schema, which refuses what it does not admit. A file has a
line end after the text. -/
structure DocumentSchema (R : Type) where
  admits : R → Bool
  stringify : R → Bytes
  parse : Bytes → Option R
  admits_of_parse : ∀ {body record}, parse body = some record → admits record = true
  parse_stringify : ∀ record, admits record = true → parse (stringify record) = some record
  parse_line : ∀ record, parse (stringify record ++ [0x0a]) =
    if admits record then some record else none

/-- The file of a document. -/
def DocumentSchema.line {R : Type} (schema : DocumentSchema R) (record : R) : Bytes :=
  schema.stringify record ++ [0x0a]

theorem DocumentSchema.parse_line_admitted {R : Type} (schema : DocumentSchema R) {record : R}
    (h : schema.admits record = true) : schema.parse (schema.line record) = some record :=
  (schema.parse_line record).trans (if_pos h)

/-- What is read from the file of a document is the document. -/
theorem DocumentSchema.of_parse_line {R : Type} (schema : DocumentSchema R) {record found : R}
    (h : schema.parse (schema.line record) = some found) :
    found = record ∧ schema.admits record = true := by
  rw [DocumentSchema.line, schema.parse_line] at h
  split_ifs at h with hadmits
  exact ⟨(Option.some.inj h).symm, hadmits⟩

/-! ### Documents in JSON -/

/-- A text without the line end that a file has after it. -/
def withoutLineEnd (body : Bytes) : Bytes :=
  if body.getLast? = some 0x0a then body.dropLast else body

theorem withoutLineEnd_stringify {fields : List (String × Json)} :
    withoutLineEnd (utf8 (Json.obj fields).stringify) = utf8 (Json.obj fields).stringify := by
  rw [withoutLineEnd, Json.stringify, getLast?_utf8 (Json.getLast?_chars_obj fields)]
  exact if_neg (by decide)

theorem withoutLineEnd_line {body : Bytes} : withoutLineEnd (body ++ [0x0a]) = body := by
  rw [withoutLineEnd, List.getLast?_concat, if_pos rfl, List.dropLast_concat]

section

variable {R : Type} (admits : R → Bool) (fields : R → List (String × Json))
  (ofFields : List (String × Json) → Option R)

def parseDocument (body : Bytes) : Option R :=
  (fromUtf8 (withoutLineEnd body)).bind fun text => (Json.parse text).bind fun
    | .obj found => ofFields found
    | _ => none

theorem parseDocument_of_json {fields : List (String × Json)} {body : Bytes}
    (h : withoutLineEnd body = utf8 (Json.obj fields).stringify) :
    parseDocument ofFields body = ofFields fields := by
  rw [parseDocument, h, fromUtf8_utf8, Option.bind_some, Json.parse_stringify, Option.bind_some]

/-- The documents that are objects with the given fields. -/
def objectSchema (h : ∀ record, ofFields (fields record) = some record) : DocumentSchema R where
  admits := admits
  stringify record := utf8 (Json.obj (fields record)).stringify
  parse body := (parseDocument ofFields body).filter admits
  admits_of_parse hparse := (Option.filter_eq_some_iff.mp hparse).2
  parse_stringify record hadmits := by
    rw [parseDocument_of_json _ withoutLineEnd_stringify, h, Option.filter_some_pos hadmits]
  parse_line record := by
    rw [parseDocument_of_json _ withoutLineEnd_line, h, Option.filter_some]

theorem line_objectSchema (h : ∀ record, ofFields (fields record) = some record) (record : R) :
    (objectSchema admits fields ofFields h).line record =
      utf8 (.ofList (Json.obj (fields record)).chars) ++ [0x0a] :=
  rfl

theorem length_line_le {h : ∀ record, ofFields (fields record) = some record} {record : R}
    (hchars : (Json.obj (fields record)).chars.length ≤ 16000) :
    ((objectSchema admits fields ofFields h).line record).length ≤ LIMIT := by
  rw [line_objectSchema]
  generalize (Json.obj (fields record)).chars = chars at hchars ⊢
  have hbytes := length_utf8_le chars
  rw [List.length_append, List.length_singleton, LIMIT]
  omega

end

def AccountPurgeIntent.json (intent : AccountPurgeIntent) : Json :=
  .obj [("format", .str "pocketcoder-account-purge/v1"), ("accountId", .str intent.accountId),
    ("operationId", .str intent.operationId),
    ("createRequestDigest", .str intent.createRequestDigest),
    ("purgeRequestDigest", .str intent.purgeRequestDigest), ("admittedAt", .str intent.admittedAt)]

/-- `z.strictObject`: the values under the keys, of which there is each one and no
other. Of two fields with one key `JSON.parse` keeps the later. -/
def strictObject (keys : List String) (fields : List (String × Json)) : Option (List Json) :=
  if fields.all fun field => keys.contains field.1 then
    keys.mapM fun key => fields.reverse.lookup key
  else none

def AccountPurgeIntent.ofJson : Json → Option AccountPurgeIntent
  | .obj fields =>
      match strictObject ["format", "accountId", "operationId", "createRequestDigest",
          "purgeRequestDigest", "admittedAt"] fields with
      | some [.str format, .str accountId, .str operationId, .str createRequestDigest,
          .str purgeRequestDigest, .str admittedAt] =>
        if format = "pocketcoder-account-purge/v1" then
          some ⟨accountId, operationId, createRequestDigest, purgeRequestDigest, admittedAt⟩
        else none
      | _ => none
  | _ => none

theorem AccountPurgeIntent.ofJson_json (intent : AccountPurgeIntent) :
    ofJson intent.json = some intent :=
  rfl

end PocketCoder.Purge
