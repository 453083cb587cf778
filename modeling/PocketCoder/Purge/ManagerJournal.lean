import PocketCoder.Foundation.Actors
import PocketCoder.Foundation.WriteOnce
import PocketCoder.Purge.Documents

/-!
The journal of account purges that all managers share
(`manager/src/recovery/journal.ts`): a chain of records in the object store,
each of which names the digest of the one before.

A manager has a copy of the chain in its folder and one in memory. It writes a
new record to its folder first, and the managers hold no lock: whose record is
put first under a sequence number has it, and the other manager stays with a
copy that differs.
-/

namespace PocketCoder.Purge.ManagerJournal

open PocketCoder.Foundation PocketCoder.Foundation.Async

structure JournalRecord where
  sequence : Nat
  previous : String
  intent : AccountPurgeIntent
  digest : String
  deriving DecidableEq

structure ManagerCursor where
  journalId : String
  sequence : Nat
  digest : String
  deriving DecidableEq

/-- The documents of the journal and their digests. -/
structure JournalFormat where
  identity : DocumentSchema String
  record : DocumentSchema JournalRecord
  cursor : DocumentSchema ManagerCursor
  /-- The digest that the first record names. -/
  hashIdentity : String → String
  hashBody : Nat → String → AccountPurgeIntent → String

inductive JournalKey
  | identity
  | record (journalId : String) (sequence : Nat)
  deriving DecidableEq

/-- What a manager has in memory between its calls. -/
structure JournalMemory where
  journalId : String
  records : List JournalRecord
  acknowledgedSequences : List Nat
  cursor : ManagerCursor

structure JournalState (M : Type) where
  storage : WriteOnce JournalKey Bytes
  identityFile : M → Option Bytes
  recordFiles : M → JsMap Nat Bytes
  headFile : M → Option Bytes
  memory : M → Option JournalMemory

inductive JournalOperation (M : Type)
  | putIfAbsent (key : JournalKey) (body : Bytes)
  | abandon (key : JournalKey) (body : Bytes)
  | writeIdentity (m : M) (text : Bytes)
  | writeRecord (m : M) (sequence : Nat) (text : Bytes)
  | writeHead (m : M) (text : Bytes)
  | remember (m : M) (memory : Option JournalMemory)

inductive JournalRequest
  | start
  | refresh
  | append (intent : AccountPurgeIntent)

section

variable {M R : Type} [DecidableEq R] (format : JournalFormat)

abbrev Journal (M α : Type) := Async (JournalState M) (JournalOperation M) α

/-! ### Files and objects -/

/-- The checks of the folder, which may throw. -/
def custody : Journal M Unit := call

def json (schema : DocumentSchema R) (body : Bytes) : Journal M R :=
  if LIMIT < body.length then throw ()
  else
    match schema.parse body with
    | none => throw ()
    | some document => return document

/-- A missing object must never have had a version. -/
def remote (schema : DocumentSchema R) (key : JournalKey) : Journal M (Option R) := do
  call
  match ← read fun state => state.storage.get key with
  | none =>
      call
      let versions ← read fun state => (state.storage.get key).isSome
      if versions then throw () else return none
  | some body =>
      call
      let document ← json schema body
      return some document

/-- `putIfAbsent`, for which the status 412 is no failure. A request that takes
too long is given up. -/
def putIfAbsent (key : JournalKey) (body : Bytes) : Journal M Unit := do
  let givenUp : Bool ← outside
  if givenUp then
    let _ ← perform (.abandon key body) fun _ => ()
    throw ()
  else
    let _ ← perform (.putIfAbsent key body) fun _ => ()
    call

def publish (schema : DocumentSchema R) (key : JournalKey) (value : R) : Journal M Unit := do
  putIfAbsent key (schema.stringify value)
  match ← remote schema key with
  | none => throw ()
  | some found => if found ≠ value then throw () else return ()

def readFile (schema : DocumentSchema R) (file : JournalState M → Option Bytes) :
    Journal M (Option R) := do
  match ← read file with
  | none => return none
  | some text =>
      call
      let document ← json schema text
      return some document

def writePrivateJson (operation : JournalOperation M) (text : Bytes) : Journal M Unit := do
  if LIMIT < text.length then throw () else
  call
  let _ ← perform operation fun _ => ()
  call

/-- A step that is taken when a condition holds. -/
def onlyIf (condition : Bool) (task : Journal M Unit) : Journal M Unit :=
  if condition then task else return ()

/-! ### Records -/

def memoryOf (m : M) : Journal M JournalMemory := do
  match ← read fun state => state.memory m with
  | none => throw ()
  | some memory => return memory

def accept (m : M) (record : JournalRecord) : Journal M Unit := do
  if !format.record.admits record then throw () else
  let memory ← memoryOf m
  if record.sequence ≠ memory.cursor.sequence + 1 || record.previous ≠ memory.cursor.digest ||
      format.hashBody record.sequence record.previous record.intent ≠ record.digest then throw ()
  else
    perform (.remember m (some
      { memory with
        records := memory.records ++ [record]
        cursor := ⟨memory.journalId, record.sequence, record.digest⟩ })) fun _ => ()

def acknowledgeSequence (m : M) (sequence : Nat) : Journal M Unit := do
  let memory ← memoryOf m
  perform (.remember m (some
    { memory with acknowledgedSequences := sequence :: memory.acknowledgedSequences })) fun _ => ()

def refreshRecord (m : M) (sequence : Nat) : Journal M Unit := do
  let memory ← memoryOf m
  let localRecord ← readFile format.record fun state => (state.recordFiles m).get sequence
  let acknowledged ← remote format.record (.record memory.journalId sequence)
  -- the store goes before the folder, and they may not differ
  match acknowledged.or localRecord with
  | none => throw ()
  | some candidate =>
      if localRecord.any fun found => acknowledged.any fun other => found ≠ other then throw () else
      let prior := memory.records[sequence - 1]?
      if prior.any fun prior => prior ≠ candidate then throw () else
      onlyIf prior.isNone (accept format m candidate)
      onlyIf acknowledged.isNone
        (publish format.record (.record memory.journalId sequence) candidate)
      onlyIf localRecord.isNone (writePrivateJson
        (.writeRecord m sequence (format.record.line candidate)) (format.record.line candidate))
      acknowledgeSequence m sequence

/-- The sequence number of a key of the journal. -/
def sequenceOf (journalId : String) : JournalKey → Option Nat
  | .identity => none
  | .record id sequence => if id = journalId then some sequence else none

def writeHead (m : M) : Journal M Unit := do
  let memory ← memoryOf m
  writePrivateJson (.writeHead m (format.cursor.line memory.cursor))
    (format.cursor.line memory.cursor)

def refresh (m : M) : Journal M Unit := do
  custody
  let memory ← memoryOf m
  call
  let sequences ← read fun state => state.storage.keys.filterMap (sequenceOf memory.journalId)
  call
  let localNames ← read fun state => (state.recordFiles m).entries.rows.map Prod.fst
  if sequences.any fun sequence => sequence < 1 then throw () else
  let retainedHead ← readFile format.cursor fun state => state.headFile m
  if retainedHead.any fun head => head.journalId ≠ memory.journalId then throw () else
  let headSequence := (retainedHead.map ManagerCursor.sequence).getD 0
  -- all records up to the greatest number that is known anywhere
  let maximum := (memory.cursor.sequence :: headSequence :: (sequences ++ localNames)).foldl max 0
  (List.range' 1 maximum).forM (refreshRecord format m)
  let memory ← memoryOf m
  if retainedHead.any fun head => head.sequence ≠ 0 &&
      (memory.records[head.sequence - 1]?).map JournalRecord.digest ≠ some head.digest then throw ()
  else
    writeHead format m
    custody

/-! ### Calls -/

def openIdentity (m : M) : Journal M String := do
  let observed ← remote format.identity .identity
  match ← readFile format.identity fun state => state.identityFile m with
  | some identity => if observed ≠ some identity then throw () else return identity
  | none =>
      let fresh ← outside
      let identity := observed.getD fresh
      if !format.identity.admits identity then throw () else
      publish format.identity .identity identity
      writePrivateJson (.writeIdentity m (format.identity.line identity))
        (format.identity.line identity)
      return identity

/-- `managerJournal`: the manager starts with nothing in memory. -/
def managerJournal (m : M) : Journal M Unit := do
  custody
  let identity ← openIdentity format m
  perform (.remember m (some
    { journalId := identity, records := [], acknowledgedSequences := []
      cursor := ⟨identity, 0, format.hashIdentity identity⟩ })) fun _ => ()
  refresh format m

/-- The record of an account. -/
def JournalMemory.known (memory : JournalMemory) (accountId : String) : Option JournalRecord :=
  memory.records.find? fun record => record.intent.accountId = accountId

def appendRecord (m : M) (intent : AccountPurgeIntent) : Journal M Unit := do
  refresh format m
  let memory ← memoryOf m
  match memory.known intent.accountId with
  | some prior => if prior.intent ≠ intent then throw () else return ()
  | none =>
      let sequence := memory.cursor.sequence + 1
      let previous := memory.cursor.digest
      let record : JournalRecord :=
        { sequence, previous, intent, digest := format.hashBody sequence previous intent }
      -- the folder has the record before the memory and the store do
      writePrivateJson (.writeRecord m sequence (format.record.line record))
        (format.record.line record)
      accept format m record
      writeHead format m
      publish format.record (.record memory.journalId sequence) record
      acknowledgeSequence m sequence
      custody

def append (m : M) (intent : AccountPurgeIntent) : Journal M Unit := do
  if !intent.admitted then throw () else
  let memory ← memoryOf m
  match memory.known intent.accountId with
  | some known =>
      if memory.acknowledgedSequences.contains known.sequence then
        if known.intent ≠ intent then throw () else return ()
      else appendRecord format m intent
  | none => appendRecord format m intent

def JournalRequest.run (m : M) : JournalRequest → Journal M Unit
  | .start => managerJournal format m
  | .refresh => ManagerJournal.refresh format m
  | .append intent => ManagerJournal.append format m intent

end

/-! ### Chains -/

/-- The cursor after the records. -/
def cursorOf (format : JournalFormat) (journalId : String) (records : List JournalRecord) :
    ManagerCursor :=
  match records.getLast? with
  | none => ⟨journalId, 0, format.hashIdentity journalId⟩
  | some record => ⟨journalId, record.sequence, record.digest⟩

/-- Each record has the next number, names the digest before it, has the digest of
its own body, and is about an account of its own. -/
inductive Chain (format : JournalFormat) (journalId : String) : List JournalRecord → Prop
  | nil : Chain format journalId []
  | concat {records : List JournalRecord} {record : JournalRecord} : Chain format journalId records →
      record.sequence = (cursorOf format journalId records).sequence + 1 →
      record.previous = (cursorOf format journalId records).digest →
      format.hashBody record.sequence record.previous record.intent = record.digest →
      record.intent.accountId ∉ records.map (·.intent.accountId) →
      Chain format journalId (records ++ [record])

section

variable {format : JournalFormat} {journalId : String} {records : List JournalRecord}
  {record record' : JournalRecord} {n : Nat}

@[simp] theorem cursorOf_concat :
    cursorOf format journalId (records ++ [record]) = ⟨journalId, record.sequence, record.digest⟩ := by
  rw [cursorOf, List.getLast?_concat]

theorem Chain.cursor_sequence (h : Chain format journalId records) :
    (cursorOf format journalId records).sequence = records.length := by
  induction h with
  | nil => rfl
  | concat hchain hsequence _ _ _ ih =>
      rw [cursorOf_concat, hsequence, ih, List.length_append, List.length_singleton]

theorem Chain.sequence_eq (h : Chain format journalId records) (hget : records[n]? = some record) :
    record.sequence = n + 1 := by
  induction h with
  | nil => cases hget
  | @concat records last hchain hsequence _ _ _ ih =>
      rcases Nat.lt_or_ge n records.length with hlt | hge
      · rw [List.getElem?_append_left hlt] at hget
        exact ih hget
      · rw [List.getElem?_append_right hge, List.getElem?_singleton] at hget
        split_ifs at hget with hn
        obtain rfl := Option.some.inj hget
        rw [hsequence, hchain.cursor_sequence]
        omega

/-! ### What is in the store -/

variable {M : Type} {state state' : JournalState M} {m : M} {memory : JournalMemory}

/-- The object of the key is the document. -/
def Stored {R : Type} (schema : DocumentSchema R) (state : JournalState M) (key : JournalKey)
    (document : R) : Prop :=
  ∃ body, state.storage.get key = some body ∧ schema.parse body = some document

abbrev HasIdentity (format : JournalFormat) (state : JournalState M) (journalId : String) : Prop :=
  Stored format.identity state .identity journalId

/-- The object of a sequence number is the record. -/
abbrev Remote (format : JournalFormat) (state : JournalState M) (journalId : String) (n : Nat)
    (record : JournalRecord) : Prop :=
  Stored format.record state (.record journalId n) record

/-- All of the records are in the store. -/
def Acknowledged (format : JournalFormat) (state : JournalState M) (journalId : String)
    (records : List JournalRecord) : Prop :=
  ∀ k record, records[k]? = some record → Remote format state journalId (k + 1) record

/-- The record goes on the chain that is in the store. -/
def Extension (format : JournalFormat) (state : JournalState M) (journalId : String) (n : Nat)
    (record : JournalRecord) : Prop :=
  HasIdentity format state journalId ∧ ∃ earlier : List JournalRecord, earlier.length + 1 = n ∧
    Chain format journalId (earlier ++ [record]) ∧ Acknowledged format state journalId earlier

theorem Stored.unique {R : Type} {schema : DocumentSchema R} {key : JournalKey} {found other : R}
    (h : Stored schema state key found) (h' : Stored schema state key other) : found = other := by
  obtain ⟨body, hobject, hparse⟩ := h
  obtain ⟨body', hobject', hparse'⟩ := h'
  obtain rfl := Option.some.inj (hobject.symm.trans hobject')
  exact Option.some.inj (hparse.symm.trans hparse')

section

variable (hextends : state.storage.Extends state'.storage)
include hextends

theorem Stored.mono {R : Type} {schema : DocumentSchema R} {key : JournalKey} {found : R}
    (h : Stored schema state key found) : Stored schema state' key found := by
  obtain ⟨body, hobject, hparse⟩ := h
  exact ⟨body, hextends _ _ hobject, hparse⟩

theorem Acknowledged.mono (h : Acknowledged format state journalId records) :
    Acknowledged format state' journalId records :=
  fun k record hget => Stored.mono hextends (h k record hget)

theorem Extension.mono (h : Extension format state journalId n record) :
    Extension format state' journalId n record := by
  obtain ⟨hidentity, earlier, hlength, hchain, hacknowledged⟩ := h
  exact ⟨hidentity.mono hextends, earlier, hlength, hchain, hacknowledged.mono hextends⟩

end

/-- The records that are in the store are determined by their number. -/
theorem Acknowledged.eq {records' : List JournalRecord}
    (h : Acknowledged format state journalId records)
    (h' : Acknowledged format state journalId records') (hlength : records.length = records'.length) :
    records = records' := by
  refine List.ext_getElem hlength fun k hk hk' => ?_
  exact (h k _ (List.getElem?_eq_getElem hk)).unique (h' k _ (List.getElem?_eq_getElem hk'))

/-! ### What the managers keep -/

/-- The memory of a manager is a chain, and all of it but the last record is in the
store. -/
structure Faithful (format : JournalFormat) (state : JournalState M) (memory : JournalMemory) :
    Prop where
  identity : HasIdentity format state memory.journalId
  chain : Chain format memory.journalId memory.records
  cursor : memory.cursor = cursorOf format memory.journalId memory.records
  stored : Acknowledged format state memory.journalId memory.records.dropLast
  acknowledged : ∀ n ∈ memory.acknowledgedSequences, ∃ record,
    memory.records[n - 1]? = some record ∧ Remote format state memory.journalId n record

/-- The text is a record that goes on the chain. -/
def Goes (format : JournalFormat) (state : JournalState M) (journalId : String) (n : Nat)
    (text : Bytes) : Prop :=
  ∃ record, format.record.parse text = some record ∧ Extension format state journalId n record

/-- Every record that is kept anywhere, and every request under way, goes on the
chain. -/
structure Sound (format : JournalFormat) (state : JournalState M) : Prop where
  objects : ∀ {journalId n body}, state.storage.get (.record journalId n) = some body →
    Goes format state journalId n body
  abandoned : ∀ {journalId n body}, (.record journalId n, body) ∈ state.storage.abandoned →
    Goes format state journalId n body
  files : ∀ {m n text record}, (state.recordFiles m).get n = some text →
    format.record.parse text = some record → ∃ journalId, Extension format state journalId n record
  memory : ∀ {m memory}, state.memory m = some memory → Faithful format state memory

theorem Goes.mono {text : Bytes} (hextends : state.storage.Extends state'.storage)
    (h : Goes format state journalId n text) : Goes format state' journalId n text := by
  obtain ⟨record, hparse, hextension⟩ := h
  exact ⟨record, hparse, hextension.mono hextends⟩

theorem Faithful.mono (hextends : state.storage.Extends state'.storage)
    (h : Faithful format state memory) : Faithful format state' memory where
  identity := h.identity.mono hextends
  chain := h.chain
  cursor := h.cursor
  stored := h.stored.mono hextends
  acknowledged n hn := by
    obtain ⟨record, hget, hremote⟩ := h.acknowledged n hn
    exact ⟨record, hget, hremote.mono hextends⟩

/-- What a manager does to the state of the others and to its own. -/
structure JournalState.Keeps (m : M) (state state' : JournalState M) : Prop where
  storage : state.storage.Extends state'.storage
  identityFile : state'.identityFile m = state.identityFile m
  recordFiles : state'.recordFiles m = state.recordFiles m
  headFile : state'.headFile m = state.headFile m
  memory : state'.memory m = state.memory m

theorem JournalState.Keeps.refl (m : M) (state : JournalState M) : state.Keeps m state :=
  ⟨.refl _, rfl, rfl, rfl, rfl⟩

theorem JournalState.Keeps.trans {state'' : JournalState M} (h : state.Keeps m state')
    (h' : state'.Keeps m state'') : state.Keeps m state'' where
  storage := h.storage.trans h'.storage
  identityFile := h'.identityFile.trans h.identityFile
  recordFiles := h'.recordFiles.trans h.recordFiles
  headFile := h'.headFile.trans h.headFile
  memory := h'.memory.trans h.memory

/-- What a manager offers to the store under a key. A record is in its folder before. -/
def Offers (format : JournalFormat) (m : M) (state : JournalState M) (body : Bytes) :
    JournalKey → Prop
  | .identity => True
  | .record journalId n => ∃ record, body = format.record.stringify record ∧
      Extension format state journalId n record ∧
      ∃ text, (state.recordFiles m).get n = some text ∧ format.record.parse text = some record

def JournalOperation.By (format : JournalFormat) (m : M) (state : JournalState M) :
    JournalOperation M → Prop
  | .putIfAbsent key body | .abandon key body => Offers format m state body key
  | .writeIdentity m' _ | .writeHead m' _ => m' = m
  | .writeRecord m' n text => m' = m ∧ (state.recordFiles m).get n = none ∧
      ∃ journalId record, text = format.record.line record ∧
        Extension format state journalId n record
  | .remember m' memory => m' = m ∧ ∀ found, memory = some found → Faithful format state found

/-- A request that is served leaves a sound state. -/
theorem Sound.putIfAbsent (h : Sound format state) {key : JournalKey} {body : Bytes}
    (hbody : ∀ journalId n, key = .record journalId n → Goes format state journalId n body) :
    Sound format { state with storage := state.storage.putIfAbsent key body } := by
  have hextends := WriteOnce.extends_putIfAbsent state.storage key body
  have hgoes : ∀ {journalId n text}, Goes format state journalId n text →
      Goes format { state with storage := state.storage.putIfAbsent key body } journalId n text :=
    fun hgoes => hgoes.mono hextends
  refine ⟨fun {journalId n found} hget => ?_, fun hmem => hgoes (h.abandoned hmem), ?_,
    fun hmemory => (h.memory hmemory).mono hextends⟩
  · rcases WriteOnce.of_putIfAbsent hget with hold | ⟨hkey, rfl, -⟩
    · exact hgoes (h.objects hold)
    · exact hgoes (hbody journalId n hkey.symm)
  · intro m n text record hfile hparse
    obtain ⟨journalId, hextension⟩ := h.files hfile hparse
    exact ⟨journalId, hextension.mono hextends⟩

theorem Offers.goes {key : JournalKey} {body : Bytes} (h : Offers format m state body key)
    {journalId : String} {n : Nat} (hkey : key = .record journalId n) :
    Goes format state journalId n body := by
  subst hkey
  obtain ⟨record, rfl, hextension, text, -, hparse⟩ := h
  exact ⟨record, format.record.parse_stringify record (format.record.admits_of_parse hparse),
    hextension⟩

theorem Offers.keeps {key : JournalKey} {body : Bytes} (h : Offers format m state body key)
    (hkeeps : state.Keeps m state') : Offers format m state' body key := by
  cases key with
  | identity => trivial
  | record journalId n =>
      obtain ⟨record, hbody, hextension, hfile⟩ := h
      exact ⟨record, hbody, hextension.mono hkeeps.storage, by rwa [hkeeps.recordFiles]⟩

variable [DecidableEq M]

def JournalOperation.apply (state : JournalState M) : JournalOperation M → JournalState M
  | .putIfAbsent key body => { state with storage := state.storage.putIfAbsent key body }
  | .abandon key body => { state with storage := state.storage.abandon key body }
  | .writeIdentity m text =>
      { state with identityFile := Function.update state.identityFile m (some text) }
  | .writeRecord m n text =>
      { state with
        recordFiles := Function.update state.recordFiles m ((state.recordFiles m).set n text) }
  | .writeHead m text => { state with headFile := Function.update state.headFile m (some text) }
  | .remember m memory => { state with memory := Function.update state.memory m memory }

theorem JournalOperation.extends_apply (state : JournalState M) (operation : JournalOperation M) :
    state.storage.Extends (operation.apply state).storage := by
  cases operation with
  | putIfAbsent key body => exact WriteOnce.extends_putIfAbsent _ _ _
  | abandon key body => exact WriteOnce.extends_abandon _ _ _
  | _ => exact .refl _

theorem Sound.apply (h : Sound format state) {operation : JournalOperation M}
    (hby : operation.By format m state) : Sound format (operation.apply state) := by
  have hextends := operation.extends_apply state
  have hfaithful : ∀ {m memory}, state.memory m = some memory →
      Faithful format (operation.apply state) memory := fun hmemory => (h.memory hmemory).mono hextends
  cases operation with
  | putIfAbsent key body => exact h.putIfAbsent fun journalId n hkey => Offers.goes hby hkey
  | abandon key body =>
      refine ⟨h.objects, fun {journalId n found} hmem => ?_, h.files, hfaithful⟩
      rcases List.mem_cons.mp hmem with heq | hold
      · obtain ⟨hkey, rfl⟩ := Prod.mk.inj heq
        exact Offers.goes hby hkey.symm
      · exact h.abandoned hold
  | writeIdentity m' text => exact ⟨h.objects, h.abandoned, h.files, hfaithful⟩
  | writeRecord m' n text =>
      obtain ⟨rfl, hnone, journalId, record, rfl, hextension⟩ := hby
      refine ⟨h.objects, h.abandoned, fun {m n' text' found} hfile hparse => ?_, hfaithful⟩
      simp only [JournalOperation.apply, Function.update_apply] at hfile
      split_ifs at hfile with hm
      · rw [JsMap.get_set] at hfile
        split_ifs at hfile with hn
        · obtain rfl := Option.some.inj hfile
          subst hn
          -- what is read back is the record that was written
          obtain ⟨rfl, -⟩ := format.record.of_parse_line hparse
          exact ⟨journalId, hextension⟩
        · exact h.files hfile hparse
      · exact h.files hfile hparse
  | writeHead m' text => exact ⟨h.objects, h.abandoned, h.files, hfaithful⟩
  | remember m' memory =>
      obtain ⟨rfl, hnew⟩ := hby
      refine ⟨h.objects, h.abandoned, h.files, fun {m found} hmemory => ?_⟩
      simp only [JournalOperation.apply, Function.update_apply] at hmemory
      split_ifs at hmemory with hm
      · exact (hnew found hmemory).mono hextends
      · exact hfaithful hmemory

theorem JournalOperation.keeps_other {other : M} {operation : JournalOperation M}
    (hby : operation.By format m state) (hne : m ≠ other) :
    state.Keeps other (operation.apply state) := by
  have hextends := operation.extends_apply state
  cases operation with
  | putIfAbsent key body => exact ⟨hextends, rfl, rfl, rfl, rfl⟩
  | abandon key body => exact ⟨hextends, rfl, rfl, rfl, rfl⟩
  | writeIdentity m' text =>
      obtain rfl := hby
      exact ⟨hextends, Function.update_of_ne hne.symm _ _, rfl, rfl, rfl⟩
  | writeRecord m' n text =>
      obtain ⟨rfl, -⟩ := hby
      exact ⟨hextends, rfl, Function.update_of_ne hne.symm _ _, rfl, rfl⟩
  | writeHead m' text =>
      obtain rfl := hby
      exact ⟨hextends, rfl, rfl, Function.update_of_ne hne.symm _ _, rfl⟩
  | remember m' memory =>
      obtain ⟨rfl, -⟩ := hby
      exact ⟨hextends, rfl, rfl, rfl, Function.update_of_ne hne.symm _ _⟩

variable (format) in
def journalDiscipline : Discipline M (JournalState M) (JournalOperation M) where
  apply := JournalOperation.apply
  invariant := Sound format
  relies := JournalState.Keeps
  guarantees := JournalOperation.By format
  foreign state operation := ∃ key body, operation = .putIfAbsent key body ∧
    (key, body) ∈ state.storage.abandoned
  refl := JournalState.Keeps.refl
  trans := JournalState.Keeps.trans
  keeps h hby := h.apply hby
  keeps_foreign := by
    rintro state operation h ⟨key, body, rfl, hmem⟩
    exact h.putIfAbsent fun journalId n hkey => h.abandoned (hkey ▸ hmem)
  respects hne _ hby := JournalOperation.keeps_other hby hne
  respects_foreign := by
    rintro m state operation - ⟨key, body, rfl, -⟩
    exact ⟨WriteOnce.extends_putIfAbsent _ _ _, rfl, rfl, rfl, rfl⟩

/-! ### Triples -/

variable {R α : Type} {schema : DocumentSchema R} {key : JournalKey} {value : R}
  {post : α → JournalState M → Prop}

theorem ensures_json {f : R → Journal M α} {body : Bytes}
    (h : ∀ document, schema.parse body = some document →
      Ensures (journalDiscipline format) m post (f document) state) :
    Ensures (journalDiscipline format) m post (json schema body >>= f) state := by
  unfold json
  by_cases hlimit : LIMIT < body.length
  · rw [if_pos hlimit]
    exact ensures_throw
  · rw [if_neg hlimit]
    cases hparse : schema.parse body with
    | none => exact ensures_throw
    | some document => exact h document hparse

theorem ensures_memoryOf {f : JournalMemory → Journal M α}
    (h : ∀ state' memory, Sound format state' → state.Keeps m state' →
      state'.memory m = some memory → Ensures (journalDiscipline format) m post (f memory) state') :
    Ensures (journalDiscipline format) m post (memoryOf m >>= f) state := by
  intro state' hsound hkeeps
  refine ⟨fun _ ho => (by cases ho), ?_⟩
  change Ensures _ m post ((match state'.memory m with
    | none => throw ()
    | some memory => pure memory) >>= f) state'
  cases hmemory : state'.memory m with
  | none => exact ensures_throw
  | some memory => exact h state' memory hsound hkeeps hmemory

/-- What `remote` answers is in the store. -/
theorem remote_ensures :
    Ensures (journalDiscipline format) m (fun result state' => state.Keeps m state' ∧
      ∀ document, result = some document → Stored schema state' key document)
      (remote schema key) state := by
  refine ensures_call fun _ => ensures_read fun state₁ _ hkeeps₁ => ?_
  cases hbody : state₁.storage.get key with
  | none =>
      refine ensures_call fun _ => ensures_read fun state₂ _ hkeeps₂ => ?_
      refine ensures_ite (fun _ => ensures_throw) fun _ => ensures_pure fun state₃ _ hkeeps₃ => ?_
      exact ⟨hkeeps₁.trans (hkeeps₂.trans hkeeps₃), fun _ h => by cases h⟩
  | some body =>
      refine ensures_call fun _ => ensures_json fun document hparse =>
        ensures_pure fun state₂ _ hkeeps₂ => ⟨hkeeps₁.trans hkeeps₂, fun found hfound => ?_⟩
      obtain rfl := Option.some.inj hfound
      exact ⟨body, hkeeps₂.storage _ _ hbody, hparse⟩

theorem putIfAbsent_ensures {body : Bytes} (h : Offers format m state body key) :
    Ensures (journalDiscipline format) m (fun _ => state.Keeps m) (putIfAbsent key body) state := by
  refine ensures_outside fun givenUp => ?_
  cases givenUp with
  | true => exact ensures_perform fun state₁ _ hkeeps₁ => ⟨h.keeps hkeeps₁, ensures_throw⟩
  | false =>
      refine ensures_perform fun state₁ _ hkeeps₁ => ⟨h.keeps hkeeps₁, ?_⟩
      refine ensures_last_call fun _ state₂ _ hkeeps₂ => hkeeps₁.trans (.trans ?_ hkeeps₂)
      exact ⟨WriteOnce.extends_putIfAbsent _ _ _, rfl, rfl, rfl, rfl⟩

/-- After `publish` the document is in the store, whoever put it there. -/
theorem publish_ensures [DecidableEq R] (hsound : Sound format state)
    (h : Offers format m state (schema.stringify value) key) :
    Ensures (journalDiscipline format) m (fun _ state' => state.Keeps m state' ∧
      Stored schema state' key value) (publish schema key value) state := by
  refine ensures_bind hsound ((putIfAbsent_ensures h).mono fun _ state₁ hsound₁ hkeeps₁ => ?_)
  refine ensures_bind hsound₁ ((remote_ensures).mono fun result state₂ _ hremote => ?_)
  obtain ⟨hkeeps₂, hstored⟩ := hremote
  cases result with
  | none => exact ensures_throw
  | some found =>
      refine ensures_ite (fun _ => ensures_throw) fun hsame => ensures_pure fun state₃ _ hkeeps₃ => ?_
      obtain rfl := not_not.mp hsame
      exact ⟨hkeeps₁.trans (hkeeps₂.trans hkeeps₃), (hstored found rfl).mono hkeeps₃.storage⟩

/-- What `readFile` answers. -/
def IsFile (schema : DocumentSchema R) (file : Option Bytes) : Option R → Prop
  | none => file = none
  | some document => ∃ text, file = some text ∧ schema.parse text = some document

theorem readFile_ensures {file : JournalState M → Option Bytes}
    (hfile : ∀ state', state.Keeps m state' → file state' = file state) :
    Ensures (journalDiscipline format) m (fun result state' => state.Keeps m state' ∧
      IsFile schema (file state) result) (readFile schema file) state := by
  refine ensures_read fun state₁ _ hkeeps₁ => ?_
  have hsame := hfile state₁ hkeeps₁
  cases htext : file state₁ with
  | none =>
      refine ensures_pure fun state₂ _ hkeeps₂ => ⟨hkeeps₁.trans hkeeps₂, ?_⟩
      exact hsame.symm.trans htext
  | some text =>
      refine ensures_call fun _ => ensures_json fun document hparse =>
        ensures_pure fun state₂ _ hkeeps₂ => ⟨hkeeps₁.trans hkeeps₂, ?_⟩
      exact ⟨text, hsame.symm.trans htext, hparse⟩

/-- The manager did the operation, and nothing else to its own part of the state. -/
def Did (m : M) (operation : JournalOperation M) (state state' : JournalState M) : Prop :=
  ∃ between, state.Keeps m between ∧ (operation.apply between).Keeps m state'

theorem perform_ensures {operation : JournalOperation M}
    (hby : ∀ state', Sound format state' → state.Keeps m state' →
      operation.By format m state') :
    Ensures (journalDiscipline format) m (fun _ => Did m operation state)
      (perform operation fun _ => ()) state := by
  intro state₁ hsound₁ hkeeps₁
  refine ⟨fun o ho => Option.some.inj ho ▸ hby state₁ hsound₁ hkeeps₁, ?_⟩
  exact fun state₂ _ hkeeps₂ _ _ => ⟨state₁, hkeeps₁, hkeeps₂⟩

theorem writePrivateJson_ensures {operation : JournalOperation M} {text : Bytes}
    (hby : ∀ state', Sound format state' → state.Keeps m state' →
      operation.By format m state') :
    Ensures (journalDiscipline format) m (fun _ => Did m operation state)
      (writePrivateJson operation text) state := by
  refine ensures_ite (fun _ => ensures_throw) fun _ => ensures_call fun _ =>
    ensures_perform fun state₁ hsound₁ hkeeps₁ => ⟨hby state₁ hsound₁ hkeeps₁, ?_⟩
  exact ensures_last_call fun _ state₂ _ hkeeps₂ => ⟨state₁, hkeeps₁, hkeeps₂⟩

theorem Did.extends {operation : JournalOperation M} (h : Did m operation state state') :
    state.storage.Extends state'.storage := by
  obtain ⟨between, hbefore, hafter⟩ := h
  exact hbefore.storage.trans ((operation.extends_apply between).trans hafter.storage)

theorem Did.remember {found : Option JournalMemory} (h : Did m (.remember m found) state state') :
    state'.memory m = found ∧ state'.recordFiles m = state.recordFiles m := by
  obtain ⟨between, hbefore, hafter⟩ := h
  exact ⟨hafter.memory.trans (Function.update_self _ _ _),
    hafter.recordFiles.trans hbefore.recordFiles⟩

theorem Did.writeRecord {text : Bytes} (h : Did m (.writeRecord m n text) state state') :
    state'.memory m = state.memory m ∧
      state'.recordFiles m = (state.recordFiles m).set n text := by
  obtain ⟨between, hbefore, hafter⟩ := h
  refine ⟨hafter.memory.trans hbefore.memory, hafter.recordFiles.trans ?_⟩
  rw [← hbefore.recordFiles]
  exact Function.update_self _ _ _

theorem Did.writeIdentity {text : Bytes} (h : Did m (.writeIdentity m text) state state') :
    state'.recordFiles m = state.recordFiles m := by
  obtain ⟨between, hbefore, hafter⟩ := h
  exact hafter.recordFiles.trans hbefore.recordFiles

theorem Did.writeHead {text : Bytes} (h : Did m (.writeHead m text) state state') :
    state'.memory m = state.memory m ∧ state'.recordFiles m = state.recordFiles m := by
  obtain ⟨between, hbefore, hafter⟩ := h
  exact ⟨hafter.memory.trans hbefore.memory, hafter.recordFiles.trans hbefore.recordFiles⟩

theorem Did.after {operation : JournalOperation M} {state'' : JournalState M}
    (hkeeps : state.Keeps m state') (h : Did m operation state' state'') :
    Did m operation state state'' := by
  obtain ⟨between, hbefore, hafter⟩ := h
  exact ⟨between, hkeeps.trans hbefore, hafter⟩

/-! ### Records -/

def JournalMemory.accepted (memory : JournalMemory) (record : JournalRecord) : JournalMemory :=
  { memory with
    records := memory.records ++ [record]
    cursor := ⟨memory.journalId, record.sequence, record.digest⟩ }

def JournalMemory.acknowledging (memory : JournalMemory) (n : Nat) : JournalMemory :=
  { memory with acknowledgedSequences := n :: memory.acknowledgedSequences }

omit [DecidableEq M] in
theorem Faithful.accepted (h : Faithful format state memory)
    (hchain : Chain format memory.journalId (memory.records ++ [record]))
    (hstored : Acknowledged format state memory.journalId memory.records) :
    Faithful format state (memory.accepted record) where
  identity := h.identity
  chain := hchain
  cursor := cursorOf_concat.symm
  stored := by
    rw [JournalMemory.accepted, List.dropLast_concat]
    exact hstored
  acknowledged n hn := by
    obtain ⟨known, hget, hremote⟩ := h.acknowledged n hn
    obtain ⟨hlt, -⟩ := List.getElem?_eq_some_iff.mp hget
    exact ⟨known, (List.getElem?_append_left hlt).trans hget, hremote⟩

omit [DecidableEq M] in
theorem Faithful.acknowledging (h : Faithful format state memory)
    (hget : memory.records[n - 1]? = some record)
    (hremote : Remote format state memory.journalId n record) :
    Faithful format state (memory.acknowledging n) where
  identity := h.identity
  chain := h.chain
  cursor := h.cursor
  stored := h.stored
  acknowledged k hk := by
    rcases List.mem_cons.mp hk with rfl | hold
    · exact ⟨record, hget, hremote⟩
    · exact h.acknowledged k hold

theorem remember_ensures {found : JournalMemory}
    (h : ∀ state', Sound format state' → state.Keeps m state' → Faithful format state' found) :
    Ensures (journalDiscipline format) m (fun _ => Did m (.remember m (some found)) state)
      (perform (.remember m (some found)) fun _ => ()) state := by
  refine perform_ensures fun state' hsound hkeeps => ?_
  refine ⟨rfl, fun other hother => ?_⟩
  obtain rfl := Option.some.inj hother
  exact h state' hsound hkeeps

theorem accept_ensures (hmemory : state.memory m = some memory)
    (hchain : Chain format memory.journalId (memory.records ++ [record]))
    (hstored : Acknowledged format state memory.journalId memory.records) :
    Ensures (journalDiscipline format) m
      (fun _ state' => Did m (.remember m (some (memory.accepted record))) state state' ∧
        format.record.admits record = true)
      (accept format m record) state := by
  refine ensures_ite (fun _ => ensures_throw) fun hadmits => ?_
  refine ensures_memoryOf fun state₁ memory₁ _ hkeeps₁ hmemory₁ => ?_
  obtain rfl := Option.some.inj (hmemory.symm.trans (hkeeps₁.memory.symm.trans hmemory₁))
  refine ensures_ite (fun _ => ensures_throw) fun _ => ?_
  refine (remember_ensures fun state₂ hsound₂ hkeeps₂ => ?_).mono
    fun _ state₃ _ hdid => ⟨hdid.after hkeeps₁, by simpa using hadmits⟩
  exact (hsound₂.memory (hkeeps₂.memory.trans hmemory₁)).accepted hchain
    (hstored.mono (hkeeps₁.trans hkeeps₂).storage)

theorem acknowledgeSequence_ensures (hmemory : state.memory m = some memory)
    (hget : memory.records[n - 1]? = some record)
    (hremote : Remote format state memory.journalId n record) :
    Ensures (journalDiscipline format) m
      (fun _ => Did m (.remember m (some (memory.acknowledging n))) state)
      (acknowledgeSequence m n) state := by
  refine ensures_memoryOf fun state₁ memory₁ _ hkeeps₁ hmemory₁ => ?_
  obtain rfl := Option.some.inj (hmemory.symm.trans (hkeeps₁.memory.symm.trans hmemory₁))
  refine (remember_ensures fun state₂ hsound₂ hkeeps₂ => ?_).mono
    fun _ state₃ _ hdid => hdid.after hkeeps₁
  exact (hsound₂.memory (hkeeps₂.memory.trans hmemory₁)).acknowledging hget
    (hremote.mono (hkeeps₁.trans hkeeps₂).storage)

/-! ### Refreshing one record -/

/-- A chain in memory whose first records are in the store, and the files with them. -/
structure Refreshed (format : JournalFormat) (m : M) (journalId : String) (base : JsMap Nat Bytes)
    (start maximum n : Nat) (state : JournalState M) : Prop where
  memory : ∃ memory, state.memory m = some memory ∧ memory.journalId = journalId ∧
    n ≤ memory.records.length + 1 ∧ memory.records.length ≤ max start (n - 1) ∧
    Acknowledged format state journalId (memory.records.take (n - 1))
  files : ∀ k < n, ∀ text record, (state.recordFiles m).get k = some text →
    format.record.parse text = some record → Remote format state journalId k record
  bounded : ∀ k text, (state.recordFiles m).get k = some text → k ≤ maximum
  kept : ∀ k text, base.get k = some text → (state.recordFiles m).get k = some text

/-- The record that is being refreshed, in memory. -/
structure Candidate (format : JournalFormat) (m : M) (journalId : String) (base : JsMap Nat Bytes)
    (start maximum n : Nat) (candidate : JournalRecord) (state : JournalState M) : Prop where
  memory : ∃ memory, state.memory m = some memory ∧ memory.journalId = journalId ∧
    memory.records[n - 1]? = some candidate ∧ memory.records.length ≤ max start n ∧
    Acknowledged format state journalId (memory.records.take (n - 1))
  extension : Extension format state journalId n candidate
  own : ∀ text record, (state.recordFiles m).get n = some text →
    format.record.parse text = some record → record = candidate
  files : ∀ k < n, ∀ text record, (state.recordFiles m).get k = some text →
    format.record.parse text = some record → Remote format state journalId k record
  bounded : ∀ k text, (state.recordFiles m).get k = some text → k ≤ maximum
  kept : ∀ k text, base.get k = some text → (state.recordFiles m).get k = some text

variable {base : JsMap Nat Bytes} {start maximum : Nat} {candidate : JournalRecord}

omit [DecidableEq M] in
theorem Refreshed.keeps (h : Refreshed format m journalId base start maximum n state)
    (hkeeps : state.Keeps m state') : Refreshed format m journalId base start maximum n state' := by
  obtain ⟨memory, hmemory, hid, hlow, hhigh, hstored⟩ := h.memory
  refine ⟨⟨memory, hkeeps.memory.trans hmemory, hid, hlow, hhigh, hstored.mono hkeeps.storage⟩,
    ?_, ?_, ?_⟩
  · rw [hkeeps.recordFiles]
    exact fun k hk text record hget hparse => (h.files k hk text record hget hparse).mono hkeeps.storage
  · rw [hkeeps.recordFiles]
    exact h.bounded
  · rw [hkeeps.recordFiles]
    exact h.kept

omit [DecidableEq M] in
theorem Candidate.mono (h : Candidate format m journalId base start maximum n candidate state)
    (hextends : state.storage.Extends state'.storage) (hmemory : state'.memory m = state.memory m)
    (hfiles : state'.recordFiles m = state.recordFiles m) :
    Candidate format m journalId base start maximum n candidate state' := by
  obtain ⟨memory, hfound, hid, hget, hhigh, hstored⟩ := h.memory
  refine ⟨⟨memory, hmemory.trans hfound, hid, hget, hhigh, hstored.mono hextends⟩,
    h.extension.mono hextends, ?_, ?_, ?_, ?_⟩
  · rw [hfiles]
    exact h.own
  · rw [hfiles]
    exact fun k hk text record hget hparse => (h.files k hk text record hget hparse).mono hextends
  · rw [hfiles]
    exact h.bounded
  · rw [hfiles]
    exact h.kept

omit [DecidableEq M] in
theorem Candidate.keeps (h : Candidate format m journalId base start maximum n candidate state)
    (hkeeps : state.Keeps m state') :
    Candidate format m journalId base start maximum n candidate state' :=
  h.mono hkeeps.storage hkeeps.memory hkeeps.recordFiles

theorem ensures_onlyIf {condition : Bool} {task : Journal M Unit} {post : Unit → JournalState M → Prop}
    (h : condition = true → Ensures (journalDiscipline format) m post task state)
    (h' : condition = false → ∀ state', state.Keeps m state' → post () state') :
    Ensures (journalDiscipline format) m post (onlyIf condition task) state := by
  unfold onlyIf
  cases condition with
  | true => exact h rfl
  | false => exact ensures_pure fun state' _ hkeeps => h' rfl state' hkeeps

/-- The record goes into memory, unless it is there. -/
theorem acceptNew_ensures (h : Refreshed format m memory.journalId base start maximum n state)
    (hn : 1 ≤ n) (hmemory : state.memory m = some memory)
    (hextension : Extension format state memory.journalId n candidate)
    (hown : ∀ text record, (state.recordFiles m).get n = some text →
      format.record.parse text = some record → record = candidate)
    (hprior : ∀ found, memory.records[n - 1]? = some found → found = candidate) :
    Ensures (journalDiscipline format) m
      (fun _ state' => Candidate format m memory.journalId base start maximum n candidate state' ∧
        state.storage.Extends state'.storage ∧ state'.recordFiles m = state.recordFiles m)
      (onlyIf (memory.records[n - 1]?).isNone (accept format m candidate)) state := by
  obtain ⟨found, hfound, -, hlow, hhigh, hstored⟩ := h.memory
  obtain rfl := Option.some.inj (hmemory.symm.trans hfound)
  refine ensures_onlyIf (fun hnone => ?_) fun hsome state' hkeeps => ?_
  · -- the memory ends before the record: it is the chain that the record goes on
    have hend : memory.records.length + 1 = n := by
      have hge := List.getElem?_eq_none_iff.mp (Option.isNone_iff_eq_none.mp hnone)
      omega
    have hall : memory.records.take (n - 1) = memory.records := List.take_of_length_le (by omega)
    rw [hall] at hstored
    obtain ⟨hidentity, earlier, hlength, hchain, hearlier⟩ := hextension
    obtain rfl := hearlier.eq hstored (by omega)
    refine (accept_ensures hmemory hchain hstored).mono fun _ state' _ haccepted => ?_
    obtain ⟨hdid, -⟩ := haccepted
    obtain ⟨hremembered, hfiles⟩ := hdid.remember
    have hextends := hdid.extends
    have hlast : (memory.accepted candidate).records[n - 1]? = some candidate := by
      rw [JournalMemory.accepted, List.getElem?_append_right (by omega)]
      simp [show n - 1 - memory.records.length = 0 by omega]
    have htake : (memory.accepted candidate).records.take (n - 1) = memory.records := by
      rw [JournalMemory.accepted, List.take_append_of_le_length (by omega), hall]
    refine ⟨⟨⟨_, hremembered, rfl, hlast, ?_, ?_⟩, ?_, ?_, ?_, ?_, ?_⟩, hextends, hfiles⟩
    · rw [JournalMemory.accepted, List.length_append, List.length_singleton]
      omega
    · rw [htake]
      exact hstored.mono hextends
    · exact Extension.mono hextends ⟨hidentity, _, hlength, hchain, hearlier⟩
    · rw [hfiles]
      exact hown
    · rw [hfiles]
      exact fun k hk text record hget hparse => (h.files k hk text record hget hparse).mono hextends
    · rw [hfiles]
      exact h.bounded
    · rw [hfiles]
      exact h.kept
  -- the memory has a record there already, and it is the candidate
  · obtain ⟨found, hget⟩ : ∃ found, memory.records[n - 1]? = some found :=
      Option.ne_none_iff_exists'.mp (Option.isNone_eq_false_iff.mp hsome |> Option.isSome_iff_ne_none.mp)
    obtain rfl := hprior found hget
    refine ⟨Candidate.keeps ⟨⟨memory, hmemory, rfl, hget, ?_, hstored⟩, hextension, hown, h.files,
      h.bounded, h.kept⟩ hkeeps, hkeeps.storage, hkeeps.recordFiles⟩
    omega

/-- The record is published, unless it is in the store. -/
theorem publishNew_ensures (hsound : Sound format state)
    (h : Candidate format m journalId base start maximum n candidate state)
    {acknowledged : Option JournalRecord}
    (hstored : ∀ found, acknowledged = some found → Remote format state journalId n candidate)
    (hdurable : acknowledged = none → ∃ text, (state.recordFiles m).get n = some text ∧
      format.record.parse text = some candidate) :
    Ensures (journalDiscipline format) m
      (fun _ state' => Candidate format m journalId base start maximum n candidate state' ∧
        state'.recordFiles m = state.recordFiles m ∧ Remote format state' journalId n candidate)
      (onlyIf acknowledged.isNone (publish format.record (.record journalId n) candidate))
      state := by
  refine ensures_onlyIf (fun hnone => ?_) fun hsome state' hkeeps => ?_
  · have hoffers : Offers format m state (format.record.stringify candidate)
        (.record journalId n) :=
      ⟨candidate, rfl, h.extension, hdurable (Option.isNone_iff_eq_none.mp hnone)⟩
    refine (publish_ensures hsound hoffers).mono fun _ state' _ hpublish => ?_
    exact ⟨h.keeps hpublish.1, hpublish.1.recordFiles, hpublish.2⟩
  · cases acknowledged with
    | none => cases hsome
    | some found =>
        exact ⟨h.keeps hkeeps, hkeeps.recordFiles, (hstored found rfl).mono hkeeps.storage⟩

/-- The record goes into the folder, unless it is there. -/
theorem writeNew_ensures (h : Candidate format m journalId base start maximum n candidate state)
    (hn : n ≤ maximum) (hremote : Remote format state journalId n candidate)
    {localRecord : Option JournalRecord}
    (hnone : localRecord = none → (state.recordFiles m).get n = none) :
    Ensures (journalDiscipline format) m
      (fun _ state' => Candidate format m journalId base start maximum n candidate state' ∧
        Remote format state' journalId n candidate)
      (onlyIf localRecord.isNone (writePrivateJson
        (.writeRecord m n (format.record.line candidate)) (format.record.line candidate)))
      state := by
  refine ensures_onlyIf (fun hlocal => ?_) fun _ state' hkeeps =>
    ⟨h.keeps hkeeps, hremote.mono hkeeps.storage⟩
  have hfile := hnone (Option.isNone_iff_eq_none.mp hlocal)
  refine (writePrivateJson_ensures fun state' _ hkeeps => ?_).mono fun _ state' _ hdid => ?_
  · refine ⟨rfl, ?_, journalId, candidate, rfl, h.extension.mono hkeeps.storage⟩
    rwa [hkeeps.recordFiles]
  · obtain ⟨hmemory, hfiles⟩ := hdid.writeRecord
    obtain ⟨memory, hfound, hid, hget, hhigh, hstored⟩ := h.memory
    refine ⟨⟨⟨memory, hmemory.trans hfound, hid, hget, hhigh, hstored.mono hdid.extends⟩,
      h.extension.mono hdid.extends, ?_, ?_, ?_, ?_⟩, hremote.mono hdid.extends⟩
    · intro text record htext hparse
      rw [hfiles, JsMap.get_set, if_pos rfl] at htext
      obtain rfl := Option.some.inj htext
      exact (format.record.of_parse_line hparse).1
    · intro k hk text record htext hparse
      rw [hfiles, JsMap.get_set, if_neg (by omega)] at htext
      exact (h.files k hk text record htext hparse).mono hdid.extends
    · intro k text htext
      rw [hfiles, JsMap.get_set] at htext
      split_ifs at htext with hk
      · omega
      · exact h.bounded k text htext
    · intro k text htext
      have hold := h.kept k text htext
      rw [hfiles, JsMap.get_set, if_neg]
      · exact hold
      · rintro rfl
        cases hold.symm.trans hfile

/-- What the source reads of a record in the folder and in the store, once it has
checked that both are the candidate. -/
structure Reads (format : JournalFormat) (m : M) (journalId : String) (n : Nat)
    (localRecord acknowledged : Option JournalRecord) (candidate : JournalRecord)
    (state : JournalState M) : Prop where
  isFile : IsFile format.record ((state.recordFiles m).get n) localRecord
  isStored : ∀ found, acknowledged = some found → Remote format state journalId n found
  read : acknowledged.or localRecord = some candidate
  agree : ∀ found other, localRecord = some found → acknowledged = some other → found = other

variable {localRecord acknowledged : Option JournalRecord}

omit [DecidableEq M] in
theorem Reads.stored (h : Reads format m journalId n localRecord acknowledged candidate state) :
    ∀ found, acknowledged = some found → Remote format state journalId n candidate := by
  rintro found rfl
  obtain rfl : found = candidate := Option.some.inj h.read
  exact h.isStored found rfl

omit [DecidableEq M] in
theorem Reads.own (h : Reads format m journalId n localRecord acknowledged candidate state) :
    ∀ text record, (state.recordFiles m).get n = some text →
      format.record.parse text = some record → record = candidate := by
  intro text record htext hparse
  have hfile := h.isFile
  cases localRecord with
  | none => cases htext.symm.trans hfile
  | some found =>
      obtain ⟨text', htext', hparse'⟩ := hfile
      obtain rfl := Option.some.inj (htext.symm.trans htext')
      obtain rfl := Option.some.inj (hparse.symm.trans hparse')
      cases acknowledged with
      | none => exact Option.some.inj h.read
      | some other => exact (h.agree record other rfl rfl).trans (Option.some.inj h.read)

omit [DecidableEq M] in
theorem Reads.durable (h : Reads format m journalId n localRecord acknowledged candidate state)
    (hnone : acknowledged = none) : ∃ text, (state.recordFiles m).get n = some text ∧
      format.record.parse text = some candidate := by
  have hfile := h.isFile
  rw [show localRecord = some candidate by rw [← h.read, hnone, Option.none_or]] at hfile
  exact hfile

omit [DecidableEq M] in
/-- What is read goes on the chain of the store, wherever it was read. -/
theorem Reads.extension (h : Reads format m journalId n localRecord acknowledged candidate state)
    (hsound : Sound format state) (hidentity : HasIdentity format state journalId) :
    Extension format state journalId n candidate := by
  cases hacknowledged : acknowledged with
  | some found =>
      obtain ⟨body, hbody, hparse⟩ := h.stored found hacknowledged
      obtain ⟨record, hparse', hextension⟩ := hsound.objects hbody
      obtain rfl := Option.some.inj (hparse.symm.trans hparse')
      exact hextension
  | none =>
      -- only the folder has it: it was written there before it was offered
      obtain ⟨text, htext, hparse⟩ := h.durable hacknowledged
      obtain ⟨other, hextension⟩ := hsound.files htext hparse
      rwa [hextension.1.unique hidentity] at hextension

/-- The last step: the record counts as refreshed. -/
theorem Candidate.acknowledge_ensures
    (h : Candidate format m journalId base start maximum n candidate state) (hn : 1 ≤ n)
    (hremote : Remote format state journalId n candidate) :
    Ensures (journalDiscipline format) m
      (fun _ => Refreshed format m journalId base start maximum (n + 1))
      (acknowledgeSequence m n) state := by
  obtain ⟨memory, hmemory, rfl, hget, hhigh, hstored⟩ := h.memory
  refine (acknowledgeSequence_ensures hmemory hget hremote).mono fun _ state' _ hdid => ?_
  obtain ⟨hmemory', hfiles'⟩ := hdid.remember
  obtain ⟨hlt, -⟩ := List.getElem?_eq_some_iff.mp hget
  refine ⟨⟨_, hmemory', rfl, ?_, hhigh, ?_⟩, ?_, ?_, ?_⟩
  · exact Nat.succ_le_succ (by omega : n ≤ memory.records.length)
  · intro k record hrecord
    change (memory.records.take n)[k]? = some record at hrecord
    rw [List.getElem?_take] at hrecord
    split_ifs at hrecord with hk
    rcases Nat.lt_or_ge k (n - 1) with hlow | hlast
    · refine Stored.mono hdid.extends (hstored k record ?_)
      rw [List.getElem?_take, if_pos hlow]
      exact hrecord
    · obtain rfl : k = n - 1 := by omega
      obtain rfl := Option.some.inj (hget.symm.trans hrecord)
      rw [Nat.sub_add_cancel hn]
      exact hremote.mono hdid.extends
  · intro k hk text record htext hparse
    rw [hfiles'] at htext
    rcases Nat.lt_or_ge k n with hlow | hlast
    · exact (h.files k hlow text record htext hparse).mono hdid.extends
    · obtain rfl : k = n := by omega
      rw [h.own text record htext hparse]
      exact hremote.mono hdid.extends
  · rw [hfiles']
    exact h.bounded
  · rw [hfiles']
    exact h.kept

theorem refreshRecord_ensures (h : Refreshed format m journalId base start maximum n state)
    (hn : 1 ≤ n) (hmax : n ≤ maximum) :
    Ensures (journalDiscipline format) m
      (fun _ => Refreshed format m journalId base start maximum (n + 1)) (refreshRecord format m n)
      state := by
  refine ensures_memoryOf fun state₁ memory hsound₁ hkeeps₁ hmemory₁ => ?_
  have h₁ := h.keeps hkeeps₁
  obtain ⟨found, hfound, rfl, -⟩ := h₁.memory
  obtain rfl := Option.some.inj (hmemory₁.symm.trans hfound)
  refine ensures_bind hsound₁ ((readFile_ensures fun state' hkeeps => by
    rw [hkeeps.recordFiles]).mono fun localRecord state₂ hsound₂ hlocal => ?_)
  obtain ⟨hkeeps₂, hlocal⟩ := hlocal
  refine ensures_bind hsound₂ (remote_ensures.mono fun acknowledged state₃ hsound₃ hremote => ?_)
  obtain ⟨hkeeps₃, hremote⟩ := hremote
  have hkeeps := hkeeps₂.trans hkeeps₃
  have h₃ := h₁.keeps hkeeps
  have hmemory₃ := hkeeps.memory.trans hmemory₁
  rw [← hkeeps.recordFiles] at hlocal
  cases hor : acknowledged.or localRecord with
  | none => exact ensures_throw
  | some candidate =>
      refine ensures_ite (fun _ => ensures_throw) fun hagree => ?_
      refine ensures_ite (fun _ => ensures_throw) fun hprior => ?_
      -- the folder and the store agree where both have the record
      have hreads : Reads format m memory.journalId n localRecord acknowledged candidate state₃ := by
        refine ⟨hlocal, hremote, hor, ?_⟩
        rintro found other rfl rfl
        simpa using hagree
      have hextension := hreads.extension hsound₃ (hsound₃.memory hmemory₃).identity
      refine ensures_bind hsound₃ ((acceptNew_ensures h₃ hn hmemory₃ hextension hreads.own
        fun other hother => ?_).mono fun _ state₄ hsound₄ h₄ => ?_)
      · simpa [hother] using hprior
      obtain ⟨h₄, hextends₄, hfiles₄⟩ := h₄
      refine ensures_bind hsound₄ ((publishNew_ensures hsound₄ h₄
        (fun other hother => (hreads.stored other hother).mono hextends₄)
        (by rw [hfiles₄]; exact hreads.durable)).mono fun _ state₅ hsound₅ h₅ => ?_)
      obtain ⟨h₅, hfiles₅, hremote₅⟩ := h₅
      refine ensures_bind hsound₅ ((writeNew_ensures h₅ hmax hremote₅ fun hnone => ?_).mono
        fun _ state₆ hsound₆ h₆ => ?_)
      · rw [hfiles₅, hfiles₄]
        rwa [hnone] at hlocal
      · exact h₆.1.acknowledge_ensures hn h₆.2

/-! ### Refreshing all records -/

theorem le_foldl_max {a : Nat} {l : List Nat} :
    a ≤ l.foldl max a ∧ ∀ x ∈ l, x ≤ l.foldl max a := by
  induction l generalizing a with
  | nil => exact ⟨Nat.le_refl _, fun x hmem => by cases hmem⟩
  | cons y l ih =>
      obtain ⟨hfirst, hrest⟩ := ih (a := max a y)
      refine ⟨(Nat.le_max_left _ _).trans hfirst, fun x hmem => ?_⟩
      rcases List.mem_cons.mp hmem with rfl | hmem
      · exact (Nat.le_max_right _ _).trans hfirst
      · exact hrest x hmem

omit [DecidableEq M] in
theorem Extension.pos (h : Extension format state journalId n record) : 1 ≤ n := by
  obtain ⟨-, earlier, hlength, -⟩ := h
  omega

omit [DecidableEq M] in
theorem Sound.remote_pos (h : Sound format state) (hremote : Remote format state journalId n record) :
    1 ≤ n := by
  obtain ⟨body, hobject, -⟩ := hremote
  obtain ⟨found, -, hextension⟩ := h.objects hobject
  exact hextension.pos

/-- What a refresh that began in `start` leaves: the memory is in the store, it has
all that was in the store, and so has the store all that was in the folder. -/
structure Current (format : JournalFormat) (m : M) (start state : JournalState M)
    (memory : JournalMemory) : Prop where
  remembered : state.memory m = some memory
  stored : Acknowledged format state memory.journalId memory.records
  covers : ∀ n record, Remote format start memory.journalId n record →
    memory.records[n - 1]? = some record
  files : ∀ n text record, (start.recordFiles m).get n = some text →
    format.record.parse text = some record → Remote format state memory.journalId n record
  bounded : ∀ n text, (state.recordFiles m).get n = some text → n ≤ memory.records.length

omit [DecidableEq M] in
theorem Current.mono {start : JournalState M} (h : Current format m start state memory)
    (hextends : state.storage.Extends state'.storage) (hmemory : state'.memory m = state.memory m)
    (hfiles : state'.recordFiles m = state.recordFiles m) :
    Current format m start state' memory where
  remembered := hmemory.trans h.remembered
  stored := h.stored.mono hextends
  covers := h.covers
  files n text record hget hparse := (h.files n text record hget hparse).mono hextends
  bounded := hfiles ▸ h.bounded

omit [DecidableEq M] in
theorem Current.keeps {start : JournalState M} (h : Current format m start state memory)
    (hkeeps : state.Keeps m state') : Current format m start state' memory :=
  h.mono hkeeps.storage hkeeps.memory hkeeps.recordFiles

theorem ensures_extends {task : Journal M α} {start : JournalState M}
    (hstart : start.storage.Extends state.storage)
    (h : Ensures (journalDiscipline format) m post task state) :
    Ensures (journalDiscipline format) m
      (fun a state' => post a state' ∧ start.storage.Extends state'.storage) task state :=
  h.relates (R := fun s s' => s.storage.Extends s'.storage) JournalState.Keeps.storage
    (fun s o => o.extends_apply s) (fun h h' => h.trans h') hstart

theorem custody_ensures :
    Ensures (journalDiscipline format) m (fun _ => state.Keeps m) custody state :=
  ensures_last_call fun _ _ _ hkeeps => hkeeps

theorem writeHead_ensures :
    Ensures (journalDiscipline format) m (fun _ state' => state.storage.Extends state'.storage ∧
      state'.memory m = state.memory m ∧ state'.recordFiles m = state.recordFiles m)
      (writeHead format m) state := by
  refine ensures_memoryOf fun state₁ memory _ hkeeps₁ _ => ?_
  have hby : ∀ state', Sound format state' → state₁.Keeps m state' →
      (JournalOperation.writeHead m (format.cursor.line memory.cursor)).By format m state' :=
    fun _ _ _ => rfl
  refine (writePrivateJson_ensures hby).mono fun _ state₂ _ hdid => ?_
  obtain ⟨hmemory, hfiles⟩ := hdid.writeHead
  exact ⟨hkeeps₁.storage.trans hdid.extends, hmemory.trans hkeeps₁.memory,
    hfiles.trans hkeeps₁.recordFiles⟩

omit [DecidableEq M] in
/-- The records up to the greatest number that is known. -/
theorem Refreshed.current {start : JournalState M} {maximum first : Nat}
    (h : Refreshed format m journalId (start.recordFiles m) first maximum (1 + maximum) state)
    (hsound : Sound format start) (hextends : start.storage.Extends state.storage)
    (hfirst : first ≤ maximum)
    (hstored : ∀ n record, Remote format start journalId n record → n ≤ maximum) :
    ∃ memory, memory.journalId = journalId ∧ Current format m start state memory := by
  obtain ⟨memory, hmemory, rfl, hlow, hhigh, hacknowledged⟩ := h.memory
  have hlength : memory.records.length = maximum := by omega
  rw [List.take_of_length_le (by omega)] at hacknowledged
  refine ⟨memory, rfl, hmemory, hacknowledged, fun n record hremote => ?_,
    fun n text record hget hparse => ?_, fun n text hget => hlength ▸ h.bounded n text hget⟩
  · have hpos := hsound.remote_pos hremote
    have hle := hstored n record hremote
    have hget := List.getElem?_eq_getElem (show n - 1 < memory.records.length by omega)
    have hfound := hacknowledged _ _ hget
    rw [Nat.sub_add_cancel hpos] at hfound
    rw [hget, hfound.unique (hremote.mono hextends)]
  · have hkept := h.kept n text hget
    have hle := h.bounded n text hkept
    exact h.files n (by omega) text record hkept hparse

omit [DecidableEq M] in
theorem Stored.mem_sequences (h : Remote format state journalId n record) :
    n ∈ state.storage.keys.filterMap (sequenceOf journalId) := by
  obtain ⟨body, hobject, -⟩ := h
  exact List.mem_filterMap.mpr ⟨_, WriteOnce.mem_keys.mpr ⟨body, hobject⟩, if_pos rfl⟩

omit [DecidableEq M] in
/-- Before the first record nothing is asked of the memory and the folder. -/
theorem Sound.refreshed (h : Sound format state) (hmemory : state.memory m = some memory)
    {maximum : Nat} (hbounded : ∀ n text, (state.recordFiles m).get n = some text → n ≤ maximum) :
    Refreshed format m memory.journalId (state.recordFiles m) memory.records.length maximum 1
      state where
  memory := by
    refine ⟨memory, hmemory, rfl, Nat.le_add_left _ _, Nat.le_max_left _ _, fun k record hget => ?_⟩
    rw [Nat.sub_self, List.take_zero] at hget
    cases hget
  files k hk text record hget hparse := by
    obtain ⟨_, hextension⟩ := h.files hget hparse
    exact absurd hextension.pos (by omega)
  bounded := hbounded
  kept _ _ hget := hget

theorem refresh_ensures (hmemory : state.memory m = some memory) (hsound : Sound format state) :
    Ensures (journalDiscipline format) m (fun _ state' => ∃ memory',
      memory'.journalId = memory.journalId ∧ Current format m state state' memory')
      (refresh format m) state := by
  refine ensures_call fun _ => ensures_memoryOf fun state₁ found hsound₁ hkeeps₁ hfound => ?_
  obtain rfl := Option.some.inj (hmemory.symm.trans (hkeeps₁.memory.symm.trans hfound))
  refine ensures_call fun _ => ensures_read fun state₂ hsound₂ hkeeps₂ => ?_
  refine ensures_call fun _ => ensures_read fun state₃ hsound₃ hkeeps₃ => ?_
  refine ensures_ite (fun _ => ensures_throw) fun _ => ?_
  refine ensures_bind hsound₃ ((readFile_ensures fun state' hkeeps => by
    rw [hkeeps.headFile]).mono fun retainedHead state₄ hsound₄ hhead => ?_)
  obtain ⟨hkeeps₄, -⟩ := hhead
  refine ensures_ite (fun _ => ensures_throw) fun _ => ?_
  dsimp only
  have hle := (le_foldl_max (a := 0) (l := memory.cursor.sequence ::
    (retainedHead.map ManagerCursor.sequence).getD 0 ::
      (state₂.storage.keys.filterMap (sequenceOf memory.journalId) ++
        (state₃.recordFiles m).entries.rows.map Prod.fst))).2
  -- every number that memory, head, store or folder knows is below this maximum
  generalize List.foldl max 0 _ = maximum at hle ⊢
  have hfirst : memory.records.length ≤ maximum := by
    have hfaithful := hsound.memory hmemory
    rw [← hfaithful.chain.cursor_sequence, ← hfaithful.cursor]
    exact hle _ List.mem_cons_self
  have hkeeps := hkeeps₁.trans (hkeeps₂.trans (hkeeps₃.trans hkeeps₄))
  have hstored : ∀ n record, Remote format state memory.journalId n record → n ≤ maximum := by
    intro n record hremote
    refine hle n (List.mem_cons_of_mem _ (List.mem_cons_of_mem _ (List.mem_append_left _ ?_)))
    exact (hremote.mono (hkeeps₁.trans hkeeps₂).storage).mem_sequences
  have hbounded : ∀ n text, (state₄.recordFiles m).get n = some text → n ≤ maximum := by
    intro n text hget
    rw [hkeeps₄.recordFiles] at hget
    refine hle n (List.mem_cons_of_mem _ (List.mem_cons_of_mem _ (List.mem_append_right _ ?_)))
    exact List.mem_map.mpr ⟨_, JsMap.mem_of_get hget, rfl⟩
  have hrefreshed := hsound₄.refreshed (hkeeps.memory.trans hmemory) hbounded
  rw [hkeeps.recordFiles] at hrefreshed
  -- the invariant of the loop: all records below the counter are refreshed
  have hloop := ensures_forM_range' (n := maximum) hsound₄ hrefreshed
    (fun _ hold hmore => hold.keeps hmore)
    fun k state' _ hlow hhigh hold => refreshRecord_ensures hold hlow (by omega)
  refine ensures_bind hsound₄ ((ensures_extends hkeeps.storage hloop).mono
    fun _ state₅ hsound₅ hlast => ?_)
  obtain ⟨hlast, hextends⟩ := hlast
  obtain ⟨memory', hid, hcurrent⟩ := hlast.current hsound hextends hfirst hstored
  refine ensures_memoryOf fun state₆ _ hsound₆ hkeeps₆ _ => ?_
  refine ensures_ite (fun _ => ensures_throw) fun _ => ?_
  refine ensures_bind hsound₆ (writeHead_ensures.mono fun _ state₇ _ hhead => ?_)
  obtain ⟨hextends₇, hmemory₇, hfiles₇⟩ := hhead
  refine custody_ensures.mono fun _ state₈ _ hkeeps₈ => ⟨memory', hid, ?_⟩
  exact ((hcurrent.keeps hkeeps₆).mono hextends₇ hmemory₇ hfiles₇).keeps hkeeps₈

/-! ### Calls -/

theorem openIdentity_ensures (hsound : Sound format state) :
    Ensures (journalDiscipline format) m (fun journalId state' => HasIdentity format state' journalId ∧
      state.storage.Extends state'.storage ∧ state'.recordFiles m = state.recordFiles m)
      (openIdentity format m) state := by
  refine ensures_bind hsound (remote_ensures.mono fun observed state₁ hsound₁ hremote => ?_)
  obtain ⟨hkeeps₁, hobserved⟩ := hremote
  refine ensures_bind hsound₁ ((readFile_ensures fun state' hkeeps => by
    rw [hkeeps.identityFile]).mono fun file state₂ hsound₂ hfile => ?_)
  obtain ⟨hkeeps₂, -⟩ := hfile
  have hkeeps := hkeeps₁.trans hkeeps₂
  cases file with
  | some identity =>
      refine ensures_ite (fun _ => ensures_throw) fun hsame =>
        ensures_pure fun state₃ _ hkeeps₃ => ?_
      exact ⟨(hobserved identity (not_not.mp hsame)).mono (hkeeps₂.trans hkeeps₃).storage,
        (hkeeps.trans hkeeps₃).storage, (hkeeps.trans hkeeps₃).recordFiles⟩
  | none =>
      refine ensures_outside fun fresh => ensures_ite (fun _ => ensures_throw) fun _ => ?_
      have hoffers : Offers format m state₂ (format.identity.stringify (observed.getD fresh))
          .identity := trivial
      refine ensures_bind hsound₂ ((publish_ensures hsound₂ hoffers).mono
        fun _ state₃ hsound₃ hpublish => ?_)
      obtain ⟨hkeeps₃, hidentity⟩ := hpublish
      have hby : ∀ text state', Sound format state' → state₃.Keeps m state' →
          (JournalOperation.writeIdentity m text).By format m state' := fun _ _ _ _ => rfl
      refine ensures_bind hsound₃ ((writePrivateJson_ensures (hby _)).mono
        fun _ state₄ _ hdid => ensures_pure fun state₅ _ hkeeps₅ => ?_)
      have hextends := hdid.extends.trans hkeeps₅.storage
      exact ⟨hidentity.mono hextends, (hkeeps.trans hkeeps₃).storage.trans hextends,
        hkeeps₅.recordFiles.trans (hdid.writeIdentity.trans (hkeeps.trans hkeeps₃).recordFiles)⟩

omit [DecidableEq M] in
theorem Current.of_start {start start' : JournalState M}
    (h : Current format m start' state memory) (hextends : start.storage.Extends start'.storage)
    (hfiles : start'.recordFiles m = start.recordFiles m) : Current format m start state memory where
  remembered := h.remembered
  stored := h.stored
  covers n record hremote := h.covers n record (hremote.mono hextends)
  files n text record hget := h.files n text record (hfiles ▸ hget)
  bounded := h.bounded

omit [DecidableEq M] in
theorem HasIdentity.faithful (h : HasIdentity format state journalId) :
    Faithful format state
      { journalId, records := [], acknowledgedSequences := []
        cursor := ⟨journalId, 0, format.hashIdentity journalId⟩ } where
  identity := h
  chain := .nil
  cursor := rfl
  stored k record hget := by cases hget
  acknowledged n hn := by cases hn

theorem managerJournal_ensures (hsound : Sound format state) :
    Ensures (journalDiscipline format) m (fun _ state' => ∃ memory,
      Current format m state state' memory) (managerJournal format m) state := by
  refine ensures_bind hsound (custody_ensures.mono fun _ state₁ hsound₁ hkeeps₁ => ?_)
  refine ensures_bind hsound₁ ((openIdentity_ensures hsound₁).mono
    fun identity state₂ hsound₂ hopen => ?_)
  obtain ⟨hidentity, hextends₂, hfiles₂⟩ := hopen
  refine ensures_bind hsound₂ ((remember_ensures fun state' _ hkeeps =>
    HasIdentity.faithful (hidentity.mono hkeeps.storage)).mono fun _ state₃ hsound₃ hdid => ?_)
  obtain ⟨hmemory₃, hfiles₃⟩ := hdid.remember
  refine (refresh_ensures hmemory₃ hsound₃).mono fun _ state₄ _ hrefresh => ?_
  obtain ⟨memory, -, hcurrent⟩ := hrefresh
  exact ⟨memory, hcurrent.of_start (hkeeps₁.storage.trans (hextends₂.trans hdid.extends))
    (hfiles₃.trans (hfiles₂.trans hkeeps₁.recordFiles))⟩

/-- The intent has a record, in memory and in the store. -/
def Appended (format : JournalFormat) (m : M) (intent : AccountPurgeIntent)
    (state : JournalState M) : Prop :=
  ∃ memory n record, state.memory m = some memory ∧ memory.records[n]? = some record ∧
    record.intent = intent ∧ Remote format state memory.journalId (n + 1) record

omit [DecidableEq M] in
theorem Appended.keeps {intent : AccountPurgeIntent} (h : Appended format m intent state)
    (hkeeps : state.Keeps m state') : Appended format m intent state' := by
  obtain ⟨memory, n, record, hmemory, hget, hintent, hremote⟩ := h
  exact ⟨memory, n, record, hkeeps.memory.trans hmemory, hget, hintent, hremote.mono hkeeps.storage⟩

/-- The record that the manager makes of an intent. -/
def JournalMemory.next (format : JournalFormat) (memory : JournalMemory)
    (intent : AccountPurgeIntent) : JournalRecord where
  sequence := memory.cursor.sequence + 1
  previous := memory.cursor.digest
  intent := intent
  digest := format.hashBody (memory.cursor.sequence + 1) memory.cursor.digest intent

omit [DecidableEq M] in
theorem Faithful.chain_next {intent : AccountPurgeIntent} (h : Faithful format state memory)
    (hnone : memory.known intent.accountId = none) :
    Chain format memory.journalId (memory.records ++ [memory.next format intent]) := by
  refine .concat h.chain ?_ ?_ rfl fun hmem => ?_
  · rw [← h.cursor]
    rfl
  · rw [← h.cursor]
    rfl
  · obtain ⟨record, hrecord, haccount⟩ := List.mem_map.mp hmem
    exact List.find?_eq_none.mp hnone record hrecord (decide_eq_true haccount)

omit [DecidableEq M] in
theorem Faithful.sequence_next {intent : AccountPurgeIntent} (h : Faithful format state memory) :
    (memory.next format intent).sequence = memory.records.length + 1 := by
  rw [← h.chain.cursor_sequence, ← h.cursor]
  rfl

omit [DecidableEq M] in
theorem getElem?_accepted : (memory.accepted record).records[memory.records.length]? = some record :=
  List.getElem?_concat_length

/-- The record goes into the folder before it goes anywhere else. -/
theorem appendNext_ensures (hsound : Sound format state) {intent : AccountPurgeIntent}
    {start : JournalState M} (h : Current format m start state memory)
    (hnone : memory.known intent.accountId = none) :
    Ensures (journalDiscipline format) m (fun _ => Appended format m intent)
      (do
        writePrivateJson (.writeRecord m (memory.next format intent).sequence
          (format.record.line (memory.next format intent)))
          (format.record.line (memory.next format intent))
        accept format m (memory.next format intent)
        writeHead format m
        publish format.record (.record memory.journalId (memory.next format intent).sequence)
          (memory.next format intent)
        acknowledgeSequence m (memory.next format intent).sequence
        custody) state := by
  have hfaithful := hsound.memory h.remembered
  have hchain := hfaithful.chain_next hnone
  have hextension : Extension format state memory.journalId (memory.records.length + 1)
      (memory.next format intent) := ⟨hfaithful.identity, _, rfl, hchain, h.stored⟩
  have hget : (memory.accepted (memory.next format intent)).records[memory.records.length]? =
      some (memory.next format intent) := getElem?_accepted
  have hintent : (memory.next format intent).intent = intent := rfl
  rw [hfaithful.sequence_next]
  generalize memory.next format intent = record at hchain hextension hget hintent ⊢
  -- the folder has no record with the next number, so the write is the first one
  have hby : ∀ state', Sound format state' → state.Keeps m state' →
      (JournalOperation.writeRecord m (memory.records.length + 1)
        (format.record.line record)).By format m state' := by
    refine fun state' _ hkeeps => ⟨rfl, ?_, memory.journalId, record, rfl,
      hextension.mono hkeeps.storage⟩
    rw [hkeeps.recordFiles]
    refine Option.eq_none_iff_forall_ne_some.mpr fun text htext => ?_
    exact absurd (h.bounded _ _ htext) (by omega)
  refine ensures_bind hsound ((writePrivateJson_ensures hby).mono fun _ state₁ hsound₁ hwrote => ?_)
  obtain ⟨hmemory₁, hfiles₁⟩ := hwrote.writeRecord
  refine ensures_bind hsound₁ ((accept_ensures (hmemory₁.trans h.remembered) hchain
    (h.stored.mono hwrote.extends)).mono fun _ state₂ hsound₂ haccepted => ?_)
  obtain ⟨hdid, hadmits⟩ := haccepted
  obtain ⟨hmemory₂, hfiles₂⟩ := hdid.remember
  refine ensures_bind hsound₂ (writeHead_ensures.mono fun _ state₃ hsound₃ hhead => ?_)
  obtain ⟨hextends₃, hmemory₃, hfiles₃⟩ := hhead
  have hextends := (hwrote.extends.trans hdid.extends).trans hextends₃
  -- what is published is what the folder has
  have hoffers : Offers format m state₃ (format.record.stringify record)
      (.record memory.journalId (memory.records.length + 1)) := by
    refine ⟨record, rfl, hextension.mono hextends, format.record.line record, ?_,
      format.record.parse_line_admitted hadmits⟩
    rw [hfiles₃, hfiles₂, hfiles₁, JsMap.get_set, if_pos rfl]
  refine ensures_bind hsound₃ ((publish_ensures hsound₃ hoffers).mono
    fun _ state₄ hsound₄ hpublish => ?_)
  obtain ⟨hkeeps₄, hremote⟩ := hpublish
  have hmemory₄ := hkeeps₄.memory.trans (hmemory₃.trans hmemory₂)
  refine ensures_bind hsound₄ ((acknowledgeSequence_ensures hmemory₄ hget hremote).mono
    fun _ state₅ _ hlast => custody_ensures.mono fun _ state₆ _ hkeeps₆ => ?_)
  exact Appended.keeps ⟨_, _, record, hlast.remember.1, hget, hintent,
    hremote.mono hlast.extends⟩ hkeeps₆

theorem appendRecord_ensures (hmemory : state.memory m = some memory) (hsound : Sound format state)
    {intent : AccountPurgeIntent} :
    Ensures (journalDiscipline format) m (fun _ => Appended format m intent)
      (appendRecord format m intent) state := by
  refine ensures_bind hsound ((refresh_ensures hmemory hsound).mono
    fun _ state₁ hsound₁ hrefresh => ?_)
  obtain ⟨memory₁, -, hcurrent₁⟩ := hrefresh
  refine ensures_memoryOf fun state₂ memory₂ hsound₂ hkeeps₂ hmemory₂ => ?_
  have hcurrent := hcurrent₁.keeps hkeeps₂
  obtain rfl := Option.some.inj (hmemory₂.symm.trans hcurrent.remembered)
  cases hknown : memory₂.known intent.accountId with
  | some prior =>
      refine ensures_ite (fun _ => ensures_throw) fun hintent =>
        ensures_pure fun state₃ _ hkeeps₃ => ?_
      obtain ⟨n, hget⟩ := List.mem_iff_getElem?.mp (List.mem_of_find?_eq_some hknown)
      exact Appended.keeps ⟨_, n, prior, hmemory₂, hget, not_not.mp hintent,
        hcurrent.stored n prior hget⟩ hkeeps₃
  | none => exact appendNext_ensures hsound₂ hcurrent hknown

theorem append_ensures {intent : AccountPurgeIntent} :
    Ensures (journalDiscipline format) m (fun _ => Appended format m intent)
      (append format m intent) state := by
  refine ensures_ite (fun _ => ensures_throw) fun _ => ?_
  refine ensures_memoryOf fun state₁ memory hsound₁ _ hmemory₁ => ?_
  cases hknown : memory.known intent.accountId with
  | none => exact appendRecord_ensures hmemory₁ hsound₁
  | some known =>
      refine ensures_ite (fun hacknowledged => ?_) fun _ => appendRecord_ensures hmemory₁ hsound₁
      refine ensures_ite (fun _ => ensures_throw) fun hintent =>
        ensures_pure fun state₂ _ hkeeps₂ => ?_
      have hfaithful := hsound₁.memory hmemory₁
      obtain ⟨n, hget⟩ := List.mem_iff_getElem?.mp (List.mem_of_find?_eq_some hknown)
      obtain ⟨record, hrecord, hremote⟩ :=
        hfaithful.acknowledged _ (List.contains_iff_mem.mp hacknowledged)
      rw [hfaithful.chain.sequence_eq hget] at hrecord hremote
      obtain rfl := Option.some.inj (hget.symm.trans hrecord)
      exact Appended.keeps ⟨_, n, known, hmemory₁, hget, not_not.mp hintent, hremote⟩ hkeeps₂

/-- What a call that returns has done. -/
def JournalRequest.Does (format : JournalFormat) (m : M) (start state : JournalState M) :
    JournalRequest → Prop
  | .start | .refresh => ∃ memory, Current format m start state memory
  | .append intent => Appended format m intent state

omit [DecidableEq M] in
theorem JournalRequest.Does.current {start : JournalState M} {request : JournalRequest}
    (h : request.Does format m start state) (hrequest : request = .start ∨ request = .refresh) :
    ∃ memory, Current format m start state memory := by
  rcases hrequest with rfl | rfl
  · exact h
  · exact h

theorem run_ensures (hsound : Sound format state) (request : JournalRequest) :
    Ensures (journalDiscipline format) m (fun _ state' => request.Does format m state state')
      (request.run format m) state := by
  cases request with
  | start => exact managerJournal_ensures hsound
  | append intent => exact append_ensures
  | refresh =>
      cases hmemory : state.memory m with
      | none =>
          refine ensures_call fun _ => ensures_memoryOf fun state₁ memory _ hkeeps₁ hfound => ?_
          cases (hkeeps₁.memory.trans hmemory).symm.trans hfound
      | some memory =>
          refine (refresh_ensures hmemory hsound).mono fun _ state' _ hrefresh => ?_
          obtain ⟨memory', -, hcurrent⟩ := hrefresh
          exact ⟨memory', hcurrent⟩

end

end PocketCoder.Purge.ManagerJournal
