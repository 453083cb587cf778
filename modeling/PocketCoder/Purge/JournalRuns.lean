import PocketCoder.Foundation.Sha256
import PocketCoder.Purge.ManagerJournal

/-!
The runs of the managers that share a journal: the records that are in the store
are one chain, an account has one record, and no record of a folder is lost.
-/

namespace PocketCoder.Purge.ManagerJournal

open PocketCoder.Foundation PocketCoder.Foundation.Async

/-! ### Documents in JSON -/

/-- The digest of a value. -/
def hash (value : Json) : String := hex (sha256 (utf8 value.stringify))

def identityFields (journalId : String) : List (String × Json) := [("journalId", .str journalId)]

def ofIdentityFields (fields : List (String × Json)) : Option String :=
  match strictObject ["journalId"] fields with
  | some [.str journalId] => some journalId
  | _ => none

def JournalRecord.fields (record : JournalRecord) : List (String × Json) :=
  [("sequence", .num record.sequence), ("previous", .str record.previous),
    ("intent", record.intent.json), ("digest", .str record.digest)]

def JournalRecord.ofFields (fields : List (String × Json)) : Option JournalRecord :=
  match strictObject ["sequence", "previous", "intent", "digest"] fields with
  | some [.num (.ofNat sequence), .str previous, intent, .str digest] =>
    (AccountPurgeIntent.ofJson intent).map fun intent => ⟨sequence, previous, intent, digest⟩
  | _ => none

theorem JournalRecord.ofFields_fields (record : JournalRecord) :
    ofFields record.fields = some record := by
  have hobject : strictObject ["sequence", "previous", "intent", "digest"] record.fields =
      some [.num record.sequence, .str record.previous, record.intent.json, .str record.digest] := rfl
  rw [ofFields, hobject]
  show (AccountPurgeIntent.ofJson record.intent.json).map _ = _
  rw [AccountPurgeIntent.ofJson_json, Option.map_some]

def ManagerCursor.fields (cursor : ManagerCursor) : List (String × Json) :=
  [("journalId", .str cursor.journalId), ("sequence", .num cursor.sequence),
    ("digest", .str cursor.digest)]

def ManagerCursor.ofFields (fields : List (String × Json)) : Option ManagerCursor :=
  match strictObject ["journalId", "sequence", "digest"] fields with
  | some [.str journalId, .num (.ofNat sequence), .str digest] => some ⟨journalId, sequence, digest⟩
  | _ => none

def IdentitySchema : DocumentSchema String :=
  objectSchema isUuid identityFields ofIdentityFields fun _ => rfl

def JournalRecord.admitted (record : JournalRecord) : Bool :=
  0 < record.sequence && isCount record.sequence && isHexDigest record.previous &&
    record.intent.admitted && isHexDigest record.digest

def RecordSchema : DocumentSchema JournalRecord :=
  objectSchema JournalRecord.admitted JournalRecord.fields JournalRecord.ofFields
    JournalRecord.ofFields_fields

def ManagerCursor.admitted (cursor : ManagerCursor) : Bool :=
  isUuid cursor.journalId && isCount cursor.sequence && isHexDigest cursor.digest

theorem ManagerCursor.admitted_of {cursor : ManagerCursor} (hid : isUuid cursor.journalId = true)
    (hsequence : isCount cursor.sequence = true) (hdigest : isHexDigest cursor.digest = true) :
    cursor.admitted = true := by
  rw [admitted, hid, hsequence, hdigest]
  rfl

theorem JournalRecord.admitted_of {record : JournalRecord}
    (hsequence : (decide (0 < record.sequence) && isCount record.sequence) = true)
    (hprevious : isHexDigest record.previous = true) (hintent : record.intent.admitted = true)
    (hdigest : isHexDigest record.digest = true) : record.admitted = true := by
  rw [admitted, hsequence, hprevious, hintent, hdigest]
  rfl

def ManagerCursorSchema : DocumentSchema ManagerCursor :=
  objectSchema ManagerCursor.admitted ManagerCursor.fields ManagerCursor.ofFields fun _ => rfl

def managerJournalFormat : JournalFormat where
  identity := IdentitySchema
  record := RecordSchema
  cursor := ManagerCursorSchema
  hashIdentity journalId :=
    hash (.obj [("format", .str "pocketcoder-manager-journal/v1"), ("journalId", .str journalId)])
  hashBody sequence previous intent :=
    hash (.obj [("sequence", .num sequence), ("previous", .str previous), ("intent", intent.json)])

section

variable {M : Type} [DecidableEq M] {format : JournalFormat} {journalId : String}
  {records : List JournalRecord} {record : JournalRecord} {n : Nat} {state state' : JournalState M}
  {m : M}

section

open Json

theorem length_text_le {s : String} (h : s.toList.length ≤ 64) : (str s).chars.length ≤ 386 := by
  have hquote := length_str_le s.toList
  rw [String.ofList_toList] at hquote
  omega

theorem length_hash (value : Json) : (hash value).toList.length ≤ 64 := by
  rw [hash, length_hex, length_sha256]

theorem isHexDigest_hash (value : Json) : isHexDigest (hash value) = true :=
  isHexDigest_hex (length_sha256 _)

theorem length_identity (h : journalId.toList.length ≤ 64) :
    (IdentitySchema.line journalId).length ≤ LIMIT := by
  refine length_line_le _ _ _ ((length_obj_le _ (length_text_le h) (Nat.le_refl 1)).trans ?_)
  simp only [List.length_cons, List.length_nil]
  omega

theorem length_cursor {cursor : ManagerCursor} (hid : cursor.journalId.toList.length ≤ 64)
    (hsequence : (num cursor.sequence).chars.length ≤ 100)
    (hdigest : cursor.digest.toList.length ≤ 64) :
    (ManagerCursorSchema.line cursor).length ≤ LIMIT := by
  refine length_line_le _ _ _ ((length_obj_le _ (length_text_le hid) (length_fields_le _ hsequence
    (length_fields_le _ (length_text_le hdigest) (Nat.le_refl 1)))).trans ?_)
  simp only [List.length_cons, List.length_nil]
  omega

theorem length_record {record : JournalRecord} (hsequence : (num record.sequence).chars.length ≤ 100)
    (hprevious : record.previous.toList.length ≤ 64)
    (hintent : record.intent.json.chars.length ≤ 10000)
    (hdigest : record.digest.toList.length ≤ 64) :
    (RecordSchema.line record).length ≤ LIMIT := by
  refine length_line_le _ _ _ ((length_obj_le _ hsequence (length_fields_le _ (length_text_le hprevious)
    (length_fields_le _ hintent (length_fields_le _ (length_text_le hdigest)
      (Nat.le_refl 1))))).trans ?_)
  simp only [List.length_cons, List.length_nil]
  omega

end

/-! ### Runs -/

variable (format) in
/-- The steps of the managers. A crash leaves the folders and the store. -/
abbrev JournalStep := Actors.Step (journalDiscipline (M := M) format)
  (JournalRequest.run format) fun m => some (.remember m none)

abbrev JournalSystem (M : Type) := Actors M JournalRequest (JournalState M) (JournalOperation M) Unit

abbrev JournalEvent (M : Type) := ActorEvent M JournalRequest (JournalOperation M) Unit

abbrev Works (format : JournalFormat) (system : JournalSystem M) : Prop :=
  system.Sound (journalDiscipline format) (Actors.Returning fun m request start _ state =>
    request.Does format m start state)

/-- No manager has started, and there are no records. -/
structure Fresh (state : JournalState M) : Prop where
  objects : ∀ journalId n, state.storage.get (.record journalId n) = none
  abandoned : state.storage.abandoned = []
  recordFiles : ∀ m n, (state.recordFiles m).get n = none
  memory : ∀ m, state.memory m = none

omit [DecidableEq M] in
theorem Fresh.sound (h : Fresh state) : Sound format state where
  objects hobject := by cases (h.objects _ _).symm.trans hobject
  abandoned hmem := by
    rw [h.abandoned] at hmem
    cases hmem
  files hfile := by cases (h.recordFiles _ _).symm.trans hfile
  memory hmemory := by cases (h.memory _).symm.trans hmemory

/-- What is in the store and in the folders stays there. -/
def JournalState.Grows (state state' : JournalState M) : Prop :=
  state.storage.Extends state'.storage ∧ ∀ m n text,
    (state.recordFiles m).get n = some text → (state'.recordFiles m).get n = some text

omit [DecidableEq M] in
theorem JournalState.Grows.refl (state : JournalState M) : state.Grows state :=
  ⟨.refl _, fun _ _ _ h => h⟩

omit [DecidableEq M] in
theorem JournalState.Grows.trans {state'' : JournalState M} (h : state.Grows state')
    (h' : state'.Grows state'') : state.Grows state'' :=
  ⟨h.1.trans h'.1, fun m n text hget => h'.2 m n text (h.2 m n text hget)⟩

theorem JournalOperation.By.grows {operation : JournalOperation M}
    (h : operation.By format m state) : state.Grows (operation.apply state) := by
  refine ⟨operation.extends_apply state, fun m' n text hget => ?_⟩
  cases operation with
  | writeRecord other k line =>
      obtain ⟨rfl, hnone, -⟩ := h
      simp only [JournalOperation.apply, Function.update_apply]
      split_ifs with hm
      · subst hm
        rw [JsMap.get_set, if_neg]
        · exact hget
        · rintro rfl
          cases hnone.symm.trans hget
      · exact hget
  | _ => exact hget

variable {system system' : JournalSystem M} {event : JournalEvent M} {events : List (JournalEvent M)}

omit [DecidableEq M] in
theorem loses_by (m : M) (state : JournalState M) (operation : JournalOperation M)
    (h : some (.remember m none) = some operation) : operation.By format m state := by
  obtain rfl := Option.some.inj h
  exact ⟨rfl, fun found hfound => by cases hfound⟩

theorem JournalStep.works (h : Works format system) (hstep : JournalStep format system event system') :
    Works format system' :=
  h.step (fun _ request _ hsound => run_ensures hsound request)
    (fun m s o _ ho => loses_by m s o ho) hstep

theorem JournalStep.allows (h : Works format system)
    (hstep : JournalStep format system event system') :
    Actors.Allows (journalDiscipline format) (Actors.Returning fun m request start _ state =>
      request.Does format m start state) system.state system'.state event :=
  h.allows (fun m s o _ ho => loses_by m s o ho) hstep

theorem JournalStep.grows (h : Works format system)
    (hstep : JournalStep format system event system') : system.state.Grows system'.state := by
  refine (hstep.allows h).relates (R := JournalState.Grows) (.refl _) (fun m o ho => ho.grows) ?_
  rintro operation ⟨key, body, rfl, -⟩
  exact ⟨WriteOnce.extends_putIfAbsent _ _ _, fun _ _ _ hget => hget⟩

theorem JournalStep.run_works (h : Run (JournalStep format) system events system')
    (hworks : Works format system) : Works format system' :=
  h.invariant (fun hstep hs => JournalStep.works hs hstep) hworks

theorem JournalStep.run_grows (h : Run (JournalStep format) system events system')
    (hworks : Works format system) : system.state.Grows system'.state :=
  h.relates (R := fun s s' => s.state.Grows s'.state) (fun _ => .refl _)
    (fun h h' => h.trans h') (fun hstep hs => JournalStep.works hs hstep)
    (fun hstep hs => JournalStep.grows hs hstep) hworks

/-- A call that returns does so in a state where it has done what it should. -/
theorem JournalStep.does {request : JournalRequest} (h : Works format system)
    (hstep : JournalStep format system (.finished m request (.ok ())) system') :
    ∃ call, system.running m = some call ∧ system'.state = system.state ∧
      request.Does format m call.start system.state := by
  cases hstep with
  | finished hrunning =>
      exact ⟨_, hrunning, rfl,
        h.holds hrunning _ h.invariant ((journalDiscipline format).refl _ _) _ rfl⟩

/-- A manager that is idle starts its calls on what there is now. -/
theorem JournalStep.run_startedAfter (h : Run (JournalStep format) system events system')
    (hworks : Works format system) (hidle : system.running m = none) :
    Actors.StartedAfter JournalState.Grows system.state m system' := by
  let Related (u : JournalSystem M) : Prop :=
    Works format u ∧ Actors.StartedAfter JournalState.Grows system.state m u
  have hstep : ∀ {u event u'}, JournalStep format u event u' → Related u → Related u' :=
    fun hstep hu => ⟨JournalStep.works hu.1 hstep,
      hu.2.step (hu.2.1.trans (JournalStep.grows hu.1 hstep)) hstep⟩
  have hfirst : Related system :=
    ⟨hworks, .refl _, fun call hcall => by cases hidle.symm.trans hcall⟩
  exact (h.invariant hstep hfirst).2

/-! ### A manager that is alone -/

section

variable {R : Type} {schema : DocumentSchema R} {key : JournalKey} {value : R} {body : Bytes}
  {memory : JournalMemory} {intent : AccountPurgeIntent}

theorem returns_json (hparse : schema.parse body = some value) (hlength : body.length ≤ LIMIT) :
    (json schema body : Journal M R).Returns JournalOperation.apply state state value := by
  unfold json
  rw [if_neg (Nat.not_lt.mpr hlength), hparse]
  exact returns_pure _ _

theorem returns_remote_none (h : state.storage.get key = none) :
    (remote schema key).Returns JournalOperation.apply state state none := by
  refine returns_bind (returns_call ()) (returns_bind (returns_read _) ?_)
  rw [h]
  refine returns_bind (returns_call ()) (returns_bind (returns_read _) ?_)
  rw [h]
  exact returns_pure _ _

theorem returns_remote (h : state.storage.get key = some body)
    (hparse : schema.parse body = some value) (hlength : body.length ≤ LIMIT) :
    (remote schema key).Returns JournalOperation.apply state state (some value) := by
  refine returns_bind (returns_call ()) (returns_bind (returns_read _) ?_)
  rw [h]
  exact returns_bind (returns_call ()) (returns_bind (returns_json hparse hlength) (returns_pure _ _))

theorem length_stringify_le (h : (schema.line value).length ≤ LIMIT) :
    (schema.stringify value).length ≤ LIMIT := by
  rw [DocumentSchema.line, List.length_append] at h
  omega

/-- The state after an object is put under a key that has none. -/
def JournalState.put (state : JournalState M) (key : JournalKey) (body : Bytes) : JournalState M :=
  { state with storage := state.storage.putIfAbsent key body }

omit [DecidableEq M] in
theorem get_put (h : state.storage.get key = none) :
    (state.put key body).storage.get key = some body := by
  rw [JournalState.put, WriteOnce.get_putIfAbsent, if_pos rfl, h, Option.getD_none]

theorem returns_putIfAbsent (key : JournalKey) (body : Bytes) :
    (putIfAbsent key body).Returns JournalOperation.apply state (state.put key body) () :=
  returns_bind (returns_outside false)
    (returns_bind (returns_perform (JournalOperation.putIfAbsent key body) _) (returns_call ()))

theorem returns_publish [DecidableEq R] (h : state.storage.get key = none)
    (hadmits : schema.admits value = true) (hlength : (schema.line value).length ≤ LIMIT) :
    (publish schema key value).Returns JournalOperation.apply state
      (state.put key (schema.stringify value)) () := by
  refine returns_bind (returns_putIfAbsent key _)
    (returns_bind (returns_remote (get_put h) (schema.parse_stringify value hadmits)
      (length_stringify_le hlength)) ?_)
  simp only [ne_eq, not_true_eq_false, if_false]
  exact returns_pure _ _

theorem returns_readFile_none {file : JournalState M → Option Bytes} (h : file state = none) :
    (readFile schema file).Returns JournalOperation.apply state state none := by
  refine returns_bind (returns_read _) ?_
  rw [h]
  exact returns_pure _ _

theorem returns_readFile {file : JournalState M → Option Bytes} (h : file state = some body)
    (hparse : schema.parse body = some value) (hlength : body.length ≤ LIMIT) :
    (readFile schema file).Returns JournalOperation.apply state state (some value) := by
  refine returns_bind (returns_read _) ?_
  rw [h]
  exact returns_bind (returns_call ()) (returns_bind (returns_json hparse hlength) (returns_pure _ _))

theorem returns_writePrivateJson (operation : JournalOperation M) (hlength : body.length ≤ LIMIT) :
    (writePrivateJson operation body).Returns JournalOperation.apply state (operation.apply state)
      () := by
  unfold writePrivateJson
  rw [if_neg (Nat.not_lt.mpr hlength)]
  exact returns_bind (returns_call ()) (returns_bind (returns_perform operation _) (returns_call ()))

theorem returns_memoryOf (h : state.memory m = some memory) :
    (memoryOf m).Returns JournalOperation.apply state state memory := by
  refine returns_bind (returns_read _) ?_
  rw [h]
  exact returns_pure _ _

theorem returns_writeHead (h : state.memory m = some memory)
    (hlength : (format.cursor.line memory.cursor).length ≤ LIMIT) :
    (writeHead format m).Returns JournalOperation.apply state
      ((JournalOperation.writeHead m (format.cursor.line memory.cursor)).apply state) () :=
  returns_bind (returns_memoryOf h) (returns_writePrivateJson _ hlength)

/-- A head that is not there, or is that of the memory. -/
def HeadOf (format : JournalFormat) (state : JournalState M) (m : M) (cursor : ManagerCursor) : Prop :=
  state.headFile m = none ∨ state.headFile m = some (format.cursor.line cursor)

/-- A refresh that finds no record. -/
theorem returns_refresh (hmemory : state.memory m = some memory) (hcursor : memory.cursor.sequence = 0)
    (hid : memory.cursor.journalId = memory.journalId)
    (hkeys : state.storage.keys.filterMap (sequenceOf memory.journalId) = [])
    (hfiles : state.recordFiles m = .empty) (hhead : HeadOf format state m memory.cursor)
    (hadmits : format.cursor.admits memory.cursor = true)
    (hlength : (format.cursor.line memory.cursor).length ≤ LIMIT) :
    (refresh format m).Returns JournalOperation.apply state
      ((JournalOperation.writeHead m (format.cursor.line memory.cursor)).apply state) () := by
  refine returns_bind (returns_call ()) (returns_bind (returns_memoryOf hmemory) ?_)
  refine returns_bind (returns_call ()) (returns_bind (returns_read _) ?_)
  refine returns_bind (returns_call ()) (returns_bind (returns_read _) ?_)
  rw [hkeys, hfiles]
  refine returns_ite_neg (by decide) ?_
  have hlast := returns_bind (returns_memoryOf hmemory)
    (f := fun _ => writeHead format m >>= fun _ => custody)
    (returns_bind (returns_writeHead hmemory hlength) (returns_call ()))
  have hrest := returns_bind (returns_pure state PUnit.unit) (f := fun _ => memoryOf m >>=
    fun _ => writeHead format m >>= fun _ => custody) hlast
  have hnames : (JsMap.empty : JsMap Nat Bytes).entries.rows.map Prod.fst = [] := rfl
  rcases hhead with hnone | hsome
  · refine returns_bind (returns_readFile_none hnone) ?_
    simpa [hcursor, hnames] using hrest
  · refine returns_bind (returns_readFile hsome (format.cursor.parse_line_admitted hadmits)
      hlength) ?_
    simpa [hcursor, hid, hnames] using hrest

/-- The state before any manager has started. -/
def blank : JournalState M where
  storage := .empty
  identityFile _ := none
  recordFiles _ := .empty
  headFile _ := none
  memory _ := none

/-- The memory of a manager that has found no record. -/
def noRecords (format : JournalFormat) (journalId : String) : JournalMemory where
  journalId := journalId
  records := []
  acknowledgedSequences := []
  cursor := ⟨journalId, 0, format.hashIdentity journalId⟩

/-- The state after the first manager has named the journal. -/
def named (format : JournalFormat) (m : M) (journalId : String) : JournalState M :=
  (JournalOperation.writeIdentity m (format.identity.line journalId)).apply
    (blank.put .identity (format.identity.stringify journalId))

/-- The state after the first manager has started. -/
def started (format : JournalFormat) (m : M) (journalId : String) : JournalState M :=
  (JournalOperation.writeHead m (format.cursor.line (noRecords format journalId).cursor)).apply
    ((JournalOperation.remember m (some (noRecords format journalId))).apply
      (named format m journalId))

theorem returns_openIdentity (hadmits : format.identity.admits journalId = true)
    (h : (format.identity.line journalId).length ≤ LIMIT) :
    (openIdentity format m).Returns JournalOperation.apply blank (named format m journalId)
      journalId :=
  returns_bind (returns_remote_none rfl) (returns_bind (returns_readFile_none rfl)
    (returns_bind (returns_outside journalId) (returns_ite_neg (by simp [hadmits])
      (returns_bind (returns_publish rfl hadmits h)
        (returns_bind (returns_writePrivateJson (.writeIdentity m _) h) (returns_pure _ _))))))

/-- What a manager writes before its first record can be read again. -/
structure Starts (format : JournalFormat) (journalId : String) : Prop where
  identity : format.identity.admits journalId = true
  identity_length : (format.identity.line journalId).length ≤ LIMIT
  cursor : format.cursor.admits (noRecords format journalId).cursor = true
  cursor_length : (format.cursor.line (noRecords format journalId).cursor).length ≤ LIMIT

theorem returns_start (h : Starts format journalId) :
    (managerJournal format m).Returns JournalOperation.apply blank (started format m journalId) () := by
  refine returns_bind (returns_call ()) (returns_bind (returns_openIdentity h.identity
    h.identity_length) (returns_bind (returns_perform _ _) ?_))
  have hmemory : ((JournalOperation.remember m (some (noRecords format journalId))).apply
      (named format m journalId)).memory m = some (noRecords format journalId) :=
    Function.update_self _ _ _
  exact returns_refresh hmemory rfl rfl rfl rfl (.inl rfl) h.cursor h.cursor_length

/-- The first record of a journal. -/
def firstRecord (format : JournalFormat) (journalId : String) (intent : AccountPurgeIntent) :
    JournalRecord :=
  (noRecords format journalId).next format intent

theorem returns_accept (hmemory : state.memory m = some memory)
    (hadmits : format.record.admits (memory.next format intent) = true) :
    (accept format m (memory.next format intent)).Returns JournalOperation.apply state
      ((JournalOperation.remember m (some (memory.accepted (memory.next format intent)))).apply state)
      () := by
  refine returns_ite_neg (by simp [hadmits])
    (returns_bind (returns_memoryOf hmemory) (returns_ite_neg ?_ (returns_perform _ _)))
  simp [JournalMemory.next]

/-- The state after the first record is accepted. -/
def accepted (format : JournalFormat) (m : M) (journalId : String) (intent : AccountPurgeIntent) :
    JournalState M :=
  (JournalOperation.remember m (some ((noRecords format journalId).accepted
    (firstRecord format journalId intent)))).apply
    ((JournalOperation.writeRecord m 1 (format.record.line (firstRecord format journalId intent))).apply
      (started format m journalId))

/-- The state after the first record is published. -/
def published (format : JournalFormat) (m : M) (journalId : String) (intent : AccountPurgeIntent) :
    JournalState M :=
  ((JournalOperation.writeHead m (format.cursor.line ((noRecords format journalId).accepted
    (firstRecord format journalId intent)).cursor)).apply (accepted format m journalId intent)).put
    (.record journalId 1) (format.record.stringify (firstRecord format journalId intent))

/-- The memory of a manager that has published the first record. -/
def oneRecord (format : JournalFormat) (journalId : String) (intent : AccountPurgeIntent) :
    JournalMemory :=
  ((noRecords format journalId).accepted (firstRecord format journalId intent)).acknowledging 1

/-- The state after the first append has returned. -/
def appended (format : JournalFormat) (m : M) (journalId : String) (intent : AccountPurgeIntent) :
    JournalState M :=
  (JournalOperation.remember m (some (oneRecord format journalId intent))).apply
    (published format m journalId intent)

/-- What a manager writes of its first record can be read again. -/
structure Records (format : JournalFormat) (journalId : String) (intent : AccountPurgeIntent) :
    Prop where
  admitted : intent.admitted = true
  record : format.record.admits (firstRecord format journalId intent) = true
  record_length : (format.record.line (firstRecord format journalId intent)).length ≤ LIMIT
  cursor_length : (format.cursor.line ((noRecords format journalId).accepted
    (firstRecord format journalId intent)).cursor).length ≤ LIMIT

/-- The first record goes into the folder, into memory and into the store. -/
theorem returns_append (hstarts : Starts format journalId) (h : Records format journalId intent) :
    (append format m intent).Returns JournalOperation.apply (started format m journalId)
      (appended format m journalId intent) () := by
  have hmemory : (started format m journalId).memory m = some (noRecords format journalId) :=
    Function.update_self _ _ _
  have hheadFile : HeadOf format (started format m journalId) m (noRecords format journalId).cursor :=
    .inr (Function.update_self _ _ _)
  have hrefresh := returns_refresh hmemory rfl rfl rfl rfl hheadFile hstarts.cursor
    hstarts.cursor_length
  have hsame : (JournalOperation.writeHead m (format.cursor.line
      (noRecords format journalId).cursor)).apply (started format m journalId) =
        started format m journalId := by
    simp only [started, JournalOperation.apply, Function.update_idem]
  rw [hsame] at hrefresh
  have hwrote : ((JournalOperation.writeRecord m 1 (format.record.line
      (firstRecord format journalId intent))).apply (started format m journalId)).memory m =
        some (noRecords format journalId) := hmemory
  have haccepted : (accepted format m journalId intent).memory m =
      some ((noRecords format journalId).accepted (firstRecord format journalId intent)) :=
    Function.update_self _ _ _
  have hnone : ((JournalOperation.writeHead m (format.cursor.line ((noRecords format journalId).accepted
      (firstRecord format journalId intent)).cursor)).apply
        (accepted format m journalId intent)).storage.get (.record journalId 1) = none := rfl
  refine returns_ite_neg (by simp [h.admitted]) (returns_bind (returns_memoryOf hmemory)
    (returns_bind hrefresh (returns_bind (returns_memoryOf hmemory) ?_)))
  refine returns_bind (returns_writePrivateJson
    (.writeRecord m 1 (format.record.line (firstRecord format journalId intent)))
      h.record_length) ?_
  refine returns_bind (returns_accept hwrote h.record)
    (returns_bind (returns_writeHead haccepted h.cursor_length)
      (returns_bind (returns_publish hnone h.record h.record_length) ?_))
  refine returns_bind (returns_bind (returns_memoryOf (Function.update_self _ _ _))
    (returns_perform _ _)) (returns_call ())

/-- A record that is in the folder, in memory and in the store. -/
theorem returns_refreshRecord (hmemory : state.memory m = some memory)
    (hfile : (state.recordFiles m).get n = some (format.record.line record))
    (hobject : state.storage.get (.record memory.journalId n) =
      some (format.record.stringify record))
    (hprior : memory.records[n - 1]? = some record) (hadmits : format.record.admits record = true)
    (hlength : (format.record.line record).length ≤ LIMIT) :
    (refreshRecord format m n).Returns JournalOperation.apply state
      ((JournalOperation.remember m (some (memory.acknowledging n))).apply state) () := by
  refine returns_bind (returns_memoryOf hmemory) (returns_bind (returns_readFile hfile
    (format.record.parse_line_admitted hadmits) hlength) (returns_bind (returns_remote hobject
      (format.record.parse_stringify record hadmits) (length_stringify_le hlength)) ?_))
  refine returns_ite_neg (by simp) ?_
  rw [hprior]
  refine returns_ite_neg (by simp) ?_
  refine returns_bind (returns_pure _ ()) (returns_bind (returns_pure _ ())
    (returns_bind (returns_pure _ ()) ?_))
  exact returns_bind (returns_memoryOf hmemory) (returns_perform _ _)

/-- A refresh after the first append. -/
theorem returns_refresh_appended (h : Records format journalId intent)
    (hcursor : format.cursor.admits (oneRecord format journalId intent).cursor = true) :
    (refresh format m).Returns JournalOperation.apply (appended format m journalId intent)
      ((JournalOperation.writeHead m
          (format.cursor.line (oneRecord format journalId intent).cursor)).apply
        ((JournalOperation.remember m
            (some ((oneRecord format journalId intent).acknowledging 1))).apply
          (appended format m journalId intent))) () := by
  have hmemory : (appended format m journalId intent).memory m =
      some (oneRecord format journalId intent) := Function.update_self _ _ _
  have hkeys : (appended format m journalId intent).storage.keys.filterMap
      (sequenceOf journalId) = [1] := by
    show [JournalKey.identity, .record journalId 1].filterMap (sequenceOf journalId) = [1]
    have hkey : sequenceOf journalId (.record journalId 1) = some 1 := if_pos rfl
    rw [List.filterMap_cons_none rfl, List.filterMap_cons_some hkey, List.filterMap_nil]
  have hfile : (appended format m journalId intent).recordFiles m =
      JsMap.set .empty 1 (format.record.line (firstRecord format journalId intent)) :=
    Function.update_self _ _ _
  have hhead : (appended format m journalId intent).headFile m =
      some (format.cursor.line (oneRecord format journalId intent).cursor) :=
    Function.update_self _ _ _
  have hnone : ((JournalOperation.writeHead m (format.cursor.line ((noRecords format journalId).accepted
      (firstRecord format journalId intent)).cursor)).apply
        (accepted format m journalId intent)).storage.get (.record journalId 1) = none := rfl
  have hobject : (appended format m journalId intent).storage.get (.record journalId 1) =
      some (format.record.stringify (firstRecord format journalId intent)) := get_put hnone
  have hrecord := returns_refreshRecord (n := 1) hmemory
    (by rw [hfile, JsMap.get_set, if_pos rfl]) hobject rfl h.record h.record_length
  refine returns_bind (returns_call ()) (returns_bind (returns_memoryOf hmemory) ?_)
  refine returns_bind (returns_call ()) (returns_bind (returns_read _) ?_)
  refine returns_bind (returns_call ()) (returns_bind (returns_read _) ?_)
  rw [show (oneRecord format journalId intent).journalId = journalId from rfl, hkeys, hfile]
  refine returns_ite_neg (by decide) (returns_bind (returns_readFile hhead
    (format.cursor.parse_line_admitted hcursor) h.cursor_length) ?_)
  refine returns_ite_neg (by simp [oneRecord, JournalMemory.acknowledging,
    JournalMemory.accepted, noRecords]) ?_
  refine returns_bind (returns_bind hrecord (returns_pure _ ())) ?_
  refine returns_bind (returns_memoryOf (Function.update_self _ _ _)) (returns_ite_neg ?_ ?_)
  · simp [oneRecord, JournalMemory.acknowledging, JournalMemory.accepted, noRecords, firstRecord,
      JournalMemory.next]
  · exact returns_bind (returns_writeHead (Function.update_self _ _ _) h.cursor_length)
      (returns_call ())

omit [DecidableEq M] in
theorem recordFiles_published [DecidableEq M] :
    ((published format m journalId intent).recordFiles m).get 1 =
      some (format.record.line (firstRecord format journalId intent)) := by
  have hfiles : (published format m journalId intent).recordFiles m =
      JsMap.set .empty 1 (format.record.line (firstRecord format journalId intent)) :=
    Function.update_self _ _ _
  rw [hfiles, JsMap.get_set, if_pos rfl]

end

/-! ### One append -/

def sampleId : String := "00000000-0000-4000-8000-000000000009"

def sampleIntent : AccountPurgeIntent where
  accountId := "00000000-0000-4000-8000-000000000001"
  operationId := "00000000-0000-4000-8000-000000000002"
  createRequestDigest := .ofList (List.replicate 64 'a')
  purgeRequestDigest := .ofList (List.replicate 64 'b')
  admittedAt := "2026-01-01T00:00:00.000Z"

abbrev sampleAppended : JournalEvent Bool := .finished false (.append sampleIntent) (.ok ())

section

open Json

theorem length_sampleIntent : sampleIntent.json.chars.length ≤ 10000 := by
  refine (length_obj_le _ (length_str_le _) (length_fields_le _ (length_str_le _)
    (length_fields_le _ (length_str_le _) (length_fields_le _ (length_str_le _)
    (length_fields_le _ (length_str_le _) (length_fields_le _ (length_str_le _)
      (Nat.le_refl 1))))))).trans ?_
  simp only [List.length_cons, List.length_nil, List.length_replicate]
  omega

end

omit [DecidableEq M] in
theorem fresh_blank : Fresh (blank : JournalState M) :=
  ⟨fun _ _ => rfl, rfl, fun _ _ => rfl, fun _ => rfl⟩

theorem sampleStarts : Starts managerJournalFormat sampleId where
  identity := by decide
  identity_length := length_identity (by decide)
  cursor := @ManagerCursor.admitted_of (noRecords managerJournalFormat sampleId).cursor
    (show isUuid sampleId = true by decide) (show isCount 0 = true by decide) (isHexDigest_hash _)
  cursor_length := @length_cursor (noRecords managerJournalFormat sampleId).cursor (by decide)
    (by decide) (length_hash _)

theorem sampleRecords : Records managerJournalFormat sampleId sampleIntent where
  admitted := by decide
  record := @JournalRecord.admitted_of (firstRecord managerJournalFormat sampleId sampleIntent)
    (show (decide (0 < 1) && isCount 1) = true by decide) (isHexDigest_hash _)
    (show sampleIntent.admitted = true by decide) (isHexDigest_hash _)
  record_length := @length_record (firstRecord managerJournalFormat sampleId sampleIntent)
    (by decide) (length_hash _) length_sampleIntent (length_hash _)
  cursor_length := @length_cursor ((noRecords managerJournalFormat sampleId).accepted
    (firstRecord managerJournalFormat sampleId sampleIntent)).cursor (by decide) (by decide)
    (length_hash _)

theorem sampleCursor : managerJournalFormat.cursor.admits
    (oneRecord managerJournalFormat sampleId sampleIntent).cursor = true :=
  @ManagerCursor.admitted_of (oneRecord managerJournalFormat sampleId sampleIntent).cursor
    (show isUuid sampleId = true by decide) (show isCount 1 = true by decide) (isHexDigest_hash _)

/-- A manager starts, appends the first record, and refreshes. -/
theorem sampleRun : ∃ (events : List (JournalEvent Bool)) (system : JournalSystem Bool),
    Run (JournalStep managerJournalFormat) (Actors.initial blank) events system ∧
      sampleAppended ∈ events ∧ (system.state.recordFiles false).get 1 =
        some (managerJournalFormat.record.line
          (firstRecord managerJournalFormat sampleId sampleIntent)) ∧
      ∃ (others : List (JournalEvent Bool)) (last : JournalSystem Bool),
        Run (JournalStep managerJournalFormat) system
          (others ++ [.finished false .refresh (.ok ())]) last := by
  obtain ⟨first, hfirst⟩ := Actors.Step.run_call (journalDiscipline managerJournalFormat)
    (JournalRequest.run managerJournalFormat) (fun m => some (.remember m none))
    (Actors.initial blank) false .start rfl (returns_start sampleStarts)
  obtain ⟨second, hsecond⟩ := Actors.Step.run_call (journalDiscipline managerJournalFormat)
    (JournalRequest.run managerJournalFormat) (fun m => some (.remember m none))
    ⟨started managerJournalFormat false sampleId, fun _ => none⟩ false (.append sampleIntent) rfl
    (returns_append sampleStarts sampleRecords)
  obtain ⟨third, hthird⟩ := Actors.Step.run_call (journalDiscipline managerJournalFormat)
    (JournalRequest.run managerJournalFormat) (fun m => some (.remember m none))
    ⟨appended managerJournalFormat false sampleId sampleIntent, fun _ => none⟩ false .refresh rfl
    (returns_refresh_appended sampleRecords sampleCursor)
  exact ⟨_, _, hfirst.append hsecond,
    List.mem_append_right _ (List.mem_cons_of_mem _ (List.mem_append_right _ List.mem_cons_self)),
    recordFiles_published, _ :: third, _, hthird⟩

/-! ### The chain -/

/-- The records of the store are these, under the numbers from one on. -/
structure Holds (format : JournalFormat) (state : JournalState M) (journalId : String)
    (records : List JournalRecord) : Prop where
  stored : Acknowledged format state journalId records
  only : ∀ n body, state.storage.get (.record journalId n) = some body →
    1 ≤ n ∧ n ≤ records.length

omit [DecidableEq M] in
/-- The record with the greatest number has all others before it. -/
theorem Sound.holds (h : Sound format state) (journalId : String) :
    ∃ records, Chain format journalId records ∧ Holds format state journalId records := by
  have hmem : ∀ n body, state.storage.get (.record journalId n) = some body →
      n ∈ state.storage.keys.filterMap (sequenceOf journalId) := fun n body hobject =>
    List.mem_filterMap.mpr ⟨_, WriteOnce.mem_keys.mpr ⟨body, hobject⟩, if_pos rfl⟩
  cases hmax : (state.storage.keys.filterMap (sequenceOf journalId)).max? with
  | none =>
      have hnil := List.max?_eq_none_iff.mp hmax
      refine ⟨[], .nil, fun k record hget => (by cases hget), fun n body hobject => ?_⟩
      have hn := hmem n body hobject
      rw [hnil] at hn
      cases hn
  | some last =>
      obtain ⟨hlast, hbound⟩ := List.max?_eq_some_iff.mp hmax
      obtain ⟨key, hkey, hsequence⟩ := List.mem_filterMap.mp hlast
      cases key with
      | identity => cases hsequence
      | record id n =>
          rw [sequenceOf] at hsequence
          split_ifs at hsequence with hid
          obtain rfl := Option.some.inj hsequence
          subst hid
          obtain ⟨body, hobject⟩ := WriteOnce.mem_keys.mp hkey
          obtain ⟨record, hparse, hextension⟩ := h.objects hobject
          obtain ⟨-, earlier, hlength, hchain, hstored⟩ := hextension
          refine ⟨_, hchain, fun k found hget => ?_, fun k text htext => ⟨?_, ?_⟩⟩
          -- the record itself, or one of those that it extends
          · rcases Nat.lt_or_ge k earlier.length with hlt | hge
            · rw [List.getElem?_append_left hlt] at hget
              exact hstored k found hget
            · rw [List.getElem?_append_right hge, List.getElem?_singleton] at hget
              split_ifs at hget with hk
              obtain rfl := Option.some.inj hget
              rw [show k + 1 = n by omega]
              exact ⟨body, hobject, hparse⟩
          · obtain ⟨found, -, hfound⟩ := h.objects htext
            exact hfound.pos
          · rw [List.length_append, List.length_singleton, hlength]
            exact hbound k (hmem k text htext)

omit [DecidableEq M] in
/-- Whatever records of the journal are in the store are a part of it. -/
theorem Holds.prefix (h : Holds format state journalId records) {earlier : List JournalRecord}
    (hstored : Acknowledged format state journalId earlier) : earlier <+: records := by
  have hle : earlier.length ≤ records.length := by
    rcases earlier.eq_nil_or_concat' with rfl | ⟨before, last, rfl⟩
    · exact Nat.zero_le _
    · obtain ⟨body, hobject, -⟩ := hstored before.length last List.getElem?_concat_length
      rw [List.length_append, List.length_singleton]
      exact (h.only _ body hobject).2
  have htake : Acknowledged format state journalId (records.take earlier.length) := by
    intro k record hget
    rw [List.getElem?_take] at hget
    split_ifs at hget
    exact h.stored k record hget
  rw [hstored.eq htake (by rw [List.length_take, Nat.min_eq_left hle])]
  exact List.take_prefix _ _

/-- The records of the store are a chain without gaps whatever the managers do,
and the chain only grows. All managers follow one journal, and what a manager has
in memory is on the chain but for the last record. -/
theorem journal_chain {start : JournalState M} (hfresh : Fresh start)
    {before after : List (JournalEvent M)}
    (hbefore : Run (JournalStep format) (Actors.initial start) before system)
    (hafter : Run (JournalStep format) system after system') (journalId : String) :
    ∃ records records', Chain format journalId records ∧ Chain format journalId records' ∧
      Holds format system.state journalId records ∧ Holds format system'.state journalId records' ∧
      records <+: records' ∧
      (records' ≠ [] → HasIdentity format system'.state journalId) ∧
      ∀ m memory, system'.state.memory m = some memory →
        HasIdentity format system'.state memory.journalId ∧
          (memory.journalId = journalId → memory.records.dropLast <+: records') := by
  have hworks : Works format system :=
    JournalStep.run_works hbefore (Actors.initial_sound hfresh.sound)
  have hworks' := JournalStep.run_works hafter hworks
  obtain ⟨records, hchain, hholds⟩ := hworks.invariant.holds journalId
  obtain ⟨records', hchain', hholds'⟩ := hworks'.invariant.holds journalId
  have hgrows := JournalStep.run_grows hafter hworks
  refine ⟨records, records', hchain, hchain', hholds, hholds', ?_, fun hne => ?_,
    fun m memory hmemory => ?_⟩
  · exact hholds'.prefix (hholds.stored.mono hgrows.1)
  · obtain ⟨record, hmem⟩ := List.exists_mem_of_ne_nil _ hne
    obtain ⟨n, hget⟩ := List.mem_iff_getElem?.mp hmem
    obtain ⟨body, hobject, -⟩ := hholds'.stored n record hget
    obtain ⟨found, -, hextension⟩ := hworks'.invariant.objects hobject
    exact hextension.1
  · have hfaithful := hworks'.invariant.memory hmemory
    refine ⟨hfaithful.identity, fun hid => hholds'.prefix ?_⟩
    rw [← hid]
    exact hfaithful.stored

theorem journal_chain_appended : ∃ (events : List (JournalEvent Bool)) (system : JournalSystem Bool),
    Run (JournalStep managerJournalFormat) (Actors.initial blank) events system ∧
    sampleAppended ∈ events ∧ ∃ records, Chain managerJournalFormat sampleId records ∧
      Holds managerJournalFormat system.state sampleId records := by
  obtain ⟨events, system, hrun, hmem, -⟩ := sampleRun
  obtain ⟨records, -, hchain, -, hholds, -⟩ := journal_chain fresh_blank hrun (.nil system) sampleId
  exact ⟨events, system, hrun, hmem, records, hchain, hholds⟩

/-! ### Appends -/

omit [DecidableEq M] in
theorem Holds.get (h : Holds format state journalId records)
    (hremote : Remote format state journalId (n + 1) record) : records[n]? = some record := by
  obtain ⟨body, hobject, hparse⟩ := hremote
  have hle := (h.only _ body hobject).2
  have hget := List.getElem?_eq_getElem (show n < records.length by omega)
  rw [hget, (h.stored n _ hget).unique ⟨body, hobject, hparse⟩]

theorem Chain.nodup (h : Chain format journalId records) :
    (records.map (·.intent.accountId)).Nodup := by
  induction h with
  | nil => exact List.nodup_nil
  | concat _ _ _ _ hnew ih =>
      rw [List.map_append, List.map_singleton]
      exact ih.append (List.nodup_singleton _) (List.disjoint_singleton.mpr hnew)

/-- The intent has a record in the store. -/
def Recorded (format : JournalFormat) (state : JournalState M) (intent : AccountPurgeIntent) : Prop :=
  ∃ journalId n record, HasIdentity format state journalId ∧ record.intent = intent ∧
    Remote format state journalId (n + 1) record

omit [DecidableEq M] in
theorem Recorded.mono {intent : AccountPurgeIntent} (h : Recorded format state intent)
    (hextends : state.storage.Extends state'.storage) : Recorded format state' intent := by
  obtain ⟨journalId, n, record, hidentity, hintent, hremote⟩ := h
  exact ⟨journalId, n, record, hidentity.mono hextends, hintent, hremote.mono hextends⟩

omit [DecidableEq M] in
theorem Sound.recorded {intent : AccountPurgeIntent} (hsound : Sound format state)
    (h : Appended format m intent state) : Recorded format state intent := by
  obtain ⟨memory, n, record, hmemory, -, hintent, hremote⟩ := h
  exact ⟨_, n, record, (hsound.memory hmemory).identity, hintent, hremote⟩

omit [DecidableEq M] in
/-- An account has one record. -/
theorem Sound.recorded_unique {intent intent' : AccountPurgeIntent} (hsound : Sound format state)
    (h : Recorded format state intent) (h' : Recorded format state intent')
    (haccount : intent'.accountId = intent.accountId) : intent' = intent := by
  obtain ⟨journalId, n, record, hidentity, rfl, hremote⟩ := h
  obtain ⟨journalId', n', record', hidentity', rfl, hremote'⟩ := h'
  obtain rfl := hidentity.unique hidentity'
  obtain ⟨records, hchain, hholds⟩ := hsound.holds journalId
  exact congrArg _ (List.inj_on_of_nodup_map hchain.nodup
    (List.mem_of_getElem? (hholds.get hremote')) (List.mem_of_getElem? (hholds.get hremote)) haccount)

/-- An append that returned is the only one for its account that ever does, by
whichever manager. Its record has its place for good: a manager that was idle has
it there after its next start or refresh. -/
theorem appends_agree {start : JournalState M} (hfresh : Fresh start)
    {before : List (JournalEvent M)} {intent : AccountPurgeIntent}
    (hbefore : Run (JournalStep format) (Actors.initial start) before system)
    (hreturned : .finished m (.append intent) (.ok ()) ∈ before) :
    ∃ (n : Nat) (record : JournalRecord), record.intent = intent ∧
      ∀ {after : List (JournalEvent M)} {system' : JournalSystem M},
      Run (JournalStep format) system after system' →
      (∀ m' intent', .finished m' (.append intent') (.ok ()) ∈ before ++ after →
        intent'.accountId = intent.accountId → intent' = intent) ∧
      ∀ m' request next, system.running m' = none →
      JournalStep format system' (.finished m' request (.ok ())) next →
      request = .start ∨ request = .refresh →
      ∃ memory, next.state.memory m' = some memory ∧ memory.records[n]? = some record := by
  have hinitial : Works format (Actors.initial start) := Actors.initial_sound hfresh.sound
  have hworks := JournalStep.run_works hbefore hinitial
  -- from the step that returned the record is in the store, where it stays
  have hrecorded : ∀ {m' : M} {intent' : AccountPurgeIntent} {u : JournalSystem M}
      {events : List (JournalEvent M)}, Run (JournalStep format) (Actors.initial start) events u →
      .finished m' (.append intent') (.ok ()) ∈ events → Recorded format u.state intent' := by
    intro m' intent' u events hrun hmem
    obtain ⟨bs, cs, t, t', hto, hstep, hfrom⟩ := hrun.of_mem hmem
    have ht := JournalStep.run_works hto hinitial
    obtain ⟨call, -, -, hdoes⟩ := hstep.does ht
    exact (ht.invariant.recorded hdoes).mono ((hstep.grows ht).trans
      (JournalStep.run_grows hfrom (hstep.works ht))).1
  have hfirst := hrecorded hbefore hreturned
  obtain ⟨journalId, n, record, hidentity, hintent, hremote⟩ := hrecorded hbefore hreturned
  refine ⟨n, record, hintent, fun {after system'} hafter => ⟨fun m' intent' hmem haccount => ?_,
    fun m' request next hidle hstep hrequest => ?_⟩⟩
  · exact (JournalStep.run_works hafter hworks).invariant.recorded_unique
      (hfirst.mono (JournalStep.run_grows hafter hworks).1)
      (hrecorded (hbefore.append hafter) hmem) haccount
  · have hworks' := JournalStep.run_works hafter hworks
    obtain ⟨call, hrunning, hsame, hdoes⟩ := hstep.does hworks'
    have hstarted := (JournalStep.run_startedAfter hafter hworks hidle).2 call hrunning
    obtain ⟨memory, hcurrent⟩ := hdoes.current hrequest
    refine ⟨memory, hsame ▸ hcurrent.remembered, hcurrent.covers (n + 1) record ?_⟩
    have hfaithful := hworks'.invariant.memory hcurrent.remembered
    -- one journal only: both managers have its identity
    rw [hfaithful.identity.unique (hidentity.mono (JournalStep.run_grows hafter hworks).1)]
    exact hremote.mono hstarted.1

theorem appends_agree_appended : ∃ (events : List (JournalEvent Bool)) (system : JournalSystem Bool)
    (n : Nat) (record : JournalRecord),
    Run (JournalStep managerJournalFormat) (Actors.initial blank) events system ∧
    sampleAppended ∈ events ∧ record.intent = sampleIntent ∧
    (∀ m intent, .finished m (.append intent) (.ok ()) ∈ events →
      intent.accountId = sampleIntent.accountId → intent = sampleIntent) ∧
    ∀ m next, system.running m = none →
      JournalStep managerJournalFormat system (.finished m .refresh (.ok ())) next →
      ∃ memory, next.state.memory m = some memory ∧ memory.records[n]? = some record := by
  obtain ⟨events, system, hrun, hmem, -⟩ := sampleRun
  obtain ⟨n, record, hintent, hagree⟩ := appends_agree fresh_blank hrun hmem
  obtain ⟨hunique, hplace⟩ := hagree (.nil system)
  rw [List.append_nil] at hunique
  exact ⟨events, system, n, record, hrun, hmem, hintent, hunique,
    fun m next hidle hstep => hplace m .refresh next hidle hstep (.inr rfl)⟩

/-! ### Folders -/

/-- What an operation offers to the store. -/
def JournalOperation.offers : JournalOperation M → Option (JournalKey × Bytes)
  | .putIfAbsent key body | .abandon key body => some (key, body)
  | .writeIdentity _ _ | .writeRecord _ _ _ | .writeHead _ _ | .remember _ _ => none

/-- A record in a folder stays there. A manager offers the store no record but
those of its folder, and after its next start or refresh all of them are in the
store, also those that it had not offered before a crash. -/
theorem journal_durable {start : JournalState M} (hfresh : Fresh start)
    {before after : List (JournalEvent M)}
    (hbefore : Run (JournalStep format) (Actors.initial start) before system)
    (hafter : Run (JournalStep format) system after system') :
    (∀ m n text, (system.state.recordFiles m).get n = some text →
      (system'.state.recordFiles m).get n = some text) ∧
    (∀ m operation next journalId n body, JournalStep format system' (.acted m (some operation)) next →
      operation.offers = some (.record journalId n, body) →
      ∃ text record, (system'.state.recordFiles m).get n = some text ∧
        format.record.parse text = some record ∧ body = format.record.stringify record) ∧
    ∀ m request next, system.running m = none →
      JournalStep format system' (.finished m request (.ok ())) next →
      request = .start ∨ request = .refresh → ∃ journalId, HasIdentity format next.state journalId ∧
        ∀ n text record, (system.state.recordFiles m).get n = some text →
          format.record.parse text = some record → Remote format next.state journalId n record := by
  have hworks : Works format system :=
    JournalStep.run_works hbefore (Actors.initial_sound hfresh.sound)
  have hworks' := JournalStep.run_works hafter hworks
  refine ⟨(JournalStep.run_grows hafter hworks).2, ?_, ?_⟩
  · intro m operation next journalId n body hstep hoffers
    have hby := (hstep.allows hworks').1 operation rfl
    -- an offer is allowed only for what the manager's own folder has
    have hfile : ∀ {key : JournalKey} {found : Bytes}, Offers format m system'.state found key →
        some (key, found) = some (.record journalId n, body) →
        ∃ text record, (system'.state.recordFiles m).get n = some text ∧
          format.record.parse text = some record ∧ body = format.record.stringify record := by
      intro key found hoffer hsame
      obtain ⟨rfl, rfl⟩ := Prod.mk.inj (Option.some.inj hsame)
      obtain ⟨record, hbody, -, text, htext, hparse⟩ := hoffer
      exact ⟨text, record, htext, hparse, hbody⟩
    cases operation with
    | putIfAbsent key found => exact hfile hby hoffers
    | abandon key found => exact hfile hby hoffers
    | writeIdentity m' text => cases hoffers
    | writeRecord m' k text => cases hoffers
    | writeHead m' text => cases hoffers
    | remember m' memory => cases hoffers
  · intro m request next hidle hstep hrequest
    obtain ⟨call, hrunning, hsame, hdoes⟩ := hstep.does hworks'
    -- the call began after the record was in the folder, so it has read it
    have hstarted := (JournalStep.run_startedAfter hafter hworks hidle).2 call hrunning
    obtain ⟨memory, hcurrent⟩ := hdoes.current hrequest
    rw [hsame]
    exact ⟨memory.journalId, (hworks'.invariant.memory hcurrent.remembered).identity,
      fun n text record hget hparse => hcurrent.files n text record (hstarted.2 m n text hget) hparse⟩

/-- The first record is in the folder, also after a crash. -/
theorem journal_durable_appended : ∃ (before after : List (JournalEvent Bool))
    (system system' : JournalSystem Bool) (text : Bytes) (record : JournalRecord),
    Run (JournalStep managerJournalFormat) (Actors.initial blank) before system ∧
    sampleAppended ∈ before ∧ (system.state.recordFiles false).get 1 = some text ∧
    Run (JournalStep managerJournalFormat) system after system' ∧ .crashed false ∈ after ∧
    (system'.state.recordFiles false).get 1 = some text ∧
    managerJournalFormat.record.parse text = some record ∧ record.intent = sampleIntent := by
  obtain ⟨events, system, hrun, hmem, hfile, -⟩ := sampleRun
  obtain ⟨system', hcrash⟩ : ∃ system', JournalStep managerJournalFormat system (.crashed false)
    system' := ⟨_, .crashed⟩
  exact ⟨events, [.crashed false], system, system', _, _, hrun, hmem, hfile, .single hcrash,
    List.mem_cons_self, (journal_durable fresh_blank hrun (.single hcrash)).1 false 1 _ hfile,
    managerJournalFormat.record.parse_line_admitted sampleRecords.record, rfl⟩

/-! ### One agreed chain -/

/-- The record that a call which returned has under a number: a start and a refresh
have all of the memory, and an append has the record of its intent. -/
def JournalRequest.Has (m : M) (state : JournalState M) (n : Nat) (record : JournalRecord)
    (request : JournalRequest) : Prop :=
  (∃ memory, state.memory m = some memory ∧ memory.records[n]? = some record) ∧
    ∀ intent, request = .append intent → record.intent = intent

/-- What a call that returned has is in the store. -/
theorem JournalStep.has {request : JournalRequest} (hworks : Works format system)
    (hstep : JournalStep format system (.finished m request (.ok ())) system')
    (h : request.Has m system.state n record) :
    ∃ journalId, HasIdentity format system.state journalId ∧
      Remote format system.state journalId (n + 1) record := by
  obtain ⟨⟨memory, hmemory, hget⟩, hintent⟩ := h
  have hfaithful := hworks.invariant.memory hmemory
  obtain ⟨call, -, -, hdoes⟩ := hstep.does hworks
  refine ⟨memory.journalId, hfaithful.identity, ?_⟩
  have hcurrent : ∀ {found}, Current format m call.start system.state found →
      Remote format system.state memory.journalId (n + 1) record := by
    intro found hfound
    obtain rfl := Option.some.inj (hmemory.symm.trans hfound.remembered)
    exact hfound.stored n record hget
  cases request with
  | start => exact hcurrent hdoes.choose_spec
  | refresh => exact hcurrent hdoes.choose_spec
  | append intent =>
      obtain ⟨found, k, other, hfound, hother, rfl, hremote⟩ := hdoes
      obtain rfl := Option.some.inj (hmemory.symm.trans hfound)
      have hsame : other = record := List.inj_on_of_nodup_map hfaithful.chain.nodup
        (List.mem_of_getElem? hother) (List.mem_of_getElem? hget)
        (congrArg _ (hintent _ rfl).symm)
      subst hsame
      have hk := hfaithful.chain.sequence_eq hother
      rw [hfaithful.chain.sequence_eq hget] at hk
      rwa [hk]

/-- The journal is one chain. Calls that returned do not differ in the record of a
number; the record of an append that returned has its number for good; and a record
that a manager has in its folder is in the store after its next refresh. -/
theorem journal_agreed {start : JournalState M} (hfresh : Fresh start)
    (hrun : Run (JournalStep format) (Actors.initial start) events system) :
    (∀ journalId, ∃ records, Chain format journalId records ∧
      Holds format system.state journalId records ∧ (records.map (·.intent.accountId)).Nodup) ∧
    (∀ {m request next}, JournalStep format system (.finished m request (.ok ())) next →
      (∀ {n record}, request.Has m system.state n record →
        ∀ {after : List (JournalEvent M)} {system' next' : JournalSystem M} {m' request' record'},
          Run (JournalStep format) next after system' →
          JournalStep format system' (.finished m' request' (.ok ())) next' →
          request'.Has m' system'.state n record' → record' = record) ∧
      ∀ intent, request = .append intent → ∃ n record, record.intent = intent ∧
        record.sequence = n + 1 ∧ request.Has m system.state n record ∧
        ∀ {after : List (JournalEvent M)} {system' next' : JournalSystem M} {m' request'},
          Run (JournalStep format) next after system' → next.running m' = none →
          JournalStep format system' (.finished m' request' (.ok ())) next' →
          request' = .start ∨ request' = .refresh → request'.Has m' system'.state n record) ∧
    ∀ {m n text record}, (system.state.recordFiles m).get n = some text →
      format.record.parse text = some record → system.running m = none →
      ∀ {after : List (JournalEvent M)} {system' next' : JournalSystem M} {request},
        Run (JournalStep format) system after system' →
        JournalStep format system' (.finished m request (.ok ())) next' →
        request = .start ∨ request = .refresh → ∃ journalId,
          HasIdentity format system'.state journalId ∧
            Remote format system'.state journalId n record := by
  have hworks : Works format system := JournalStep.run_works hrun (Actors.initial_sound hfresh.sound)
  refine ⟨fun journalId => ?_, fun {m request next} hstep => ⟨fun {n record} hhas => ?_,
    fun intent hrequest => ?_⟩, fun {m n text record} hfile hparse hidle => ?_⟩
  · obtain ⟨records, hchain, hholds⟩ := hworks.invariant.holds journalId
    exact ⟨records, hchain, hholds, hchain.nodup⟩
  -- both records are in the store under one key, which is written once
  · intro after system' next' m' request' record' hafter hstep' hhas'
    obtain ⟨journalId, hidentity, hremote⟩ := hstep.has hworks hhas
    have hnext := hstep.works hworks
    obtain ⟨journalId', hidentity', hremote'⟩ := hstep'.has (JournalStep.run_works hafter hnext) hhas'
    have hextends := ((hstep.grows hworks).trans (JournalStep.run_grows hafter hnext)).1
    obtain rfl := hidentity'.unique (hidentity.mono hextends)
    exact hremote'.unique (hremote.mono hextends)
  · subst hrequest
    obtain ⟨call, -, hsame, memory, n, record, hmemory, hget, hintent, hremote⟩ := hstep.does hworks
    have hfaithful := hworks.invariant.memory hmemory
    refine ⟨n, record, hintent, hfaithful.chain.sequence_eq hget,
      ⟨⟨memory, hmemory, hget⟩, fun intent' h => ?_⟩, ?_⟩
    · rw [hintent, JournalRequest.append.inj h]
    · intro after system' next' m' request' hafter hidle hstep' hrequest'
      have hnext := hstep.works hworks
      have hworks' := JournalStep.run_works hafter hnext
      obtain ⟨call', hrunning, -, hdoes⟩ := hstep'.does hworks'
      have hstarted := (JournalStep.run_startedAfter hafter hnext hidle).2 call' hrunning
      obtain ⟨memory', hcurrent⟩ := hdoes.current hrequest'
      refine ⟨⟨memory', hcurrent.remembered, hcurrent.covers (n + 1) record ?_⟩, ?_⟩
      · have hidentity := (hworks'.invariant.memory hcurrent.remembered).identity
        rw [hidentity.unique (hfaithful.identity.mono ((hstep.grows hworks).trans
          (JournalStep.run_grows hafter hnext)).1)]
        exact hremote.mono ((hstep.grows hworks).trans hstarted).1
      · intro intent' h
        rcases hrequest' with rfl | rfl <;> cases h
  · intro after system' next' request hafter hstep hrequest
    have hworks' := JournalStep.run_works hafter hworks
    obtain ⟨call, hrunning, -, hdoes⟩ := hstep.does hworks'
    have hstarted := (JournalStep.run_startedAfter hafter hworks hidle).2 call hrunning
    obtain ⟨memory, hcurrent⟩ := hdoes.current hrequest
    exact ⟨memory.journalId, (hworks'.invariant.memory hcurrent.remembered).identity,
      hcurrent.files n text record (hstarted.2 m n text hfile) hparse⟩

/-- A manager that has appended a record finds it in its place when it refreshes. -/
theorem journal_agreed_refreshed : ∃ (before after : List (JournalEvent Bool))
    (system next system' next' : JournalSystem Bool) (n : Nat) (record : JournalRecord),
    Run (JournalStep managerJournalFormat) (Actors.initial blank) before system ∧
    JournalStep managerJournalFormat system sampleAppended next ∧
    Run (JournalStep managerJournalFormat) next after system' ∧
    JournalStep managerJournalFormat system' (.finished false .refresh (.ok ())) next' ∧
    record.intent = sampleIntent ∧ record.sequence = n + 1 ∧
    JournalRequest.refresh.Has false system'.state n record := by
  obtain ⟨events, system, hrun, hmem, -, others, last, hrefresh⟩ := sampleRun
  obtain ⟨before, between, t, t', hbefore, hstep, hbetween⟩ := hrun.of_mem hmem
  obtain ⟨after, _, u, u', hafter, hstep', -⟩ :=
    hrefresh.of_mem (List.mem_append_right _ List.mem_cons_self)
  obtain ⟨-, hcalls, -⟩ := journal_agreed fresh_blank hbefore
  obtain ⟨n, record, hintent, hsequence, -, hlater⟩ := (hcalls hstep).2 sampleIntent rfl
  have hrest := hbetween.append hafter
  exact ⟨before, _, t, t', u, u', n, record, hbefore, hstep, hrest, hstep', hintent, hsequence,
    hlater hrest hstep.idle hstep' (.inr rfl)⟩

end

end PocketCoder.Purge.ManagerJournal
