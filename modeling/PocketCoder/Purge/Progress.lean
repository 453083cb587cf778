import PocketCoder.Foundation.Actors
import PocketCoder.Foundation.WriteOnce
import PocketCoder.Purge.Documents

/-!
Receipts of the progress of account purges (`manager/src/purge/progress.ts`),
for one stage and target: what a stage did is a record in the object store,
written once, and a private file of each manager that knows it.

Managers share nothing but the object store. Each works on the calls for one
account in turn, may crash, and may give up a request that the store serves
later. A record that one call returned is what every later call returns.
-/

namespace PocketCoder.Purge

open PocketCoder.Foundation PocketCoder.Foundation.Async

/-- A record, without what its schema fixes: the format, the stage and the target. -/
structure Receipt (T : Type) where
  intent : AccountPurgeIntent
  recordedAt : String
  payload : T
  deriving DecidableEq

/-- The schema of the records, with the one of their payloads. -/
structure ReceiptSchema (T : Type) extends DocumentSchema (Receipt T) where
  payload : T → Bool

/-- The calls of a manager for one account, which `own` puts one after the other. -/
structure Lane (M : Type) where
  manager : M
  accountId : String
  deriving DecidableEq

/-- The objects of the accounts, and the private files of the managers. -/
structure ProgressState (M : Type) where
  storage : WriteOnce String Bytes
  files : Lane M → Option Bytes

inductive ProgressOperation (M : Type)
  | putIfAbsent (accountId : String) (body : Bytes)
  | abandon (accountId : String) (body : Bytes)
  | writePrivateJson (lane : Lane M) (text : Bytes)

inductive ProgressRequest (T : Type)
  | retain (intent : AccountPurgeIntent) (payload : T)
  | read (intent : AccountPurgeIntent)
  | acknowledge (intent : AccountPurgeIntent)

section

variable {M T : Type} [DecidableEq T] (schema : ReceiptSchema T)

abbrev Progress (M α : Type) := Async (ProgressState M) (ProgressOperation M) α

/-! ### Files and objects -/

/-- The checks of the folder, which may throw. -/
def custody : Progress M Unit := call

def bound (body : Bytes) (intent : AccountPurgeIntent) : Progress M (Receipt T) :=
  match schema.parse body with
  | none => throw ()
  | some record => if record.intent ≠ intent then throw () else return record

def localRecord (lane : Lane M) (intent : AccountPurgeIntent) :
    Progress M (Option (Receipt T)) := do
  custody
  call
  match ← read (ProgressState.files · lane) with
  | none => return none
  | some text =>
      if LIMIT < text.length then throw () else
      call
      -- the file is measured and then read: it may be another one by then
      match ← read (ProgressState.files · lane) with
      | none => throw ()
      | some text =>
          if LIMIT < text.length then throw () else
          let record ← bound schema text intent
          custody
          return some record

/-- The file is replaced by a rename; it may be replaced and the call still throw. -/
def writePrivateJson (lane : Lane M) (record : Receipt T) : Progress M Unit := do
  let text := schema.line record
  if LIMIT < text.length then throw () else
  call
  let _ ← perform (.writePrivateJson lane text) fun _ => ()
  call

def persist (lane : Lane M) (record : Receipt T) : Progress M Unit := do
  let prior ← localRecord schema lane record.intent
  if prior.any fun prior => prior.payload ≠ record.payload then throw () else
  call
  writePrivateJson schema lane record
  custody

/-- A request for the object. There is one version of it. -/
def getObject (lane : Lane M) : Progress M (Option Bytes) := do
  call
  let body ← read fun state => state.storage.get lane.accountId
  call
  return body

def remote (lane : Lane M) (intent : AccountPurgeIntent) : Progress M (Option (Receipt T)) := do
  custody
  match ← getObject lane with
  | none => return none
  | some body =>
      call
      if LIMIT < body.length then throw () else
      let latest ← bound schema body intent
      -- the version that was seen is read once more
      match ← getObject lane with
      | none => throw ()
      | some body =>
          if LIMIT < body.length then throw () else
          let version ← bound schema body intent
          if latest ≠ version then throw () else
          custody
          return some version

/-- `putIfAbsent`, which is false for the status 412. A request that takes too
long is given up. -/
def putIfAbsent (lane : Lane M) (body : Bytes) : Progress M Bool := do
  let givenUp : Bool ← outside
  if givenUp then
    let _ ← perform (.abandon lane.accountId body) fun _ => ()
    throw ()
  else
    let present ← perform (.putIfAbsent lane.accountId body) fun state =>
      (state.storage.get lane.accountId).isSome
    call
    return !present

def publish (lane : Lane M) (proposed : Receipt T) : Progress M (Receipt T) := do
  persist schema lane proposed
  if ← putIfAbsent lane (schema.stringify proposed) then
    match ← getObject lane with
    | none => throw ()
    | some body =>
        if LIMIT < body.length then throw () else
        let published ← bound schema body proposed.intent
        if published ≠ proposed then throw () else
        acknowledged
  else
    acknowledged
where
  acknowledged : Progress M (Receipt T) := do
    match ← remote schema lane proposed.intent with
    | none => throw ()
    | some acknowledged =>
        if acknowledged.payload ≠ proposed.payload then throw () else
        persist schema lane acknowledged
        return acknowledged

/-! ### Calls -/

def acknowledge (lane : Lane M) (intent : AccountPurgeIntent) :
    Progress M (Option (Receipt T)) := do
  let candidate ← localRecord schema lane intent
  match ← remote schema lane intent with
  | some canonical =>
      persist schema lane canonical
      return some canonical
  | none =>
      match candidate with
      | none => return none
      | some candidate => return some (← publish schema lane candidate)

def readRecord (lane : Lane M) (intent : AccountPurgeIntent) :
    Progress M (Option (Receipt T)) := do
  let _ ← localRecord schema lane intent
  match ← remote schema lane intent with
  | none => return none
  | some record =>
      persist schema lane record
      return some record

def retain (lane : Lane M) (intent : AccountPurgeIntent) (value : T) :
    Progress M (Option (Receipt T)) := do
  if !schema.payload value then throw () else
  let localRecord ← localRecord schema lane intent
  let canonical ← remote schema lane intent
  -- the store goes before the folder
  let prior := canonical.or localRecord
  if prior.any fun prior => prior.payload ≠ value then throw () else
  match canonical with
  | some canonical =>
      persist schema lane canonical
      return some canonical
  | none =>
      match prior with
      | some prior => return some (← publish schema lane prior)
      | none =>
          let recordedAt ← outside
          let proposed : Receipt T := ⟨intent, recordedAt, value⟩
          if !schema.admits proposed then throw () else
          return some (← publish schema lane proposed)

def ProgressRequest.intent : ProgressRequest T → AccountPurgeIntent
  | .retain intent _ | .read intent | .acknowledge intent => intent

/-- The call that `own` puts into its lane, after the check of its intent. -/
def ProgressRequest.run (lane : Lane M) (request : ProgressRequest T) :
    Progress M (Option (Receipt T)) :=
  if !request.intent.admitted then throw ()
  else
    match request with
    | .retain intent payload => Purge.retain schema lane intent payload
    | .read intent => readRecord schema lane intent
    | .acknowledge intent => Purge.acknowledge schema lane intent

end

section

/-! ### What the managers rely on -/

variable {M T : Type} {schema : ReceiptSchema T} {lane : Lane M} {intent : AccountPurgeIntent}
  {state : ProgressState M} {record record' : Receipt T}

/-- The object of the account is the record. -/
def Published (schema : ReceiptSchema T) (state : ProgressState M) (lane : Lane M)
    (record : Receipt T) : Prop :=
  ∃ body, state.storage.get lane.accountId = some body ∧ schema.parse body = some record

theorem Published.keeps {state' : ProgressState M} (h : Published schema state lane record)
    (hkeeps : state.storage.Extends state'.storage) : Published schema state' lane record := by
  obtain ⟨body, hobject, hparse⟩ := h
  exact ⟨body, hkeeps _ _ hobject, hparse⟩

theorem Published.admits (h : Published schema state lane record) :
    schema.admits record = true := by
  obtain ⟨body, -, hparse⟩ := h
  exact schema.admits_of_parse hparse

theorem Published.unique (h : Published schema state lane record)
    (h' : Published schema state lane record') : record = record' := by
  obtain ⟨body, hobject, hparse⟩ := h
  obtain ⟨body', hobject', hparse'⟩ := h'
  obtain rfl := Option.some.inj (hobject.symm.trans hobject')
  exact Option.some.inj (hparse.symm.trans hparse')

/-- What a file may be replaced by: a record that can be read back, in which
nothing but the time has changed. -/
def Rewrites (schema : ReceiptSchema T) (old : Option Bytes) (record : Receipt T) : Prop :=
  schema.admits record = true ∧ ∀ text, old = some text → ∃ kept, schema.parse text = some kept ∧
    kept.intent = record.intent ∧ kept.payload = record.payload

/-- What the store has stays, and the own file is as it was left. -/
def ProgressState.Keeps (lane : Lane M) (state state' : ProgressState M) : Prop :=
  state.storage.Extends state'.storage ∧ state'.files lane = state.files lane

/-- What `localRecord` answers: the record of the file, or that there is no file. -/
def IsLocal (schema : ReceiptSchema T) (lane : Lane M) (intent : AccountPurgeIntent)
    (state : ProgressState M) : Option (Receipt T) → Prop
  | none => state.files lane = none
  | some record => record.intent = intent ∧
      ∃ text, state.files lane = some text ∧ schema.parse text = some record

theorem IsLocal.admits (h : IsLocal schema lane intent state (some record)) :
    schema.admits record = true := by
  obtain ⟨-, text, -, hparse⟩ := h
  exact schema.admits_of_parse hparse

/-- What a call leaves that wrote the record: the own file has it. -/
def Wrote (schema : ReceiptSchema T) (lane : Lane M) (state : ProgressState M)
    (record : Receipt T) (state' : ProgressState M) : Prop :=
  state.storage.Extends state'.storage ∧ state'.files lane = some (schema.line record)

theorem Wrote.keeps {state' state'' : ProgressState M} (h : Wrote schema lane state record state')
    (hkeeps : state'.Keeps lane state'') : Wrote schema lane state record state'' :=
  ⟨h.1.trans hkeeps.1, hkeeps.2.trans h.2⟩

variable [DecidableEq M]

def ProgressOperation.apply (state : ProgressState M) : ProgressOperation M → ProgressState M
  | .putIfAbsent accountId body => { state with storage := state.storage.putIfAbsent accountId body }
  | .abandon accountId body => { state with storage := state.storage.abandon accountId body }
  | .writePrivateJson lane text => { state with files := Function.update state.files lane (some text) }

/-- A manager offers what its own file has, and rewrites no other file. -/
def ProgressOperation.By (schema : ReceiptSchema T) (lane : Lane M) (state : ProgressState M) :
    ProgressOperation M → Prop
  | .putIfAbsent accountId body | .abandon accountId body => accountId = lane.accountId ∧
      state.files lane = some (body ++ [0x0a])
  | .writePrivateJson lane' text => lane' = lane ∧
      ∃ record, text = schema.line record ∧ Rewrites schema (state.files lane) record

variable (schema) in
def progressDiscipline : Discipline (Lane M) (ProgressState M) (ProgressOperation M) where
  apply := ProgressOperation.apply
  invariant _ := True
  relies := ProgressState.Keeps
  guarantees := ProgressOperation.By schema
  foreign state operation := ∃ accountId body, operation = .putIfAbsent accountId body ∧
    (accountId, body) ∈ state.storage.abandoned
  refl _ state := ⟨WriteOnce.Extends.refl _, rfl⟩
  trans h h' := ⟨h.1.trans h'.1, h'.2.trans h.2⟩
  keeps _ _ := trivial
  keeps_foreign _ _ := trivial
  respects := by
    intro lane other state operation hne _ hby
    cases operation with
    | putIfAbsent accountId body => exact ⟨WriteOnce.extends_putIfAbsent _ _ _, rfl⟩
    | abandon accountId body => exact ⟨WriteOnce.extends_abandon _ _ _, rfl⟩
    | writePrivateJson lane' text =>
        obtain ⟨rfl, -⟩ := hby
        exact ⟨WriteOnce.Extends.refl _, Function.update_of_ne hne.symm _ _⟩
  respects_foreign := by
    rintro lane state operation - ⟨accountId, body, rfl, -⟩
    exact ⟨WriteOnce.extends_putIfAbsent _ _ _, rfl⟩

/-! ### Triples -/

variable {α : Type} {proposed : Receipt T}

theorem ensures_bound {f : Receipt T → Progress M α} {post : α → ProgressState M → Prop}
    {body : Bytes}
    (h : ∀ record, schema.parse body = some record → record.intent = intent →
      Ensures (progressDiscipline schema) lane post (f record) state) :
    Ensures (progressDiscipline schema) lane post (bound schema body intent >>= f) state := by
  unfold bound
  cases hparse : schema.parse body with
  | none => exact ensures_throw
  | some record =>
      by_cases hintent : record.intent = intent
      · simp only [hintent, ne_eq, not_true_eq_false, if_false]
        exact h record hparse hintent
      · simp only [hintent, ne_eq, not_false_eq_true, if_true]
        exact ensures_throw

theorem localRecord_ensures :
    Ensures (progressDiscipline schema) lane (fun prior state' => state.Keeps lane state' ∧
      IsLocal schema lane intent state' prior) (localRecord schema lane intent) state := by
  have htrans := @(progressDiscipline (M := M) schema).trans lane
  refine ensures_call fun _ => ensures_call fun _ => ensures_read fun state₁ _ hkeeps₁ => ?_
  cases hfile : state₁.files lane with
  | none =>
      exact ensures_pure fun state₂ _ hkeeps₂ => ⟨htrans hkeeps₁ hkeeps₂, hkeeps₂.2.trans hfile⟩
  | some text =>
      refine ensures_ite (fun _ => ensures_throw) fun _ => ensures_call fun _ =>
        ensures_read fun state₂ _ hkeeps₂ => ?_
      cases hfile₂ : state₂.files lane with
      | none => exact ensures_throw
      | some text₂ =>
          refine ensures_ite (fun _ => ensures_throw) fun _ => ensures_bound fun record hparse
            hintent => ensures_call fun _ => ensures_pure fun state₃ _ hkeeps₃ => ?_
          exact ⟨htrans hkeeps₁ (htrans hkeeps₂ hkeeps₃), hintent, text₂,
            hkeeps₃.2.trans hfile₂, hparse⟩

/-- After a record was written, its file stays until the manager writes again. -/
theorem writePrivateJson_ensures (h : Rewrites schema (state.files lane) record) :
    Ensures (progressDiscipline schema) lane (fun _ state' =>
      state.storage.Extends state'.storage ∧ state'.files lane = some (schema.line record))
      (writePrivateJson schema lane record) state := by
  refine ensures_ite (fun _ => ensures_throw) fun _ => ensures_call fun _ =>
    ensures_perform fun state₁ _ hkeeps₁ => ⟨⟨rfl, record, rfl, ?_⟩, ?_⟩
  · rwa [hkeeps₁.2]
  · refine ensures_last_call fun _ state₂ _ hkeeps₂ => ⟨?_, ?_⟩
    · exact hkeeps₁.1.trans hkeeps₂.1
    · exact hkeeps₂.2.trans (Function.update_self _ _ _)

theorem getObject_ensures :
    Ensures (progressDiscipline schema) lane (fun result state' => state.Keeps lane state' ∧
      (∀ body, result = some body → state'.storage.get lane.accountId = some body) ∧
      ∀ body, state.storage.get lane.accountId = some body → result = some body)
      (getObject lane) state := by
  refine ensures_call fun _ => ensures_read fun state₁ _ hkeeps₁ => ensures_call fun _ =>
    ensures_pure fun state₂ _ hkeeps₂ => ?_
  exact ⟨(progressDiscipline schema).trans hkeeps₁ hkeeps₂, fun body h => hkeeps₂.1 _ _ h,
    fun body h => hkeeps₁.1 _ _ h⟩

theorem putIfAbsent_ensures {body : Bytes} (h : state.files lane = some (body ++ [0x0a])) :
    Ensures (progressDiscipline schema) lane (fun _ => state.Keeps lane)
      (putIfAbsent lane body) state := by
  refine ensures_outside fun givenUp => ?_
  cases givenUp with
  | true =>
      refine ensures_perform fun state₁ _ hkeeps₁ => ⟨⟨rfl, hkeeps₁.2.trans h⟩, ensures_throw⟩
  | false =>
      refine ensures_perform fun state₁ _ hkeeps₁ => ⟨⟨rfl, hkeeps₁.2.trans h⟩, ?_⟩
      refine ensures_call fun _ => ensures_pure fun state₂ _ hkeeps₂ => ⟨?_, ?_⟩
      · exact hkeeps₁.1.trans ((WriteOnce.extends_putIfAbsent _ _ _).trans hkeeps₂.1)
      · exact hkeeps₂.2.trans hkeeps₁.2

variable [DecidableEq T]

theorem persist_ensures (hadmits : schema.admits record = true) :
    Ensures (progressDiscipline schema) lane (fun _ => Wrote schema lane state record)
      (persist schema lane record) state := by
  refine ensures_bind trivial (localRecord_ensures.mono fun prior state₁ _ hlocal => ?_)
  obtain ⟨hkeeps₁, hlocal⟩ := hlocal
  refine ensures_ite (fun _ => ensures_throw) fun hpayload => ensures_call fun _ => ?_
  have hrewrites : Rewrites schema (state₁.files lane) record := by
    refine ⟨hadmits, fun text htext => ?_⟩
    cases prior with
    | none =>
        rw [hlocal] at htext
        cases htext
    | some kept =>
        obtain ⟨hintent, text', htext', hparse⟩ := hlocal
        obtain rfl := Option.some.inj (htext.symm.trans htext')
        exact ⟨kept, hparse, hintent, by simpa using hpayload⟩
  refine ensures_bind trivial ((writePrivateJson_ensures hrewrites).mono
    fun _ state₂ _ hwrote => ?_)
  refine ensures_last_call fun _ state₃ _ hkeeps₃ => ?_
  have hwrote₂ : Wrote schema lane state record state₂ := ⟨hkeeps₁.1.trans hwrote.1, hwrote.2⟩
  exact hwrote₂.keeps hkeeps₃

/-- What `remote` answers: the record of the object, when there is one. -/
theorem remote_ensures :
    Ensures (progressDiscipline schema) lane (fun result state' => state.Keeps lane state' ∧
      (∀ record, result = some record → record.intent = intent ∧
        Published schema state' lane record) ∧
      ∀ record, Published schema state lane record → result = some record)
      (remote schema lane intent) state := by
  have htrans := @(progressDiscipline (M := M) schema).trans lane
  refine ensures_call fun _ => ensures_bind trivial (getObject_ensures.mono
    fun result state₁ _ hget₁ => ?_)
  obtain ⟨hkeeps₁, -, hfirst⟩ := hget₁
  cases result with
  | none =>
      refine ensures_pure fun state₂ _ hkeeps₂ => ⟨htrans hkeeps₁ hkeeps₂, fun _ h => (by cases h), ?_⟩
      rintro record ⟨body, hobject, -⟩
      cases hfirst body hobject
  | some body =>
      refine ensures_call fun _ => ensures_ite (fun _ => ensures_throw) fun _ =>
        ensures_bound fun latest _ _ => ensures_bind trivial (getObject_ensures.mono
          fun result state₂ _ hget₂ => ?_)
      obtain ⟨hkeeps₂, hsecond, -⟩ := hget₂
      cases result with
      | none => exact ensures_throw
      | some body' =>
          refine ensures_ite (fun _ => ensures_throw) fun _ => ensures_bound fun version hparse
            hintent => ensures_ite (fun _ => ensures_throw) fun _ => ensures_call fun _ =>
              ensures_pure fun state₃ _ hkeeps₃ => ?_
          have hpublished : Published schema state₃ lane version :=
            ⟨body', hkeeps₃.1 _ _ (hsecond body' rfl), hparse⟩
          have hall := htrans hkeeps₁ (htrans hkeeps₂ hkeeps₃)
          refine ⟨hall, fun record h => ?_, fun record h => ?_⟩
          · obtain rfl := Option.some.inj h
            exact ⟨hintent, hpublished⟩
          · exact congrArg some (hpublished.unique (h.keeps hall.1))

/-- A record that is in the store and in the manager's file. -/
def Acknowledged (schema : ReceiptSchema T) (lane : Lane M) (state : ProgressState M)
    (record : Receipt T) : Prop :=
  Published schema state lane record ∧ state.files lane = some (schema.line record)

omit [DecidableEq M] [DecidableEq T] in
theorem Acknowledged.keeps {state' : ProgressState M} (h : Acknowledged schema lane state record)
    (hkeeps : state.Keeps lane state') : Acknowledged schema lane state' record :=
  ⟨h.1.keeps hkeeps.1, hkeeps.2.trans h.2⟩

theorem acknowledged_ensures :
    Ensures (progressDiscipline schema) lane (fun record state' =>
      Acknowledged schema lane state' record ∧ record.intent = proposed.intent ∧
        record.payload = proposed.payload)
      (publish.acknowledged schema lane proposed) state := by
  refine ensures_bind trivial (remote_ensures.mono fun result state₁ _ hremote => ?_)
  obtain ⟨-, hresult, -⟩ := hremote
  cases result with
  | none => exact ensures_throw
  | some record =>
      obtain ⟨hintent, hpublished⟩ := hresult record rfl
      refine ensures_ite (fun _ => ensures_throw) fun hpayload => ensures_bind trivial
        ((persist_ensures hpublished.admits).mono fun _ state₂ _ hwrote => ?_)
      refine ensures_pure fun state₃ _ hkeeps₃ => ⟨?_, hintent, not_not.mp hpayload⟩
      exact Acknowledged.keeps ⟨hpublished.keeps hwrote.1, hwrote.2⟩ hkeeps₃

theorem publish_ensures (hadmits : schema.admits proposed = true) :
    Ensures (progressDiscipline schema) lane (fun record state' =>
      Acknowledged schema lane state' record ∧ record.intent = proposed.intent ∧
        record.payload = proposed.payload)
      (publish schema lane proposed) state := by
  refine ensures_bind trivial ((persist_ensures hadmits).mono fun _ state₁ _ hwrote => ?_)
  refine ensures_bind trivial ((putIfAbsent_ensures hwrote.2).mono fun placed state₂ _ _ => ?_)
  cases placed with
  | false => exact acknowledged_ensures
  | true =>
      refine ensures_bind trivial (getObject_ensures.mono fun result state₃ _ _ => ?_)
      cases result with
      | none => exact ensures_throw
      | some body =>
          exact ensures_ite (fun _ => ensures_throw) fun _ => ensures_bound fun published _ _ =>
            ensures_ite (fun _ => ensures_throw) fun _ => acknowledged_ensures

/-! ### Calls -/

/-- The record is one that the call asks for. -/
def ProgressRequest.Accepts (record : Receipt T) : ProgressRequest T → Prop
  | .retain intent payload => record.intent = intent ∧ record.payload = payload
  | .read intent | .acknowledge intent => record.intent = intent

/-- What a call answers. A record that the store had when it started is its answer. -/
structure Answers (schema : ReceiptSchema T) (lane : Lane M) (request : ProgressRequest T)
    (start : ProgressState M) (result : Option (Receipt T)) (state : ProgressState M) : Prop where
  acknowledged : ∀ record, result = some record →
    Acknowledged schema lane state record ∧ request.Accepts record
  started : ∀ record, Published schema start lane record → result = some record
  retained : ∀ intent payload, request = .retain intent payload → result.isSome = true

omit [DecidableEq M] [DecidableEq T] in
theorem Answers.of_unpublished {start : ProgressState M} {request : ProgressRequest T}
    (h : Acknowledged schema lane state record ∧ request.Accepts record)
    (hnone : ∀ record, ¬Published schema start lane record) :
    Answers schema lane request start (some record) state where
  acknowledged _ hrecord := Option.some.inj hrecord ▸ h
  started record' hpublished := absurd hpublished (hnone record')
  retained _ _ _ := rfl

/-- Adopting the record of the store. -/
theorem adopt_ensures {start : ProgressState M} {request : ProgressRequest T}
    (haccepts : request.Accepts record) (hpublished : Published schema state lane record)
    (hstart : start.storage.Extends state.storage) :
    Ensures (progressDiscipline schema) lane (Answers schema lane request start)
      (persist schema lane record >>= fun _ => pure (some record)) state := by
  refine ensures_bind trivial ((persist_ensures hpublished.admits).mono
    fun _ state₁ _ hwrote => ?_)
  refine ensures_pure fun state₂ _ hkeeps₂ => ⟨fun record' hrecord => ?_, fun record' hfound => ?_,
    fun _ _ _ => rfl⟩
  · obtain rfl := Option.some.inj hrecord
    exact ⟨Acknowledged.keeps ⟨hpublished.keeps hwrote.1, hwrote.2⟩ hkeeps₂, haccepts⟩
  · exact congrArg some (hpublished.unique (hfound.keeps hstart))

theorem run_ensures (request : ProgressRequest T) :
    Ensures (progressDiscipline schema) lane (Answers schema lane request state)
      (request.run schema lane) state := by
  -- a proposal that the store did not have yet is published and then acknowledged
  have hpublish : ∀ {state₁ : ProgressState M} {proposed : Receipt T},
      schema.admits proposed = true → (∀ record, record.intent = proposed.intent →
        record.payload = proposed.payload → request.Accepts record) →
      (∀ record, ¬Published schema state lane record) →
      Ensures (progressDiscipline schema) lane (Answers schema lane request state)
        (publish schema lane proposed >>= fun record => pure (some record)) state₁ := by
    intro state₁ proposed hadmits haccepts hnone
    refine ensures_bind trivial ((publish_ensures hadmits).mono fun record state₂ _ hpublish => ?_)
    obtain ⟨hacknowledged, hintent, hpayload⟩ := hpublish
    exact ensures_pure fun state₃ _ hkeeps₃ =>
      .of_unpublished ⟨hacknowledged.keeps hkeeps₃, haccepts record hintent hpayload⟩ hnone
  refine ensures_ite (fun _ => ensures_throw) fun _ => ?_
  cases request with
  | acknowledge intent =>
      refine ensures_bind trivial (localRecord_ensures.mono fun candidate state₁ _ hlocal => ?_)
      obtain ⟨hkeeps₁, hlocal⟩ := hlocal
      refine ensures_bind trivial (remote_ensures.mono fun result state₂ _ hremote => ?_)
      obtain ⟨hkeeps₂, hresult, hfound⟩ := hremote
      have hstart := fun record (h : Published schema state lane record) =>
        hfound record (h.keeps hkeeps₁.1)
      cases result with
      | some canonical =>
          obtain ⟨hintent, hpublished⟩ := hresult canonical rfl
          exact adopt_ensures hintent hpublished (hkeeps₁.1.trans hkeeps₂.1)
      | none =>
          have hnone : ∀ record, ¬Published schema state lane record :=
            fun record h => by cases hstart record h
          cases candidate with
          | none => exact ensures_pure fun _ _ _ => ⟨fun _ h => (by cases h), hstart,
              fun _ _ h => by cases h⟩
          | some candidate =>
              -- an earlier attempt has proposed it and was stopped before the store had it
              exact hpublish (IsLocal.admits hlocal) (fun record h _ => h.trans hlocal.1) hnone
  | read intent =>
      refine ensures_bind trivial (localRecord_ensures.mono fun candidate state₁ _ hlocal => ?_)
      obtain ⟨hkeeps₁, hlocal⟩ := hlocal
      refine ensures_bind trivial (remote_ensures.mono fun result state₂ _ hremote => ?_)
      obtain ⟨hkeeps₂, hresult, hfound⟩ := hremote
      cases result with
      | some canonical =>
          obtain ⟨hintent, hpublished⟩ := hresult canonical rfl
          exact adopt_ensures hintent hpublished (hkeeps₁.1.trans hkeeps₂.1)
      | none =>
          exact ensures_pure fun _ _ _ =>
            ⟨fun _ h => (by cases h), fun record h => hfound record (h.keeps hkeeps₁.1),
              fun _ _ h => by cases h⟩
  | retain intent value =>
      refine ensures_ite (fun _ => ensures_throw) fun _ => ?_
      refine ensures_bind trivial (localRecord_ensures.mono fun prior state₁ _ hlocal => ?_)
      obtain ⟨hkeeps₁, hlocal⟩ := hlocal
      refine ensures_bind trivial (remote_ensures.mono fun result state₂ _ hremote => ?_)
      obtain ⟨hkeeps₂, hresult, hfound⟩ := hremote
      refine ensures_ite (fun _ => ensures_throw) fun hpayload => ?_
      cases result with
      | some canonical =>
          obtain ⟨hintent, hpublished⟩ := hresult canonical rfl
          -- the store's receipt is adopted only if its payload is the value that was given
          exact adopt_ensures ⟨hintent, by simpa using hpayload⟩ hpublished
            (hkeeps₁.1.trans hkeeps₂.1)
      | none =>
          have hnone : ∀ record, ¬Published schema state lane record :=
            fun record h => by cases hfound record (h.keeps hkeeps₁.1)
          cases prior with
          | none =>
              refine ensures_outside fun recordedAt =>
                ensures_ite (fun _ => ensures_throw) fun hadmits => ?_
              exact hpublish (by simpa using hadmits) (fun record h h' => ⟨h, h'⟩) hnone
          | some candidate =>
              have hvalue : candidate.payload = value := by simpa using hpayload
              exact hpublish (IsLocal.admits hlocal)
                (fun record h h' => ⟨h.trans hlocal.1, h'.trans hvalue⟩) hnone

/-! ### Runs -/

variable (schema) in
/-- The steps of the managers. A crash leaves the files and the store. -/
abbrev ProgressStep := Actors.Step (progressDiscipline (M := M) schema)
  (ProgressRequest.run schema) fun _ => none

abbrev ProgressSystem (M T : Type) := Actors (Lane M) (ProgressRequest T) (ProgressState M)
  (ProgressOperation M) (Option (Receipt T))

abbrev ProgressEvent (M T : Type) := ActorEvent (Lane M) (ProgressRequest T)
  (ProgressOperation M) (Option (Receipt T))

abbrev Answering (schema : ReceiptSchema T) (system : ProgressSystem M T) : Prop :=
  system.Sound (progressDiscipline schema) (Actors.Returning (Answers schema))

variable {system system' : ProgressSystem M T} {event : ProgressEvent M T}
  {events : List (ProgressEvent M T)}

theorem ProgressStep.sound (h : Answering schema system)
    (hstep : ProgressStep schema system event system') :
    Answering schema system' :=
  h.step (fun _ request _ _ => run_ensures request) (fun _ _ _ _ ho => by cases ho) hstep

theorem ProgressStep.allows (h : Answering schema system)
    (hstep : ProgressStep schema system event system') :
    Actors.Allows (progressDiscipline schema) (Actors.Returning (Answers schema)) system.state
      system'.state event :=
  h.allows (fun _ _ _ _ ho => by cases ho) hstep

/-- What a step does to the store, and to the file of a manager. -/
theorem ProgressStep.keeps (h : Answering schema system)
    (hstep : ProgressStep schema system event system') :
    system.state.storage.Extends system'.state.storage ∧ ∀ lane,
      system'.state.files lane = system.state.files lane ∨
        ∃ record, system'.state.files lane = some (schema.line record) ∧
          Rewrites schema (system.state.files lane) record := by
  refine (hstep.allows h).relates (R := fun s s' => s.storage.Extends s'.storage ∧ ∀ lane,
    s'.files lane = s.files lane ∨ ∃ record, s'.files lane = some (schema.line record) ∧
      Rewrites schema (s.files lane) record) ⟨.refl _, fun _ => .inl rfl⟩ ?_ ?_
  · intro lane operation hby
    cases operation with
    | putIfAbsent accountId body => exact ⟨WriteOnce.extends_putIfAbsent _ _ _, fun _ => .inl rfl⟩
    | abandon accountId body => exact ⟨WriteOnce.extends_abandon _ _ _, fun _ => .inl rfl⟩
    | writePrivateJson other text =>
        obtain ⟨rfl, record, rfl, hrewrites⟩ := hby
        refine ⟨.refl _, fun lane' => ?_⟩
        by_cases hlane : lane' = other
        · subst hlane
          exact .inr ⟨record, Function.update_self _ _ _, hrewrites⟩
        · exact .inl (Function.update_of_ne hlane _ _)
  · rintro operation ⟨accountId, body, rfl, -⟩
    exact ⟨WriteOnce.extends_putIfAbsent _ _ _, fun _ => .inl rfl⟩

theorem ProgressStep.run_sound (h : Run (ProgressStep schema) system events system')
    (hsound : Answering schema system) :
    Answering schema system' :=
  h.invariant (fun hstep hs => ProgressStep.sound hs hstep) hsound

theorem ProgressStep.run_extends (h : Run (ProgressStep schema) system events system')
    (hsound : Answering schema system) :
    system.state.storage.Extends system'.state.storage :=
  h.relates (R := fun s s' => s.state.storage.Extends s'.state.storage) (fun _ => .refl _)
    (fun h h' => h.trans h') (fun hstep hs => ProgressStep.sound hs hstep)
    (fun hstep hs => (ProgressStep.keeps hs hstep).1) hsound

/-- A call that returns does so in a state where its answer holds. -/
theorem ProgressStep.answers {lane : Lane M} {request : ProgressRequest T}
    {result : Option (Receipt T)} (h : Answering schema system)
    (hstep : ProgressStep schema system (.finished lane request (.ok result)) system') :
    ∃ call, system.running lane = some call ∧
      Answers schema lane request call.start result system.state := by
  cases hstep with
  | finished hrunning =>
      exact ⟨_, hrunning, h.holds hrunning _ h.invariant ((progressDiscipline schema).refl _ _) _ rfl⟩

/-- A record that a call returned is in the store from then on. -/
theorem ProgressStep.published_of_mem {lane : Lane M} {request : ProgressRequest T}
    (h : Run (ProgressStep schema) system events system') (hsound : Answering schema system)
    (hreturned : .finished lane request (.ok (some record)) ∈ events) :
    Published schema system'.state lane record := by
  obtain ⟨before, after, t, t', hto, hstep, hfrom⟩ := h.of_mem hreturned
  have ht := ProgressStep.run_sound hto hsound
  obtain ⟨call, -, hanswers⟩ := ProgressStep.answers ht hstep
  exact (hanswers.acknowledged record rfl).1.1.keeps ((ProgressStep.keeps ht hstep).1.trans
    (ProgressStep.run_extends hfrom (ProgressStep.sound ht hstep)))

omit [DecidableEq M] [DecidableEq T] in
theorem Published.sameAccount {lane' : Lane M} (h : Published schema state lane record)
    (haccount : lane'.accountId = lane.accountId) : Published schema state lane' record := by
  obtain ⟨body, hobject, hparse⟩ := h
  exact ⟨body, haccount ▸ hobject, hparse⟩

/-- A manager that is idle starts its calls on a store that has at least what it
has now. -/
theorem ProgressStep.run_startedAfter {lane : Lane M}
    (h : Run (ProgressStep schema) system events system')
    (hsound : Answering schema system)
    (hidle : system.running lane = none) :
    Actors.StartedAfter (fun s s' => s.storage.Extends s'.storage) system.state lane system' := by
  let Related (u : ProgressSystem M T) : Prop :=
    Answering schema u ∧
      Actors.StartedAfter (fun s s' => s.storage.Extends s'.storage) system.state lane u
  have hstep : ∀ {u event u'}, ProgressStep schema u event u' → Related u → Related u' :=
    fun hstep hu => ⟨ProgressStep.sound hu.1 hstep,
      hu.2.step (hu.2.1.trans (ProgressStep.keeps hu.1 hstep).1) hstep⟩
  have hfirst : Related system :=
    ⟨hsound, .refl _, fun call hcall => by rw [hidle] at hcall; cases hcall⟩
  exact (h.invariant hstep hfirst).2

/-! ### A manager that has no file -/

omit [DecidableEq T] in
theorem returns_bound {body : Bytes} {record : Receipt T}
    (h : schema.parse body = some record) :
    (bound schema body record.intent).Returns ProgressOperation.apply state state record := by
  unfold bound
  rw [h]
  simp only [ne_eq, not_true_eq_false, if_false]
  exact returns_pure _ _

omit [DecidableEq T] in
theorem returns_getObject {body : Bytes} (h : state.storage.get lane.accountId = some body) :
    (getObject lane).Returns ProgressOperation.apply state state (some body) :=
  returns_bind (returns_call ()) (returns_bind (returns_read _) (returns_bind (returns_call ())
    (h ▸ returns_pure _ _)))

theorem returns_remote (h : state.storage.get lane.accountId = some (schema.stringify record))
    (hadmits : schema.admits record = true) (hlength : (schema.line record).length ≤ LIMIT) :
    (remote schema lane record.intent).Returns ProgressOperation.apply state state
      (some record) := by
  have hbody : ¬LIMIT < (schema.stringify record).length := by
    rw [DocumentSchema.line, List.length_append] at hlength
    omega
  have hbound : (bound schema (schema.stringify record) record.intent).Returns
      ProgressOperation.apply state state record :=
    returns_bound (schema.parse_stringify record hadmits)
  refine returns_bind (returns_call ()) (returns_bind (returns_getObject h)
    (returns_bind (returns_call ()) ?_))
  rw [if_neg hbody]
  refine returns_bind hbound (returns_bind (returns_getObject h) ?_)
  simp only [if_neg hbody]
  refine returns_bind hbound ?_
  simp only [ne_eq, not_true_eq_false, if_false]
  exact returns_bind (returns_call ()) (returns_pure _ _)

omit [DecidableEq T] in
theorem returns_localRecord (h : state.files lane = none) :
    (localRecord schema lane intent).Returns ProgressOperation.apply state state none := by
  refine returns_bind (returns_call ()) (returns_bind (returns_call ())
    (returns_bind (returns_read _) ?_))
  rw [h]
  exact returns_pure _ _

/-- An undisturbed manager adopts the record that it finds. -/
theorem returns_readRecord (hfile : state.files lane = none)
    (hobject : state.storage.get lane.accountId = some (schema.stringify record))
    (hadmits : schema.admits record = true) (hlength : (schema.line record).length ≤ LIMIT) :
    (readRecord schema lane record.intent).Returns ProgressOperation.apply state
      { state with files := Function.update state.files lane (some (schema.line record)) }
      (some record) := by
  refine returns_bind (returns_localRecord hfile)
    (returns_bind (returns_remote hobject hadmits hlength) ?_)
  refine returns_bind (a := ()) ?_ (returns_pure _ _)
  refine returns_bind (returns_localRecord hfile) ?_
  simp only [Option.any_none, Bool.false_eq_true, if_false]
  refine returns_bind (returns_call ()) (returns_bind (a := ()) ?_ (returns_call ()))
  unfold writePrivateJson
  rw [if_neg (Nat.not_lt.mpr hlength)]
  exact returns_bind (returns_call ()) (returns_bind (returns_perform _ _) (returns_call ()))

theorem returns_run_read (hintent : record.intent.admitted = true)
    (hfile : state.files lane = none)
    (hobject : state.storage.get lane.accountId = some (schema.stringify record))
    (hadmits : schema.admits record = true) (hlength : (schema.line record).length ≤ LIMIT) :
    ((ProgressRequest.read record.intent).run schema lane).Returns ProgressOperation.apply state
      { state with files := Function.update state.files lane (some (schema.line record)) }
      (some record) :=
  returns_ite_neg (by simp [ProgressRequest.intent, hintent])
    (returns_readRecord hfile hobject hadmits hlength)

/-! ### Records in JSON -/

/-- The document of a record whose payload is a text. -/
def Receipt.fields (stage : String) (record : Receipt String) : List (String × Json) :=
  [("format", .str "pocketcoder-account-purge-progress/v1"), ("intent", record.intent.json),
    ("stage", .str stage), ("targetId", .null), ("recordedAt", .str record.recordedAt),
    ("payload", .str record.payload)]

def Receipt.ofFields (stage : String) (fields : List (String × Json)) : Option (Receipt String) :=
  match strictObject ["format", "intent", "stage", "targetId", "recordedAt", "payload"] fields with
  | some [.str format, intent, .str stage', .null, .str recordedAt, .str payload] =>
    if format = "pocketcoder-account-purge-progress/v1" && stage' = stage then
      (AccountPurgeIntent.ofJson intent).map fun intent => ⟨intent, recordedAt, payload⟩
    else none
  | _ => none

theorem Receipt.ofFields_fields (stage : String) (record : Receipt String) :
    ofFields stage (record.fields stage) = some record := by
  have hobject : strictObject ["format", "intent", "stage", "targetId", "recordedAt", "payload"]
      (record.fields stage) = some [.str "pocketcoder-account-purge-progress/v1",
        record.intent.json, .str stage, .null, .str record.recordedAt, .str record.payload] := rfl
  rw [ofFields, hobject]
  simp [AccountPurgeIntent.ofJson_json]

/-- A receipt passes its schema. -/
def Receipt.admitted (record : Receipt String) : Bool :=
  record.intent.admitted && isDatetime record.recordedAt

def stageSchema (stage : String) : ReceiptSchema String where
  toDocumentSchema := objectSchema Receipt.admitted (Receipt.fields stage)
    (Receipt.ofFields stage) (Receipt.ofFields_fields stage)
  payload _ := true

def sampleReceipt : Receipt String where
  intent :=
    { accountId := "00000000-0000-4000-8000-000000000001"
      operationId := "00000000-0000-4000-8000-000000000002"
      createRequestDigest := .ofList (List.replicate 64 'a')
      purgeRequestDigest := .ofList (List.replicate 64 'b')
      admittedAt := "2026-01-01T00:00:00.000Z" }
  recordedAt := "2026-01-02T00:00:00.000Z"
  payload := "stopped"

def stoppedSchema : ReceiptSchema String := stageSchema "stopped"

theorem sampleIntent_admitted : sampleReceipt.intent.admitted = true := by
  decide

theorem sampleReceipt_admitted : stoppedSchema.admits sampleReceipt = true := by
  decide

section

open Json

theorem length_sampleReceipt : (stoppedSchema.line sampleReceipt).length ≤ LIMIT := by
  refine @length_line_le _ _ _ _ (Receipt.ofFields_fields "stopped") _ ?_
  refine (length_obj_le _ (length_str_le _) (length_fields_le _ (length_obj_le _ (length_str_le _)
    (length_fields_le _ (length_str_le _) (length_fields_le _ (length_str_le _)
    (length_fields_le _ (length_str_le _) (length_fields_le _ (length_str_le _)
    (length_fields_le _ (length_str_le _) (Nat.le_refl 1)))))))
    (length_fields_le _ (length_str_le _) (length_fields_le _ (Nat.le_refl 4)
    (length_fields_le _ (length_str_le _) (length_fields_le _ (length_str_le _)
      (Nat.le_refl 1))))))).trans ?_
  simp only [List.length_cons, List.length_nil, List.length_replicate]
  omega

end

/-- A store that has the record, and two managers without a file. -/
def sampleState : ProgressState Bool where
  storage := WriteOnce.empty.putIfAbsent sampleReceipt.intent.accountId
    (stoppedSchema.stringify sampleReceipt)
  files _ := none

def sampleLane (manager : Bool) : Lane Bool := ⟨manager, sampleReceipt.intent.accountId⟩

theorem sampleAccount (manager other : Bool) :
    (sampleLane other).accountId = (sampleLane manager).accountId := rfl

abbrev SampleEvent := ProgressEvent Bool String

def sampleFinished (manager : Bool) : SampleEvent :=
  .finished (sampleLane manager) (.read sampleReceipt.intent) (.ok (some sampleReceipt))

/-- Both managers read the record, one after the other. -/
theorem sampleReads : ∃ (first second : List SampleEvent) (system system' : ProgressSystem Bool String),
    Run (ProgressStep stoppedSchema) (Actors.initial sampleState)
      (first ++ [sampleFinished false]) system ∧
    system.state.files (sampleLane false) = some (stoppedSchema.line sampleReceipt) ∧
    system.running (sampleLane true) = none ∧
    Run (ProgressStep stoppedSchema) system (second ++ [sampleFinished true]) system' := by
  have hobject : sampleState.storage.get sampleReceipt.intent.accountId =
      some (stoppedSchema.stringify sampleReceipt) := by
    rw [sampleState, WriteOnce.get_putIfAbsent, if_pos rfl, WriteOnce.get_empty, Option.getD_none]
  have hown : Function.update sampleState.files (sampleLane false)
      (some (stoppedSchema.line sampleReceipt)) (sampleLane false) =
        some (stoppedSchema.line sampleReceipt) := Function.update_self _ _ _
  have hother : Function.update sampleState.files (sampleLane false)
      (some (stoppedSchema.line sampleReceipt)) (sampleLane true) = none := by
    refine Function.update_of_ne (fun h => ?_) _ _
    cases congrArg Lane.manager h
  obtain ⟨first, hfirst⟩ := Actors.Step.run_call (progressDiscipline stoppedSchema)
    (ProgressRequest.run stoppedSchema) (fun _ => none) (Actors.initial sampleState)
    (sampleLane false) (.read sampleReceipt.intent) rfl
    (returns_run_read sampleIntent_admitted rfl hobject sampleReceipt_admitted length_sampleReceipt)
  obtain ⟨second, hsecond⟩ := Actors.Step.run_call (progressDiscipline stoppedSchema)
    (ProgressRequest.run stoppedSchema) (fun _ => none)
    ⟨⟨sampleState.storage, Function.update sampleState.files (sampleLane false)
      (some (stoppedSchema.line sampleReceipt))⟩, fun _ => none⟩
    (sampleLane true) (.read sampleReceipt.intent) rfl
    (returns_run_read sampleIntent_admitted hother hobject sampleReceipt_admitted
      length_sampleReceipt)
  exact ⟨_ :: first, _ :: second, _, _, hfirst, hown, rfl, hsecond⟩

/-! ### Agreement -/

/-- A record that a call returned is the answer of every call that starts later,
whatever the managers do between, and of every call that does not answer that
there is none. -/
theorem receipts_agree {state : ProgressState M} {before after : List (ProgressEvent M T)}
    {lane lane' : Lane M} {request request' : ProgressRequest T} {result : Option (Receipt T)}
    (hbefore : Run (ProgressStep schema) (Actors.initial state) before system)
    (hreturned : .finished lane request (.ok (some record)) ∈ before)
    (hafter : Run (ProgressStep schema) system after system')
    (hlater : .finished lane' request' (.ok result) ∈ after)
    (haccount : lane'.accountId = lane.accountId) :
    (∀ record', result = some record' → record' = record ∧ request'.Accepts record) ∧
      (∀ intent payload, request' = .retain intent payload → result = some record) ∧
      (system.running lane' = none → result = some record) := by
  have hinitial : Answering schema (Actors.initial state) := Actors.initial_sound trivial
  have hsystem := ProgressStep.run_sound hbefore hinitial
  have hpublished := ProgressStep.published_of_mem hbefore hinitial hreturned
  obtain ⟨bs, cs, u, u', hto, hstep, -⟩ := hafter.of_mem hlater
  have hu := ProgressStep.run_sound hto hsystem
  obtain ⟨call, hrunning, hanswers⟩ := ProgressStep.answers hu hstep
  have hthere := (hpublished.keeps (ProgressStep.run_extends hto hsystem)).sameAccount haccount
  have hunique : ∀ record', result = some record' → record' = record ∧ request'.Accepts record := by
    intro record' hrecord'
    obtain ⟨hacknowledged, haccepts⟩ := hanswers.acknowledged record' hrecord'
    obtain rfl := hacknowledged.1.unique hthere
    exact ⟨rfl, haccepts⟩
  refine ⟨hunique, fun intent payload hretain => ?_, fun hidle => ?_⟩
  · obtain ⟨record', hrecord'⟩ := Option.isSome_iff_exists.mp
      (hanswers.retained intent payload hretain)
    rw [hrecord', (hunique record' hrecord').1]
  · have hstart := (ProgressStep.run_startedAfter hto hsystem hidle).2 call hrunning
    exact hanswers.started record ((hpublished.keeps hstart).sameAccount haccount)

/-- After one manager has read the record, the other answers with it. -/
theorem receipts_agree_adopted : ∃ (before after : List SampleEvent)
    (system system' : ProgressSystem Bool String),
    Run (ProgressStep stoppedSchema) (Actors.initial sampleState) before system ∧
    sampleFinished false ∈ before ∧
    Run (ProgressStep stoppedSchema) system after system' ∧
    sampleFinished true ∈ after ∧ system.running (sampleLane true) = none ∧
    ∀ request result, .finished (sampleLane true) request (.ok result) ∈ after →
      result = some sampleReceipt := by
  obtain ⟨first, second, system, system', hfirst, -, hidle, hsecond⟩ := sampleReads
  have hreturned : sampleFinished false ∈ first ++ [sampleFinished false] :=
    List.mem_append_right _ List.mem_cons_self
  have hlater : sampleFinished true ∈ second ++ [sampleFinished true] :=
    List.mem_append_right _ List.mem_cons_self
  exact ⟨_, _, system, system', hfirst, hreturned, hsecond, hlater, hidle,
    fun request result hmem => (receipts_agree hfirst hreturned hsecond hmem rfl).2.2 hidle⟩

/-! ### Files -/

/-- The body that an operation offers to the store. -/
def ProgressOperation.offers : ProgressOperation M → Option Bytes
  | .putIfAbsent _ body | .abandon _ body => some body
  | .writePrivateJson _ _ => none

/-- What a file says but for the time does not change. -/
def SameReceipt (schema : ReceiptSchema T) (old new : Option Bytes) : Prop :=
  ∀ text kept, old = some text → schema.parse text = some kept →
    ∃ text' kept', new = some text' ∧ schema.parse text' = some kept' ∧
      kept'.intent = kept.intent ∧ kept'.payload = kept.payload

omit [DecidableEq M] [DecidableEq T] in
theorem SameReceipt.refl (file : Option Bytes) : SameReceipt schema file file :=
  fun text kept htext hkept => ⟨text, kept, htext, hkept, rfl, rfl⟩

omit [DecidableEq M] [DecidableEq T] in
theorem SameReceipt.trans {file file' file'' : Option Bytes} (h : SameReceipt schema file file')
    (h' : SameReceipt schema file' file'') : SameReceipt schema file file'' := by
  intro text kept htext hkept
  obtain ⟨text₁, kept₁, htext₁, hkept₁, hintent₁, hpayload₁⟩ := h text kept htext hkept
  obtain ⟨text₂, kept₂, htext₂, hkept₂, hintent₂, hpayload₂⟩ := h' text₁ kept₁ htext₁ hkept₁
  exact ⟨text₂, kept₂, htext₂, hkept₂, hintent₂.trans hintent₁, hpayload₂.trans hpayload₁⟩

omit [DecidableEq M] [DecidableEq T] in
theorem Rewrites.sameReceipt {file : Option Bytes} (h : Rewrites schema file record) :
    SameReceipt schema file (some (schema.line record)) := by
  intro text kept htext hkept
  obtain ⟨kept', hkept', hintent, hpayload⟩ := h.2 text htext
  obtain rfl := Option.some.inj (hkept.symm.trans hkept')
  exact ⟨_, record, rfl, schema.parse_line_admitted h.1, hintent.symm, hpayload.symm⟩

theorem ProgressStep.run_sameReceipt (h : Run (ProgressStep schema) system events system')
    (hsound : Answering schema system) (lane : Lane M) :
    SameReceipt schema (system.state.files lane) (system'.state.files lane) := by
  refine h.relates (R := fun (s s' : ProgressSystem M T) =>
    SameReceipt schema (s.state.files lane) (s'.state.files lane)) (fun _ => .refl _)
    (fun hfirst hthen => hfirst.trans hthen) (fun hstep hs => ProgressStep.sound hs hstep)
    (fun hstep hs => ?_) hsound
  rcases (ProgressStep.keeps hs hstep).2 lane with heq | ⟨record, heq, hrewrites⟩
  · rw [heq]
    exact .refl _
  · rw [heq]
    exact hrewrites.sameReceipt

/-- What a manager offers is in its own file. -/
theorem ProgressStep.offers {lane : Lane M} {operation : ProgressOperation M} {body : Bytes}
    (h : Answering schema system)
    (hstep : ProgressStep schema system (.acted lane (some operation)) system')
    (hoffers : operation.offers = some body) :
    system.state.files lane = some (body ++ [0x0a]) := by
  have hby := (hstep.allows h).1 operation rfl
  cases operation with
  | putIfAbsent accountId body' =>
      obtain rfl := Option.some.inj hoffers
      exact hby.2
  | abandon accountId body' =>
      obtain rfl := Option.some.inj hoffers
      exact hby.2
  | writePrivateJson lane' text => cases hoffers

/-- A file keeps its payload for good. A manager offers the store nothing but
what its own file has, and returns a record only when the store and its file
have it. -/
theorem receipts_durable {state : ProgressState M} {before after : List (ProgressEvent M T)}
    (hbefore : Run (ProgressStep schema) (Actors.initial state) before system)
    (hafter : Run (ProgressStep schema) system after system') :
    (∀ lane, SameReceipt schema (system.state.files lane) (system'.state.files lane)) ∧
    ∀ event next, ProgressStep schema system' event next →
      (∀ lane operation body, event = .acted lane (some operation) →
        operation.offers = some body → system'.state.files lane = some (body ++ [0x0a])) ∧
      ∀ lane request record, event = .finished lane request (.ok (some record)) →
        Acknowledged schema lane system'.state record := by
  have hsystem := ProgressStep.run_sound hbefore (Actors.initial_sound trivial)
  have hsystem' := ProgressStep.run_sound hafter hsystem
  refine ⟨ProgressStep.run_sameReceipt hafter hsystem, fun event next hstep => ⟨?_, ?_⟩⟩
  · rintro lane operation body rfl hoffers
    exact hstep.offers hsystem' hoffers
  · rintro lane request record rfl
    obtain ⟨call, -, hanswers⟩ := ProgressStep.answers hsystem' hstep
    exact (hanswers.acknowledged record rfl).1

/-- While the second manager reads, the file of the first keeps its record. -/
theorem receipts_durable_adopted : ∃ (before after : List SampleEvent)
    (system system' : ProgressSystem Bool String),
    Run (ProgressStep stoppedSchema) (Actors.initial sampleState) before system ∧
    system.state.files (sampleLane false) = some (stoppedSchema.line sampleReceipt) ∧
    Run (ProgressStep stoppedSchema) system after system' ∧ sampleFinished true ∈ after ∧
    ∃ text kept, system'.state.files (sampleLane false) = some text ∧
      stoppedSchema.parse text = some kept ∧ kept.intent = sampleReceipt.intent ∧
      kept.payload = "stopped" := by
  obtain ⟨first, second, system, system', hfirst, hfile, -, hsecond⟩ := sampleReads
  exact ⟨_, _, system, system', hfirst, hfile, hsecond,
    List.mem_append_right _ List.mem_cons_self,
    (receipts_durable hfirst hsecond).1 (sampleLane false) _ _ hfile
      (stoppedSchema.parse_line_admitted sampleReceipt_admitted)⟩

/-! ### Receipts that are written once -/

/-- All records that calls returned are one. A call that starts after one was
returned answers with it, so that it asks for this payload where it is a `retain`.
What the files say but for the time stays, a manager offers nothing but what its
own file has, and its file has the record that a call of it returns. -/
theorem receipts_writtenOnce {state : ProgressState M}
    (hrun : Run (ProgressStep schema) (Actors.initial state) events system) :
    (∀ {lane lane' : Lane M} {request request' : ProgressRequest T} {record record' : Receipt T},
      lane'.accountId = lane.accountId → .finished lane request (.ok (some record)) ∈ events →
      .finished lane' request' (.ok (some record')) ∈ events → record' = record) ∧
    (∀ {after : List (ProgressEvent M T)} {system' : ProgressSystem M T},
      Run (ProgressStep schema) system after system' →
      (∀ {lane lane' : Lane M} {request request' : ProgressRequest T} {record : Receipt T}
        {result : Option (Receipt T)}, lane'.accountId = lane.accountId →
        .finished lane request (.ok (some record)) ∈ events → system.running lane' = none →
        .finished lane' request' (.ok result) ∈ after →
          result = some record ∧ request'.Accepts record) ∧
      ∀ lane, SameReceipt schema (system.state.files lane) (system'.state.files lane)) ∧
    ∀ {event : ProgressEvent M T} {next : ProgressSystem M T},
      ProgressStep schema system event next →
      (∀ lane operation body, event = .acted lane (some operation) →
        operation.offers = some body → system.state.files lane = some (body ++ [0x0a])) ∧
      ∀ lane request record, event = .finished lane request (.ok (some record)) →
        system.state.files lane = some (schema.line record) := by
  have hinitial : Answering schema (Actors.initial state) := Actors.initial_sound trivial
  have hsystem := ProgressStep.run_sound hrun hinitial
  refine ⟨fun haccount hreturned hreturned' => ?_, fun hafter =>
    ⟨fun haccount hreturned hidle hlater => ?_, ProgressStep.run_sameReceipt hafter hsystem⟩,
    fun hstep => ⟨?_, ?_⟩⟩
  · exact (ProgressStep.published_of_mem hrun hinitial hreturned').unique
      ((ProgressStep.published_of_mem hrun hinitial hreturned).sameAccount haccount)
  · have hpublished := ProgressStep.published_of_mem hrun hinitial hreturned
    obtain ⟨bs, cs, u, u', hto, hstep, -⟩ := hafter.of_mem hlater
    obtain ⟨call, hrunning, hanswers⟩ :=
      ProgressStep.answers (ProgressStep.run_sound hto hsystem) hstep
    have hstart := (ProgressStep.run_startedAfter hto hsystem hidle).2 call hrunning
    have hresult := hanswers.started _ ((hpublished.keeps hstart).sameAccount haccount)
    exact ⟨hresult, (hanswers.acknowledged _ hresult).2⟩
  · rintro lane operation body rfl hoffers
    exact hstep.offers hsystem hoffers
  · rintro lane request record rfl
    obtain ⟨call, -, hanswers⟩ := ProgressStep.answers hsystem hstep
    exact (hanswers.acknowledged record rfl).1.2

/-- The second manager answers what the first has read, and its own file then
has the record. -/
theorem receipts_writtenOnce_adopted : ∃ (before after : List SampleEvent)
    (system system' : ProgressSystem Bool String),
    Run (ProgressStep stoppedSchema) (Actors.initial sampleState) before system ∧
    sampleFinished false ∈ before ∧ system.running (sampleLane true) = none ∧
    Run (ProgressStep stoppedSchema) system after system' ∧ sampleFinished true ∈ after ∧
    (∀ request result, .finished (sampleLane true) request (.ok result) ∈ after →
      result = some sampleReceipt ∧ request.Accepts sampleReceipt) ∧
    ∃ text kept, system'.state.files (sampleLane false) = some text ∧
      stoppedSchema.parse text = some kept ∧ kept.payload = "stopped" := by
  obtain ⟨first, second, system, system', hfirst, hfile, hidle, hsecond⟩ := sampleReads
  have hreturned : sampleFinished false ∈ first ++ [sampleFinished false] :=
    List.mem_append_right _ List.mem_cons_self
  have hlater : sampleFinished true ∈ second ++ [sampleFinished true] :=
    List.mem_append_right _ List.mem_cons_self
  obtain ⟨-, hlast, -⟩ := receipts_writtenOnce hfirst
  obtain ⟨hanswers, hfiles⟩ := hlast hsecond
  obtain ⟨text, kept, htext, hparse, -, hpayload⟩ := hfiles (sampleLane false) _ _ hfile
    (stoppedSchema.parse_line_admitted sampleReceipt_admitted)
  exact ⟨_, _, system, system', hfirst, hreturned, hidle, hsecond, hlater,
    fun _ _ hmem => hanswers (sampleAccount false true) hreturned hidle hmem, text, kept, htext, hparse,
    hpayload⟩

end

end PocketCoder.Purge
