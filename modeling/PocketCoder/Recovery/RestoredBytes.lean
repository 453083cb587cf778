import PocketCoder.Recovery.Completion

/-!
What a recovery that returns has removed.

The first pass marks every journaled checkpoint as deleted, and the guard of
the second pass then skips it, so the bytes that the restore brought back
stay. They are removed only on two other ways: the deletion was still
unfinished in the backup and is settled with the operations of the old
controller, or a purge of the workspace deletes its snapshots, whatever their
state.
-/

namespace PocketCoder.Recovery.Completion

open PocketCoder.Foundation PocketCoder.Journal

/-! ### What every step keeps -/

/-- The rows stay, checkpoints keep their references, bytes once removed and
reservations once released stay so. -/
structure Advances (database database' : Database) : Prop where
  principals : database'.principals = database.principals
  workspaces : database'.workspaces = database.workspaces
  journal : ∀ event ∈ database.journal, event ∈ database'.journal
  removed : ∀ id ∈ database.removed, id ∈ database'.removed
  succeeded : ∀ key ∈ database.succeeded, key ∈ database'.succeeded
  reservations : ∀ id ∈ database'.reservations, id ∈ database.reservations
  checkpoints : ∀ id row, database.checkpoints.get? id = some row → row.hasRef = true →
    ∃ state, database'.checkpoints.get? id = some { row with state }

theorem Advances.refl (database : Database) : Advances database database where
  principals := rfl
  workspaces := rfl
  journal _ h := h
  removed _ h := h
  succeeded _ h := h
  reservations _ h := h
  checkpoints _ row h _ := ⟨row.state, h⟩

theorem Advances.trans {database database' database'' : Database} (h : Advances database database')
    (h' : Advances database' database'') : Advances database database'' where
  principals := h'.principals.trans h.principals
  workspaces := h'.workspaces.trans h.workspaces
  journal event hevent := h'.journal event (h.journal event hevent)
  removed id hid := h'.removed id (h.removed id hid)
  succeeded key hkey := h'.succeeded key (h.succeeded key hkey)
  reservations id hid := h.reservations id (h'.reservations id hid)
  checkpoints id row hrow href := by
    obtain ⟨state, hrow'⟩ := h.checkpoints id row hrow href
    obtain ⟨state', hrow''⟩ := h'.checkpoints id _ hrow' href
    exact ⟨state', hrow''⟩

theorem Keeps.advances {database database' : Database} (h : Keeps database database') :
    Advances database database' where
  principals := h.principals
  workspaces := h.workspaces
  journal _ hevent := h.journal ▸ hevent
  removed := h.removed
  succeeded _ hkey := h.succeeded ▸ hkey
  reservations := h.reservations
  checkpoints := h.checkpoints

/-- A new state for one checkpoint. -/
theorem updateAt_checkpoints {table : Table Checkpoint.id} {k : String}
    {f : Checkpoint → Checkpoint} (hf : ∀ row, (f row).id = row.id)
    (hstate : ∀ row, ∃ state, f row = { row with state }) (id : String) (row : Checkpoint)
    (h : table.get? id = some row) :
    ∃ state, (table.updateAt k f hf).get? id = some { row with state } := by
  rw [Table.get?_updateAt]
  by_cases hid : id = k
  · obtain ⟨state, heq⟩ := hstate row
    rw [if_pos hid, ← hid, h, Option.map_some, heq]
    exact ⟨state, rfl⟩
  · rw [if_neg hid, h]
    exact ⟨row.state, rfl⟩

theorem Write.apply_advances (database : Database) (write : Write) :
    Advances database (write.apply database) := by
  cases write with
  | updateCheckpoint checkpointId state =>
      refine { Advances.refl database with checkpoints := fun id row hrow _ => ?_ }
      exact updateAt_checkpoints (f := fun row => { row with state }) (fun _ => rfl)
        (fun row => ⟨state, rfl⟩) id row hrow
  | deleteArchive checkpointId =>
      exact { Advances.refl database with
        removed := fun _ hid => List.mem_cons_of_mem _ hid
        reservations := fun _ hid => (List.mem_filter.mp hid).1 }
  | deleteSnapshot checkpointId =>
      exact { Advances.refl database with removed := fun _ hid => List.mem_cons_of_mem _ hid }

theorem writeAll_advances (database : Database) (writes : List Write) :
    Advances database (writeAll database writes) := by
  induction writes generalizing database with
  | nil => exact .refl _
  | cons write writes ih => exact (write.apply_advances database).trans (ih _)

theorem writeAll_operations (database : Database) (writes : List Write) :
    (writeAll database writes).operations = database.operations ∧
      (writeAll database writes).succeeded = database.succeeded := by
  induction writes generalizing database with
  | nil => exact ⟨rfl, rfl⟩
  | cons write writes ih =>
      obtain ⟨hoperations, hsucceeded⟩ := ih (write.apply database)
      refine ⟨hoperations.trans ?_, hsucceeded.trans ?_⟩ <;> cases write <;> rfl

/-- The bytes that the writes remove. -/
theorem mem_removed_writeAll {database : Database} {writes : List Write} {id : String}
    (h : .deleteSnapshot id ∈ writes ∨ .deleteArchive id ∈ writes) :
    id ∈ (writeAll database writes).removed := by
  induction writes generalizing database with
  | nil => exact h.elim (fun h => absurd h List.not_mem_nil) fun h => absurd h List.not_mem_nil
  | cons write writes ih =>
      have hrest := (writeAll_advances (write.apply database) writes).removed id
      rcases h with h | h
      · rcases List.mem_cons.mp h with rfl | h
        · exact hrest List.mem_cons_self
        · exact ih (.inl h)
      · rcases List.mem_cons.mp h with rfl | h
        · exact hrest List.mem_cons_self
        · exact ih (.inr h)

theorem settle_advances (database : Database)
    (key : String × OperationKind × IdempotencyKey) (state : OperationState) :
    Advances database (database.settle key state) := by
  refine { Advances.refl database with succeeded := fun other hother => ?_ }
  show other ∈ if state = .succeeded then _ else _
  split_ifs
  · exact List.mem_cons_of_mem _ hother
  · exact hother

theorem insertOperation_advances (database : Database) (operation : Operation) (time : Nat) :
    Advances database (insertOperation database operation time) := by
  unfold insertOperation
  split_ifs
  · exact .refl _
  · refine { Advances.refl database with journal := fun _ h => List.mem_append_left _ h,
                                         checkpoints := fun id row hrow _ => ?_ }
    dsimp only
    split
    · refine updateAt_checkpoints _ (fun row => ?_) id row hrow
      split_ifs
      · exact ⟨_, rfl⟩
      · exact ⟨row.state, rfl⟩
    · exact ⟨row.state, hrow⟩

theorem Exec.advances {deployment : Deployment} {attempt : Nat} {database database' : Database}
    {instruction : Instruction} {more : List Instruction}
    (h : Exec deployment attempt database instruction database' more) :
    Advances database database' := by
  cases h with
  | applyRecord =>
      rename_i event
      cases event with
      | checkpointDeleted principalId checkpointId time =>
          refine { Advances.refl database with checkpoints := fun id row hrow _ => ?_ }
          exact updateAt_checkpoints (f := fun row => { row with state := .deleted }) (fun _ => rfl)
            (fun row => ⟨_, rfl⟩) id row hrow
      | _ => exact .refl _
  | housekeeping hkeeps => exact hkeeps.advances
  | reconcileOther _ hkeeps => exact hkeeps.advances
  | reconcileDeletion | purged | purgePending | runDelete | deleteFailed =>
      exact (writeAll_advances _ _).trans (settle_advances _ _ _)
  | replayPurge | replayDelete => exact insertOperation_advances _ _ _
  | _ => exact .refl _

/-! ### Operations -/

theorem settle_get? (database : Database) (key key' : String × OperationKind × IdempotencyKey)
    (state : OperationState) :
    (database.settle key state).operations.get? key' =
      if key' = key then (database.operations.get? key).map fun operation => { operation with state }
      else database.operations.get? key' :=
  Table.get?_updateAt database.operations key (fun operation => { operation with state })
    (fun _ => rfl) key'

/-- An operation that is there stays. -/
theorem insertOperation_get? {database : Database} {operation other : Operation} {time : Nat}
    {key : String × OperationKind × IdempotencyKey}
    (h : (insertOperation database operation time).operations.get? key = some other) :
    database.operations.get? key = some other ∨ other = operation := by
  unfold insertOperation at h
  split_ifs at h
  · exact .inl h
  · rw [Table.get?_insert] at h
    rcases Option.or_eq_some_iff.mp h with hold | ⟨-, hnew⟩
    · exact .inl hold
    · split_ifs at hnew
      exact .inr (Option.some.inj hnew).symm

theorem insertOperation_of_get? {database : Database} {operation other : Operation} {time : Nat}
    {key : String × OperationKind × IdempotencyKey} (h : database.operations.get? key = some other) :
    (insertOperation database operation time).operations.get? key = some other := by
  unfold insertOperation
  split_ifs
  · exact h
  · rw [Table.get?_insert, h]
    rfl

theorem insertOperation_succeeded (database : Database) (operation : Operation) (time : Nat) :
    (insertOperation database operation time).succeeded = database.succeeded := by
  unfold insertOperation
  split_ifs <;> rfl

/-- A purge of this recovery is for the workspace of its key. -/
def Database.Recorded (database : Database) : Prop :=
  ∀ key operation, database.operations.get? key = some operation → operation.kind = .purge →
    ∀ workspaceId, operation.idempotencyKey = .recovery workspaceId →
      operation.workspaceId = some workspaceId ∧
        (operation.state = .succeeded → key ∈ database.succeeded)

theorem Database.Recorded.settle {database : Database} (h : database.Recorded)
    (key : String × OperationKind × IdempotencyKey) (state : OperationState) :
    (database.settle key state).Recorded := by
  intro key' operation hget hkind workspaceId hkey
  rw [settle_get?] at hget
  split_ifs at hget with hsame
  · obtain ⟨old, hold, rfl⟩ := Option.map_eq_some_iff.mp hget
    refine ⟨(h key old hold hkind workspaceId hkey).1, fun hstate => ?_⟩
    show key' ∈ if state = .succeeded then _ else _
    rw [if_pos hstate, hsame]
    exact List.mem_cons_self
  · obtain ⟨hworkspace, hsucceeded⟩ := h key' operation hget hkind workspaceId hkey
    exact ⟨hworkspace, fun hstate => (settle_advances database key state).succeeded _
      (hsucceeded hstate)⟩

theorem Database.Recorded.writeAll {database : Database} (h : database.Recorded)
    (writes : List Write) : (writeAll database writes).Recorded := by
  obtain ⟨hoperations, hsucceeded⟩ := writeAll_operations database writes
  rw [Database.Recorded, hoperations, hsucceeded]
  exact h

theorem Database.Recorded.insert {database : Database} (h : database.Recorded)
    {operation : Operation} {time : Nat} (hstate : operation.state ≠ .succeeded)
    (hworkspace : operation.kind = .purge → ∀ workspaceId,
      operation.idempotencyKey = .recovery workspaceId →
        operation.workspaceId = some workspaceId) :
    (insertOperation database operation time).Recorded := by
  intro key other hget hkind workspaceId hkey
  rw [insertOperation_succeeded]
  rcases insertOperation_get? hget with hold | rfl
  · exact h key other hold hkind workspaceId hkey
  · exact ⟨hworkspace hkind workspaceId hkey, fun hsucceeded => absurd hsucceeded hstate⟩

theorem Keeps.recorded {database database' : Database} (hkeeps : Keeps database database')
    (h : database.Recorded) : database'.Recorded := by
  intro key operation hget hkind
  rw [hkeeps.succeeded]
  exact h key operation (hkeeps.fresh key operation hget (.inr hkind)) hkind

theorem Exec.recorded {deployment : Deployment} {attempt : Nat} {database database' : Database}
    {instruction : Instruction} {more : List Instruction}
    (hexec : Exec deployment attempt database instruction database' more) (h : database.Recorded) :
    database'.Recorded := by
  cases hexec with
  | applyRecord =>
      rename_i event
      cases event <;> exact h
  | housekeeping hkeeps => exact hkeeps.recorded h
  | reconcileOther _ hkeeps => exact hkeeps.recorded h
  | reconcileDeletion | purged | purgePending | runDelete | deleteFailed =>
      exact (h.writeAll _).settle _ _
  | replayPurge =>
      refine h.insert (fun hstate => (nomatch hstate)) fun _ workspaceId hkey => ?_
      exact congrArg some (IdempotencyKey.recovery.inj hkey)
  | replayDelete => exact h.insert (fun hstate => (nomatch hstate)) fun hkind => (nomatch hkind)
  | _ => exact h

/-- The operations that an attempt is about to run. -/
structure Queued (todo : List Instruction) : Prop where
  purges : ∀ operation, .runPurge operation ∈ todo → operation.kind = .purge ∧
    ∀ workspaceId, operation.idempotencyKey = .recovery workspaceId →
      operation.workspaceId = some workspaceId
  deletes : ∀ operation, .runDelete operation ∈ todo → operation.kind = .delete ∧
    ∃ attempt checkpointId, operation.idempotencyKey = .attempt attempt checkpointId

theorem queued_of_none {todo : List Instruction}
    (hpurges : ∀ operation, .runPurge operation ∉ todo)
    (hdeletes : ∀ operation, .runDelete operation ∉ todo) : Queued todo :=
  ⟨fun operation h => absurd h (hpurges operation), fun operation h => absurd h (hdeletes operation)⟩

theorem Queued.append {todo more : List Instruction} (hmore : Queued more) (h : Queued todo) :
    Queued (more ++ todo) where
  purges operation hmem :=
    (List.mem_append.mp hmem).elim (hmore.purges operation) (h.purges operation)
  deletes operation hmem :=
    (List.mem_append.mp hmem).elim (hmore.deletes operation) (h.deletes operation)

theorem queued_completeRecovery (events : List JournalEvent) : Queued (completeRecovery events) := by
  refine queued_of_none ?_ ?_ <;> intro operation hmem <;>
    simp [completeRecovery] at hmem

theorem Exec.queued {deployment : Deployment} {attempt : Nat} {database database' : Database}
    {instruction : Instruction} {more : List Instruction}
    (hexec : Exec deployment attempt database instruction database' more) (h : database.Recorded) :
    Queued more := by
  have hrecorded := hexec.recorded h
  cases hexec with
  | reconcilePersistence =>
      refine queued_of_none ?_ ?_ <;> intro operation hmem <;> simp at hmem
  | retryPurges =>
      refine ⟨fun operation hmem => ?_, fun operation hmem => by simp at hmem⟩
      obtain ⟨other, hother, heq⟩ := List.mem_map.mp hmem
      cases heq
      obtain ⟨hrow, hfilter⟩ := List.mem_filter.mp hother
      rw [Bool.and_eq_true, decide_eq_true_eq] at hfilter
      exact ⟨hfilter.2, fun workspaceId hkey =>
        (h _ _ (Table.get?_of_mem hrow) hfilter.2 workspaceId hkey).1⟩
  | @replayPurge _ _ _ _ _ operation _ _ _ hget =>
      refine ⟨fun other hmem => ?_, fun other hmem => ?_⟩
      · have hother : other = operation := by
          split_ifs at hmem
          · simp at hmem
          · simpa using hmem
        rw [hother]
        have hkind : operation.kind = .purge := congrArg (fun key => key.2.1) (Table.key_of_get? hget)
        exact ⟨hkind, fun workspaceId hkey => (hrecorded _ _ hget hkind workspaceId hkey).1⟩
      · split_ifs at hmem <;> simp at hmem
  | @replayDelete principalId _ _ _ row =>
      refine ⟨fun other hmem => ?_, fun other hmem => ?_⟩
      · split_ifs at hmem <;> simp at hmem
      · have hother : other = deleteOperation attempt principalId row := by
          split_ifs at hmem
          · simp at hmem
          · simpa using hmem
        rw [hother]
        exact ⟨rfl, _, _, rfl⟩
  | _ => exact queued_of_none (fun _ => List.not_mem_nil) fun _ => List.not_mem_nil

/-! ### Deletions that the backup left unfinished -/

/-- A checkpoint whose deletion the backup has as unfinished, and which the
deployment can delete. -/
structure Unfinished (deployment : Deployment) (restored : Database) (operation : Operation)
    (row : Checkpoint) : Prop where
  kind : operation.kind = .delete
  key : ∃ key, operation.idempotencyKey = .caller key
  incomplete : operation.incomplete = true
  found : operation.checkpointId.bind restored.checkpoints.get? = some row
  hasRef : row.hasRef = true
  provider : if row.archive then deployment.checkpointTransfers = true
    else deployment.storageDriver = true ∧ row.id ∉ restored.reservations

/-- The bytes of a checkpoint are deleted, and no reservation is left. -/
def Gone (database : Database) (id : String) : Prop :=
  id ∈ database.removed ∧ id ∉ database.reservations

theorem Gone.mono {database database' : Database} {id : String} (h : Gone database id)
    (hadvances : Advances database database') : Gone database' id :=
  ⟨hadvances.removed id h.1, fun hid => h.2 (hadvances.reservations id hid)⟩

/-- The operation is still there, and the attempt will settle it. -/
structure Waiting (operation : Operation) (database : Database) (todo : List Instruction) :
    Prop where
  stored : database.operations.get? operation.key = some operation
  unique : ∀ other, .reconcileOperation other ∈ todo → other.key = operation.key →
    other = operation
  queued : todo ≠ [] → .reconcilePersistence ∈ todo ∨ .reconcileOperation operation ∈ todo

section Unfinished

variable {deployment : Deployment} {restored : Database} {operation : Operation} {row : Checkpoint}

/-- Settling an unfinished deletion removes the bytes. -/
theorem Unfinished.reconcile {database : Database} {writes : List Write}
    {state : Option OperationState} (h : Unfinished deployment restored operation row)
    (hadvances : Advances restored database)
    (hwrites : reconcileDeletion deployment database operation = some (writes, state)) :
    Gone (writeAll database writes) row.id := by
  obtain ⟨checkpointId, hcheckpoint, hrow⟩ := Option.bind_eq_some_iff.mp h.found
  obtain ⟨now, hnow⟩ := hadvances.checkpoints checkpointId row hrow h.hasRef
  have hprovider := h.provider
  rw [reconcileDeletion, hcheckpoint, Option.bind_some, hnow] at hwrites
  dsimp only at hwrites
  cases harchive : row.archive with
  | true =>
      rw [harchive, if_pos rfl] at hprovider
      rw [hprovider, harchive, Bool.and_self, if_pos rfl] at hwrites
      split_ifs at hwrites
      obtain ⟨rfl, -⟩ := Prod.mk.inj (Option.some.inj hwrites)
      refine ⟨mem_removed_writeAll (.inr List.mem_cons_self), fun hid => ?_⟩
      have hfilter : row.id ∈ database.reservations.filter fun id => id ≠ row.id := hid
      exact of_decide_eq_true (List.mem_filter.mp hfilter).2 rfl
  | false =>
      rw [harchive, if_neg Bool.false_ne_true] at hprovider
      rw [harchive, Bool.and_false, if_neg Bool.false_ne_true, hprovider.1, h.hasRef, Bool.and_self,
        if_pos rfl] at hwrites
      obtain ⟨rfl, -⟩ := Prod.mk.inj (Option.some.inj hwrites)
      refine ⟨mem_removed_writeAll (.inl List.mem_cons_self), fun hid => ?_⟩
      exact hprovider.2 (hadvances.reservations _ hid)

theorem Waiting.of_operations {database database' : Database} {instruction : Instruction}
    {rest more : List Instruction} (h : Waiting operation database (instruction :: rest))
    (hstored : database'.operations.get? operation.key = some operation)
    (hmore : ∀ other, .reconcileOperation other ∉ more)
    (hpersistence : instruction ≠ .reconcilePersistence)
    (hoperation : instruction ≠ .reconcileOperation operation) :
    Waiting operation database' (more ++ rest) where
  stored := hstored
  unique other hmem hkey := by
    rcases List.mem_append.mp hmem with hnew | hold
    · exact absurd hnew (hmore other)
    · exact h.unique other (List.mem_cons_of_mem _ hold) hkey
  queued _ := by
    rcases h.queued (List.cons_ne_nil _ _) with hmem | hmem
    · rcases List.mem_cons.mp hmem with heq | hmem
      · exact absurd heq.symm hpersistence
      · exact .inl (List.mem_append_right _ hmem)
    · rcases List.mem_cons.mp hmem with heq | hmem
      · exact absurd heq.symm hoperation
      · exact .inr (List.mem_append_right _ hmem)

/-- One instruction deletes the bytes, or the deletion waits on. -/
theorem Unfinished.exec {attempt : Nat} {database database' : Database} {instruction : Instruction}
    {rest more : List Instruction} (h : Unfinished deployment restored operation row)
    (hadvances : Advances restored database) (hqueued : Queued (instruction :: rest))
    (hwaiting : Waiting operation database (instruction :: rest))
    (hexec : Exec deployment attempt database instruction database' more) :
    Gone database' row.id ∨ Waiting operation database' (more ++ rest) := by
  obtain ⟨caller, hcaller⟩ := h.key
  -- settling another operation leaves this one as it is stored
  have hsettle : ∀ (writes : List Write) (other : Operation) (state : OperationState),
      other.key ≠ operation.key →
        ((writeAll database writes).settle other.key state).operations.get? operation.key =
          some operation := by
    intro writes other state hne
    rw [settle_get?, if_neg (Ne.symm hne), (writeAll_operations database writes).1]
    exact hwaiting.stored
  -- a purge has another kind, and a replayed deletion the key of an attempt, not of a caller
  have hpurge : ∀ other : Operation, other.kind = .purge → other.key ≠ operation.key := by
    intro other hkind hkey
    have hsame : other.kind = operation.kind := congrArg (fun key => key.2.1) hkey
    rw [hkind, h.kind] at hsame
    cases hsame
  have hdelete : ∀ other : Operation, .runDelete other ∈ instruction :: rest →
      other.key ≠ operation.key := by
    intro other hmem hkey
    obtain ⟨-, _, _, hattempt⟩ := hqueued.deletes other hmem
    have hsame : other.idempotencyKey = operation.idempotencyKey :=
      congrArg (fun key => key.2.2) hkey
    rw [hattempt, hcaller] at hsame
    cases hsame
  cases hexec with
  | applyRecord =>
      rename_i event
      refine .inr (hwaiting.of_operations ?_ (fun _ => List.not_mem_nil) (fun h => (by cases h))
        fun h => (by cases h))
      cases event <;> exact hwaiting.stored
  | housekeeping hkeeps =>
      exact .inr (hwaiting.of_operations
        (hkeeps.operations _ _ hwaiting.stored (.inl h.kind)) (fun _ => List.not_mem_nil)
        (fun h => (by cases h)) fun h => (by cases h))
  | reconcilePersistence =>
      refine .inr ⟨hwaiting.stored, fun other hmem hkey => ?_, fun _ => ?_⟩
      -- the operations to reconcile are read from the table, where keys are unique
      · rcases List.mem_append.mp hmem with hnew | hold
        · obtain ⟨found, hfound, heq⟩ := List.mem_map.mp hnew
          cases heq
          have hget := Table.get?_of_mem (List.mem_filter.mp hfound).1
          rw [hkey, hwaiting.stored] at hget
          exact (Option.some.inj hget).symm
        · exact hwaiting.unique other (List.mem_cons_of_mem _ hold) hkey
      · refine .inr (List.mem_append_left _ (List.mem_map_of_mem (List.mem_filter.mpr ⟨?_, ?_⟩)))
        · exact (Table.get?_eq_some.mp hwaiting.stored).1
        · exact h.incomplete
  | @reconcileDeletion other writes state hkind hwrites =>
      by_cases hkey : other.key = operation.key
      · obtain rfl := hwaiting.unique other List.mem_cons_self hkey
        exact .inl ((h.reconcile hadvances hwrites).mono (settle_advances _ _ _))
      · refine .inr (hwaiting.of_operations (hsettle _ _ _ hkey) (fun _ => List.not_mem_nil)
          (fun h => (by cases h)) fun heq => hkey ?_)
        rw [Instruction.reconcileOperation.inj heq]
  | @reconcileOther _ other hkind hkeeps =>
      refine .inr (hwaiting.of_operations (hkeeps.operations _ _ hwaiting.stored (.inl h.kind))
        (fun _ => List.not_mem_nil) (fun h => (by cases h)) fun heq => hkind ?_)
      rw [Instruction.reconcileOperation.inj heq]
      exact h.kind
  | retryPurges =>
      exact .inr (hwaiting.of_operations hwaiting.stored (fun _ hmem => by simp at hmem)
        (fun h => (by cases h)) fun h => (by cases h))
  | purged | purgePending =>
      refine .inr (hwaiting.of_operations (hsettle _ _ _ (hpurge _ ?_)) (fun _ => List.not_mem_nil)
        (fun h => (by cases h)) fun h => (by cases h))
      exact (hqueued.purges _ List.mem_cons_self).1
  | runDelete | deleteFailed =>
      exact .inr (hwaiting.of_operations (hsettle _ _ _ (hdelete _ List.mem_cons_self))
        (fun _ => List.not_mem_nil) (fun h => (by cases h)) fun h => (by cases h))
  | replayPurge | replayDelete =>
      refine .inr (hwaiting.of_operations (insertOperation_of_get? hwaiting.stored) ?_
        (fun h => (by cases h)) fun h => (by cases h))
      intro other hmem
      split_ifs at hmem <;> simp at hmem
  | _ =>
      exact .inr (hwaiting.of_operations hwaiting.stored (fun _ => List.not_mem_nil)
        (fun h => (by cases h)) fun h => (by cases h))

end Unfinished

/-! ### Purges -/

/-- A snapshot that a purge of its workspace finds. -/
structure Owned (restored : Database) (workspaceId : String) (row : Checkpoint) : Prop where
  stored : restored.checkpoints.get? row.id = some row
  hasRef : row.hasRef = true
  snapshot : row.archive = false
  workspace : ∃ workspace, restored.workspaces.get? workspaceId = some workspace ∧
    workspace.id = row.workspaceId ∧ workspace.principalId = row.principalId

/-- A purge that succeeds removes the snapshots of its workspace. -/
theorem Owned.purge {deployment : Deployment} {restored database : Database} {operation : Operation}
    {workspaceId : String} {row : Checkpoint} {writes : List Write}
    (h : Owned restored workspaceId row) (hadvances : Advances restored database)
    (hoperation : operation.workspaceId = some workspaceId)
    (hwrites : PurgeWrites deployment database operation writes) :
    row.id ∈ (writeAll database writes).removed := by
  obtain ⟨other, workspace, hother, hget, hpurge⟩ := hwrites
  obtain rfl := Option.some.inj (hother.symm.trans hoperation)
  obtain ⟨owner, howner, hid, hprincipal⟩ := h.workspace
  rw [hadvances.workspaces, howner] at hget
  obtain rfl := Option.some.inj hget
  obtain ⟨state, hrow⟩ := hadvances.checkpoints row.id row h.stored h.hasRef
  have howned : { row with state } ∈ ownedCheckpoints database owner := by
    refine List.mem_filter.mpr ⟨(Table.get?_eq_some.mp hrow).1, ?_⟩
    rw [Bool.and_eq_true, decide_eq_true_eq, decide_eq_true_eq]
    exact ⟨hprincipal.symm, hid.symm⟩
  unfold purgeStorage at hpurge
  dsimp only at hpurge
  split_ifs at hpurge with htransferred harchives hdriver hempty harchived
  · have harchive := List.all_eq_true.mp harchives _ howned
    rw [h.snapshot] at harchive
    exact absurd harchive Bool.false_ne_true
  · rw [List.isEmpty_iff] at hempty
    rw [hempty] at howned
    exact absurd howned List.not_mem_nil
  · obtain rfl := Option.some.inj hpurge
    refine mem_removed_writeAll (.inl (List.mem_flatMap.mpr ⟨_, howned, ?_⟩))
    dsimp only
    rw [if_pos h.hasRef]
    exact List.mem_cons_self

/-- What the attempts have done for each purge and each unfinished deletion. -/
structure Inv (deployment : Deployment) (restored : Database) (attempts : Attempts) : Prop where
  advances : Advances restored attempts.database
  recorded : attempts.database.Recorded
  queued : Queued attempts.todo
  deletion : ∀ operation row, Unfinished deployment restored operation row →
    restored.operations.get? operation.key = some operation →
      Gone attempts.database row.id ∨ Waiting operation attempts.database attempts.todo
  purge : ∀ principalId workspaceId time,
    .workspacePurged principalId workspaceId time ∈ restored.journal →
    restored.principals.contains principalId = true →
    (restored.workspaces.get? workspaceId).isSome = true →
      (purgeOperation principalId workspaceId).key ∈ attempts.database.succeeded ∨
        (attempts.todo ≠ [] →
          .replayDeletion (.workspacePurged principalId workspaceId time) ∈ attempts.todo ∨
            .settled (purgeOperation principalId workspaceId).key ∈ attempts.todo)
  purged : ∀ principalId workspaceId,
    (principalId, .purge, .recovery workspaceId) ∈ attempts.database.succeeded →
      ∀ row, Owned restored workspaceId row → row.id ∈ attempts.database.removed
  returned : attempts.returned = true →
    (∀ operation row, Unfinished deployment restored operation row →
      restored.operations.get? operation.key = some operation → Gone attempts.database row.id) ∧
    ∀ principalId workspaceId time,
      .workspacePurged principalId workspaceId time ∈ restored.journal →
      restored.principals.contains principalId = true →
      (restored.workspaces.get? workspaceId).isSome = true →
        (purgeOperation principalId workspaceId).key ∈ attempts.database.succeeded

variable {deployment : Deployment} {restored : Database} {attempts : Attempts}

/-- A database of a backup: nothing was done yet, and no key is one of this
recovery. -/
structure Restored (database : Database) : Prop where
  removed : database.removed = []
  succeeded : database.succeeded = []
  keys : ∀ key operation, database.operations.get? key = some operation →
    ∃ caller, operation.idempotencyKey = .caller caller

theorem Restored.inv (h : Restored restored) : Inv deployment restored (.initial restored) where
  advances := .refl _
  recorded key operation hget _ workspaceId hkey := by
    obtain ⟨caller, hcaller⟩ := h.keys key operation hget
    rw [hcaller] at hkey
    exact (nomatch hkey)
  queued := queued_of_none (fun _ => List.not_mem_nil) fun _ => List.not_mem_nil
  deletion operation row _ hget := .inr ⟨hget, fun _ hmem => absurd hmem List.not_mem_nil,
    fun hne => absurd rfl hne⟩
  purge _ _ _ _ _ _ := .inr fun hne => absurd rfl hne
  purged principalId workspaceId hmem := by
    have hnil : (principalId, .purge, .recovery workspaceId) ∈ restored.succeeded := hmem
    rw [h.succeeded] at hnil
    exact absurd hnil List.not_mem_nil
  returned hreturned := (nomatch hreturned)

/-- An attempt ends early: writes may have been made. -/
theorem Inv.stopped (h : Inv deployment restored attempts) (writes : List Write)
    (hreturned : attempts.returned = false) :
    Inv deployment restored
      { attempts with database := writeAll attempts.database writes, todo := [] } := by
  have hadvances := writeAll_advances attempts.database writes
  obtain ⟨hoperations, hsucceeded⟩ := writeAll_operations attempts.database writes
  refine ⟨h.advances.trans hadvances, h.recorded.writeAll writes,
    queued_of_none (fun _ => List.not_mem_nil) fun _ => List.not_mem_nil, ?_, ?_, ?_, ?_⟩
  · intro operation row hunfinished hget
    rcases h.deletion operation row hunfinished hget with hgone | hwaiting
    · exact .inl (hgone.mono hadvances)
    · refine .inr ⟨?_, fun _ hmem => absurd hmem List.not_mem_nil, fun hne => absurd rfl hne⟩
      rw [hoperations]
      exact hwaiting.stored
  · exact fun _ _ _ _ _ _ => .inr fun hne => absurd rfl hne
  · intro principalId workspaceId hmem row hrow
    rw [hsucceeded] at hmem
    exact hadvances.removed _ (h.purged principalId workspaceId hmem row hrow)
  · intro htrue
    rw [hreturned] at htrue
    exact absurd htrue Bool.false_ne_true

theorem Inv.start (h : Inv deployment restored attempts) (hreturned : attempts.returned = false) :
    Inv deployment restored
      { attempts with
        attempt := attempts.attempt + 1
        todo := completeRecovery attempts.database.journal } := by
  refine ⟨h.advances, h.recorded, queued_completeRecovery _, ?_, ?_, h.purged, ?_⟩
  · intro operation row hunfinished hget
    refine (h.deletion operation row hunfinished hget).imp_right fun hwaiting =>
      ⟨hwaiting.stored, fun other hmem => ?_, fun _ => .inl ?_⟩
    · simp [completeRecovery] at hmem
    · simp [completeRecovery]
  · intro principalId workspaceId time hevent _ _
    refine .inr fun _ => .inl ?_
    have hjournal := h.advances.journal _ hevent
    rw [completeRecovery]
    refine List.mem_append_left _ (List.mem_append_right _ ?_)
    exact List.mem_map_of_mem hjournal
  · intro htrue
    rw [hreturned] at htrue
    exact absurd htrue Bool.false_ne_true

/-- A purge that the journal asks for succeeds, or is still to be checked. -/
theorem Inv.purge_exec (h : Inv deployment restored attempts) {instruction : Instruction}
    {rest more : List Instruction} {database : Database}
    (htodo : attempts.todo = instruction :: rest)
    (hexec : Exec deployment attempts.attempt attempts.database instruction database more)
    {principalId workspaceId : String} {time : Nat}
    (hevent : .workspacePurged principalId workspaceId time ∈ restored.journal)
    (hprincipal : restored.principals.contains principalId = true)
    (hworkspace : (restored.workspaces.get? workspaceId).isSome = true) :
    (purgeOperation principalId workspaceId).key ∈ database.succeeded ∨
      .replayDeletion (.workspacePurged principalId workspaceId time) ∈ more ++ rest ∨
        .settled (purgeOperation principalId workspaceId).key ∈ more ++ rest := by
  have hadvances := hexec.advances
  -- the purge is done, or its record is still to be replayed, or its operation to be checked
  rcases h.purge principalId workspaceId time hevent hprincipal hworkspace with hdone | hpending
  · exact .inl (hadvances.succeeded _ hdone)
  rw [htodo] at hpending
  rcases hpending (List.cons_ne_nil _ _) with hmem | hmem
  · rcases List.mem_cons.mp hmem with heq | hmem
    · subst heq
      cases hexec with
      | replayUnknownPurge hunknown =>
          rcases hunknown with hunknown | hunknown
          · rw [h.advances.principals, hprincipal] at hunknown
            exact (nomatch hunknown)
          · rw [h.advances.workspaces] at hunknown
            rw [hunknown] at hworkspace
            exact (nomatch hworkspace)
      | @replayPurge _ _ _ _ _ operation _ _ _ hget =>
          rw [← Table.key_of_get? hget]
          exact .inr (.inr (List.mem_append_left _ (List.mem_append_right _ List.mem_cons_self)))
      | replayOther hpurge _ => exact absurd rfl (hpurge _ _ _)
    · exact .inr (.inl (List.mem_append_right _ hmem))
  · rcases List.mem_cons.mp hmem with heq | hmem
    · subst heq
      cases hexec with
      | settled hget hstate =>
          -- the check passes only when the operation has succeeded
          refine .inl ?_
          have hkey := Table.key_of_get? hget
          have hkind := congrArg (fun key => key.2.1) hkey
          have hidempotency := congrArg (fun key => key.2.2) hkey
          exact (h.recorded _ _ hget hkind workspaceId hidempotency).2 hstate
    · exact .inr (.inr (List.mem_append_right _ hmem))

/-- A purge that succeeds has removed the snapshots of its workspace. -/
theorem Inv.purged_exec (h : Inv deployment restored attempts) {instruction : Instruction}
    {rest more : List Instruction} {database : Database}
    (htodo : attempts.todo = instruction :: rest)
    (hexec : Exec deployment attempts.attempt attempts.database instruction database more)
    {principalId workspaceId : String}
    (hmem : (principalId, .purge, .recovery workspaceId) ∈ database.succeeded) {row : Checkpoint}
    (hrow : Owned restored workspaceId row) : row.id ∈ database.removed := by
  have hadvances := hexec.advances
  have hqueued : Queued (instruction :: rest) := htodo ▸ h.queued
  have hold : (principalId, .purge, .recovery workspaceId) ∈ attempts.database.succeeded →
      row.id ∈ database.removed := fun hmem =>
    hadvances.removed _ (h.purged principalId workspaceId hmem row hrow)
  -- a settled operation of another kind adds nothing
  have hsettle : ∀ (writes : List Write) (operation : Operation) (state : OperationState),
      operation.key ≠ (principalId, .purge, .recovery workspaceId) →
      (principalId, .purge, .recovery workspaceId) ∈
        ((writeAll attempts.database writes).settle operation.key state).succeeded →
          (principalId, .purge, .recovery workspaceId) ∈ attempts.database.succeeded := by
    intro writes operation state hne hmem
    rw [← (writeAll_operations attempts.database writes).2]
    have hcases : (principalId, .purge, .recovery workspaceId) ∈
        if state = .succeeded then operation.key :: (writeAll attempts.database writes).succeeded
        else (writeAll attempts.database writes).succeeded := hmem
    split_ifs at hcases
    · exact (List.mem_cons.mp hcases).resolve_left (Ne.symm hne)
    · exact hcases
  have hdelete : ∀ operation : Operation, operation.kind = .delete →
      operation.key ≠ (principalId, .purge, .recovery workspaceId) := by
    intro operation hkind hkey
    have hpurge : operation.kind = .purge := congrArg (fun key => key.2.1) hkey
    rw [hkind] at hpurge
    exact (nomatch hpurge)
  -- only a purge of this very workspace adds the key, and its writes removed the row
  cases hexec with
  | applyRecord =>
      rename_i event
      refine hold ?_
      cases event <;> exact hmem
  | housekeeping hkeeps => exact hold (hkeeps.succeeded ▸ hmem)
  | reconcileOther _ hkeeps => exact hold (hkeeps.succeeded ▸ hmem)
  | reconcileDeletion hkind => exact hold (hsettle _ _ _ (hdelete _ hkind) hmem)
  | @purged operation writes hwrites =>
      by_cases hkey : operation.key = (principalId, .purge, .recovery workspaceId)
      · have hoperation := (hqueued.purges operation List.mem_cons_self).2 workspaceId
          (congrArg (fun key => key.2.2) hkey)
        exact hrow.purge h.advances hoperation hwrites
      · exact hold (hsettle _ _ _ hkey hmem)
  | @purgePending operation writes n hwrites =>
      refine hold ?_
      rw [← (writeAll_operations attempts.database (writes.take n)).2]
      exact hmem
  | runDelete | deleteFailed =>
      exact hold (hsettle _ _ _ (hdelete _ (hqueued.deletes _ List.mem_cons_self).1) hmem)
  | replayPurge | replayDelete =>
      rw [insertOperation_succeeded] at hmem
      exact hold hmem
  | _ => exact hold hmem

theorem Inv.advance (h : Inv deployment restored attempts) {instruction : Instruction}
    {rest more : List Instruction} {database : Database}
    (htodo : attempts.todo = instruction :: rest) (hreturned : attempts.returned = false)
    (hexec : Exec deployment attempts.attempt attempts.database instruction database more) :
    Inv deployment restored { attempts with database, todo := more ++ rest } := by
  have hqueued : Queued (instruction :: rest) := htodo ▸ h.queued
  refine ⟨h.advances.trans hexec.advances, hexec.recorded h.recorded, ?_, ?_, ?_, ?_, ?_⟩
  · refine (hexec.queued h.recorded).append ⟨fun operation hmem => ?_, fun operation hmem => ?_⟩
    · exact hqueued.purges operation (List.mem_cons_of_mem _ hmem)
    · exact hqueued.deletes operation (List.mem_cons_of_mem _ hmem)
  · intro operation row hunfinished hget
    rcases h.deletion operation row hunfinished hget with hgone | hwaiting
    · exact .inl (hgone.mono hexec.advances)
    · exact hunfinished.exec h.advances hqueued (htodo ▸ hwaiting) hexec
  · intro principalId workspaceId time hevent hprincipal hworkspace
    exact (h.purge_exec htodo hexec hevent hprincipal hworkspace).imp_right fun hmem _ => hmem
  · exact fun principalId workspaceId hmem row hrow => h.purged_exec htodo hexec hmem hrow
  · intro htrue
    have hfalse : attempts.returned = true := htrue
    rw [hreturned] at hfalse
    exact absurd hfalse Bool.false_ne_true

/-- The attempt returns: nothing is left to wait for. -/
theorem Inv.finish (h : Inv deployment restored attempts)
    (htodo : attempts.todo = [.finishRecovery]) :
    Inv deployment restored { attempts with todo := [], returned := true } := by
  have hpurge : ∀ principalId workspaceId time,
      .workspacePurged principalId workspaceId time ∈ restored.journal →
      restored.principals.contains principalId = true →
      (restored.workspaces.get? workspaceId).isSome = true →
        (purgeOperation principalId workspaceId).key ∈ attempts.database.succeeded := by
    intro principalId workspaceId time hevent hprincipal hworkspace
    refine (h.purge principalId workspaceId time hevent hprincipal hworkspace).resolve_right
      fun hpending => ?_
    rw [htodo] at hpending
    rcases hpending (List.cons_ne_nil _ _) with hmem | hmem <;>
      exact (nomatch List.mem_singleton.mp hmem)
  have hdeletion : ∀ operation row, Unfinished deployment restored operation row →
      restored.operations.get? operation.key = some operation →
        Gone attempts.database row.id := by
    intro operation row hunfinished hget
    refine (h.deletion operation row hunfinished hget).resolve_right fun hwaiting => ?_
    rw [htodo] at hwaiting
    rcases hwaiting.queued (List.cons_ne_nil _ _) with hmem | hmem <;>
      exact (nomatch List.mem_singleton.mp hmem)
  exact ⟨h.advances, h.recorded,
    queued_of_none (fun _ => List.not_mem_nil) fun _ => List.not_mem_nil,
    fun operation row hunfinished hget => .inl (hdeletion operation row hunfinished hget),
    fun _ _ _ _ _ _ => .inr fun hne => absurd rfl hne, h.purged, fun _ => ⟨hdeletion, hpurge⟩⟩

theorem Inv.step {attempts' : Attempts} {action : Action}
    (h : Inv deployment restored attempts ∧ (attempts.returned = true → attempts.todo = []))
    (hstep : Step deployment attempts action attempts') :
    Inv deployment restored attempts' ∧ (attempts'.returned = true → attempts'.todo = []) := by
  obtain ⟨hinv, hended⟩ := h
  have hrunning : attempts.todo ≠ [] → attempts.returned = false := by
    intro hne
    cases hreturned : attempts.returned with
    | false => rfl
    | true => exact absurd (hended hreturned) hne
  cases hstep with
  | start _ hreturned =>
      refine ⟨hinv.start hreturned, fun htrue => ?_⟩
      exact absurd (hreturned.symm.trans htrue) Bool.false_ne_true
  | advance htodo hexec =>
      have hreturned := hrunning (htodo ▸ List.cons_ne_nil _ _)
      refine ⟨hinv.advance htodo hreturned hexec, fun htrue => ?_⟩
      exact absurd (hreturned.symm.trans htrue) Bool.false_ne_true
  | finish htodo => exact ⟨hinv.finish htodo, fun _ => rfl⟩
  | stop =>
      by_cases hreturned : attempts.returned = true
      · have htodo := hended hreturned
        obtain ⟨database, attempt, todo, returned⟩ := attempts
        subst htodo
        exact ⟨hinv, fun _ => rfl⟩
      · exact ⟨hinv.stopped [] (Bool.eq_false_iff.mpr hreturned), fun _ => rfl⟩
  | stopWithin n hwithin =>
      have hne : attempts.todo ≠ [] := by
        rcases hwithin with ⟨_, _, _, htodo, -⟩ | ⟨_, _, htodo, -⟩ | ⟨_, _, _, htodo, -⟩ <;>
          exact htodo ▸ List.cons_ne_nil _ _
      exact ⟨hinv.stopped _ (hrunning hne), fun _ => rfl⟩

/-! ### What a recovery guarantees -/

/-- The condition on a restored database and its journal. A journaled
checkpoint that the backup has undeleted, with bytes, is one whose deletion
the backup has as unfinished, or a snapshot of a workspace that the journal
purges; and the journal names the principals of its purges. -/
structure Recoverable (deployment : Deployment) (restored : Database) : Prop where
  checkpoints : ∀ principalId checkpointId time row,
    .checkpointDeleted principalId checkpointId time ∈ restored.journal →
    restored.checkpoints.get? checkpointId = some row → row.state ≠ .deleted → row.hasRef = true →
      (∃ operation, restored.operations.get? operation.key = some operation ∧
        Unfinished deployment restored operation row) ∨
      (Owned restored row.workspaceId row ∧ row.id ∉ restored.reservations ∧
        ∃ purger time', .workspacePurged purger row.workspaceId time' ∈ restored.journal)
  purges : ∀ principalId workspaceId time,
    .workspacePurged principalId workspaceId time ∈ restored.journal →
    (restored.workspaces.get? workspaceId).isSome = true →
      restored.principals.contains principalId = true

/-- A recovery that returns, after any number of interrupted attempts, has
removed the bytes of every journaled checkpoint and has purged every
journaled workspace, on the condition above. -/
theorem recovery_removes_bytes {actions : List Action} (hrestored : Restored restored)
    (hrecoverable : Recoverable deployment restored)
    (hrun : Run (Step deployment) (.initial restored) actions attempts)
    (hreturned : attempts.returned = true) :
    (∀ principalId checkpointId time row,
      .checkpointDeleted principalId checkpointId time ∈ restored.journal →
      restored.checkpoints.get? checkpointId = some row → row.state ≠ .deleted →
      row.hasRef = true →
        checkpointId ∈ attempts.database.removed ∧
          checkpointId ∉ attempts.database.reservations) ∧
    ∀ principalId workspaceId time,
      .workspacePurged principalId workspaceId time ∈ restored.journal →
      (restored.workspaces.get? workspaceId).isSome = true →
        (purgeOperation principalId workspaceId).key ∈ attempts.database.succeeded := by
  have hinitial : Inv deployment restored (.initial restored) := hrestored.inv
  have hinv := hrun.invariant (fun hstep h => Inv.step h hstep)
    ⟨hinitial, fun htrue => (nomatch htrue)⟩
  obtain ⟨hdeletions, hpurges⟩ := hinv.1.returned hreturned
  refine ⟨?_, ?_⟩
  · intro principalId checkpointId time row hevent hrow hstate href
    have hid : row.id = checkpointId := Table.key_of_get? hrow
    rw [← hid]
    -- an unfinished deletion of the backup removes the bytes, or the purge of the workspace does
    rcases hrecoverable.checkpoints principalId checkpointId time row hevent hrow hstate href with
      ⟨operation, hget, hunfinished⟩ | ⟨howned, hreservation, purger, time', hpurge⟩
    · exact hdeletions operation row hunfinished hget
    · obtain ⟨workspace, hworkspace, -⟩ := howned.workspace
      have hsome : (restored.workspaces.get? row.workspaceId).isSome = true := by
        rw [hworkspace]
        rfl
      have hsucceeded := hpurges purger row.workspaceId time' hpurge
        (hrecoverable.purges purger row.workspaceId time' hpurge hsome) hsome
      exact ⟨hinv.1.purged purger row.workspaceId hsucceeded row howned,
        fun hid => hreservation (hinv.1.advances.reservations _ hid)⟩
  · intro principalId workspaceId time hevent hworkspace
    exact hpurges principalId workspaceId time hevent
      (hrecoverable.purges principalId workspaceId time hevent hworkspace) hworkspace

/-- A backup with one workspace and one checkpoint that is ready. -/
def sampleDatabase (archive : Bool) (journal : List JournalEvent) : Database where
  principals := ["caller"]
  workspaces := Table.empty.insert ⟨"workspace", "caller", archive⟩
  checkpoints := Table.empty.insert ⟨"checkpoint", "caller", "workspace", .ready, true, archive⟩
  operations := Table.empty
  reservations := if archive then ["checkpoint"] else []
  journal := journal
  removed := []
  succeeded := []

theorem sampleDatabase_restored (archive : Bool) (journal : List JournalEvent) :
    Restored (sampleDatabase archive journal) where
  removed := rfl
  succeeded := rfl
  keys _ _ h := (nomatch h)

theorem Keeps.refl (database : Database) : Keeps database database where
  principals := rfl
  workspaces := rfl
  journal := rfl
  removed _ h := h
  succeeded := rfl
  reservations _ h := h
  checkpoints _ row h _ := ⟨row.state, h⟩
  operations _ _ h _ := h
  fresh _ _ h _ := h

def sampleJournal : List JournalEvent :=
  [.workspacePurged "caller" "workspace" 1, .checkpointDeleted "caller" "checkpoint" 2]

theorem sampleDatabase_recoverable :
    Recoverable ⟨false, true⟩ (sampleDatabase false sampleJournal) where
  checkpoints principalId checkpointId time row hevent hrow hstate href := by
    obtain ⟨hmem, -⟩ := Table.get?_eq_some.mp hrow
    obtain rfl := List.mem_singleton.mp hmem
    refine .inr ⟨⟨rfl, rfl, rfl, _, rfl, rfl, rfl⟩, List.not_mem_nil, "caller", 1, ?_⟩
    exact List.mem_cons_self
  purges principalId workspaceId time hevent _ := by
    rcases List.mem_cons.mp hevent with heq | hmem
    · cases heq
      rfl
    · exact (nomatch List.mem_singleton.mp hmem)

/-- The snapshot of a purged workspace is deleted, also after an attempt that
was interrupted. -/
theorem recovery_removes_bytes_sample :
    ∃ attempts : Attempts,
      Run (Step ⟨false, true⟩) (.initial (sampleDatabase false sampleJournal))
        ([.start, .advance, .stop, .start] ++ List.replicate 10 .advance) attempts ∧
      attempts.returned = true ∧ "checkpoint" ∈ attempts.database.removed := by
  have hrun : ∃ attempts : Attempts,
      Run (Step ⟨false, true⟩) (.initial (sampleDatabase false sampleJournal))
        ([.start, .advance, .stop, .start] ++ List.replicate 10 .advance) attempts ∧
      attempts.returned = true := by
    refine ⟨_, .cons (.start rfl rfl) (.cons (.advance rfl .applyRecord) (.cons .stop
      (.cons (.start rfl rfl) (.cons (.advance rfl .applyRecord) (.cons (.advance rfl .applyRecord)
      (.cons (.advance rfl (.housekeeping (.refl _))) (.cons (.advance rfl .reconcilePersistence)
      (.cons (.advance rfl .retryPurges)
      (.cons (.advance rfl (@Exec.replayPurge _ _ _ _ _ _ 3 _ _ rfl rfl rfl rfl))
      (.cons (.advance rfl (.purged ⟨"workspace", _, rfl, rfl, rfl⟩))
      (.cons (.advance rfl (.settled rfl rfl)) (.cons (.advance rfl (.replayDeleted (.inr ?_)))
      (.cons (.finish rfl) (.nil _)))))))))))))), rfl⟩
    intro row hrow
    obtain rfl := Option.some.inj hrow
    rfl
  obtain ⟨attempts, hrun, hreturned⟩ := hrun
  refine ⟨attempts, hrun, hreturned, ?_⟩
  exact ((recovery_removes_bytes (sampleDatabase_restored false sampleJournal)
    sampleDatabase_recoverable hrun hreturned).1 "caller" "checkpoint" 2 _
      (List.mem_cons_of_mem _ List.mem_cons_self) rfl (fun h => (nomatch h)) rfl).1

/-- The archive of a journaled checkpoint stays after the recovery. -/
theorem recovery_keeps_archive :
    ∃ attempts : Attempts,
      Run (Step ⟨true, false⟩)
        (.initial (sampleDatabase true [.checkpointDeleted "caller" "checkpoint" 2]))
        (.start :: List.replicate 6 .advance) attempts ∧
      attempts.returned = true ∧ "checkpoint" ∉ attempts.database.removed := by
  refine ⟨_, .cons (.start rfl rfl) (.cons (.advance rfl .applyRecord)
    (.cons (.advance rfl (.housekeeping (.refl _))) (.cons (.advance rfl .reconcilePersistence)
    (.cons (.advance rfl .retryPurges) (.cons (.advance rfl (.replayDeleted (.inr ?_)))
    (.cons (.finish rfl) (.nil _))))))), rfl, List.not_mem_nil⟩
  intro row hrow
  obtain rfl := Option.some.inj hrow
  rfl

end PocketCoder.Recovery.Completion
