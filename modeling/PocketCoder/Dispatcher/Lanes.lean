import PocketCoder.Dispatcher.Handover

/-!
The maps of the dispatcher are true: every task believes what it may, only
executions that can be reconciled are queued with an epoch, and an execution
that waits for capacity was not sent, is settled, or has its accept open.

Each operation on the maps keeps that, and so does the step of a task, as
long as no accept fails while its execution counts as waiting.
-/

namespace PocketCoder.Dispatcher

open PocketCoder.Foundation PocketCoder.Workspaces PocketCoder.Executions

/-! ### The memory -/

/-- A record that may be queued or started. -/
structure Startable (db : Database) (key : Key) (record : ExecutionRecord) (epoch : Option Nat) :
    Prop where
  known : Known db record.acceptance
  key : key = executionInputManifestId record.acceptance
  epoch : epoch.isSome = true → Reconcilable db record.acceptance

/-- The records a scan has read. -/
def Scan.records : Scan → List ExecutionRecord
  | .idle | .readProcesses => []
  | .readRequests processes => processes
  | .handle pending => pending

/-- What the maps say is true. -/
structure Memory.Sound (db : Database) (handed : List WorkloadExecutionReference)
    (memory : Memory) : Prop where
  tasks : ∀ {control key task}, (memory.lane control).get key = some task →
    TaskSound db handed control key task
  queued : ∀ {key item}, memory.queued.get key = some item →
    Startable db key item.record item.epoch
  absences : ∀ {key epoch}, memory.absences.get key = some epoch →
    ∃ acceptance, Known db acceptance ∧ key = executionInputManifestId acceptance ∧
      Reconcilable db acceptance
  scan : ∀ record ∈ memory.scan.records, Known db record.acceptance
  /-- An execution waits for capacity before it is sent, after it is settled,
  or while its accept is open. -/
  waits : ∀ {acceptance}, Known db acceptance →
    memory.capacityWaits.has (executionInputManifestId acceptance) = true →
    Unsent db handed acceptance ∨ Settled db acceptance ∨
      ∃ task, memory.ordinary.get (executionInputManifestId acceptance) = some task ∧
        task.point.handed = true

theorem Memory.lane_setLane (memory : Memory) (control control' : Bool) (lane : JsMap Key Task) :
    (memory.setLane control lane).lane control' =
      if control' = control then lane else memory.lane control' := by
  cases control <;> cases control' <;> rfl

theorem Memory.initial_sound (db : Database) (handed : List WorkloadExecutionReference) :
    Memory.initial.Sound db handed where
  tasks {control key task} h := by cases control <;> exact (nomatch h)
  queued h := (nomatch h)
  absences h := (nomatch h)
  scan record h := (nomatch h)
  waits _ h := (nomatch h)

namespace Memory.Sound

variable {db : Database} {handed : List WorkloadExecutionReference} {memory : Memory}

/-- A lane changes at one key, where no accept is open before or one is after. -/
theorem setLane (h : memory.Sound db handed) {control : Bool} (key : Key)
    {lane : JsMap Key Task}
    (hother : ∀ key', key' ≠ key → lane.get key' = (memory.lane control).get key')
    (hnew : ∀ task, lane.get key = some task → TaskSound db handed control key task)
    (hidle : ∀ task, (memory.lane control).get key = some task → task.point.handed = false) :
    (memory.setLane control lane).Sound db handed where
  tasks {control' key' task} htask := by
    rw [Memory.lane_setLane] at htask
    split_ifs at htask with hcontrol
    · by_cases hkey : key' = key
      · rw [hkey] at htask
        rw [hkey, hcontrol]
        exact hnew task htask
      · rw [hother key' hkey] at htask
        rw [hcontrol]
        exact h.tasks htask
    · exact h.tasks htask
  queued hitem := h.queued (by cases control <;> exact hitem)
  absences hepoch := by cases control <;> exact h.absences hepoch
  scan record hrecord := h.scan record (by cases control <;> exact hrecord)
  waits {acceptance} hknown hwait := by
    have hwait' : memory.capacityWaits.has (executionInputManifestId acceptance) = true := by
      cases control <;> exact hwait
    refine (h.waits hknown hwait').imp_right (Or.imp_right ?_)
    rintro ⟨task, htask, hhanded⟩
    refine ⟨task, ?_, hhanded⟩
    cases control with
    | true => exact htask
    | false =>
        show lane.get (executionInputManifestId acceptance) = some task
        rw [hother _ fun hkey => ?_]
        · exact htask
        · have hopen := hidle task (hkey ▸ htask)
          exact absurd (hopen.symm.trans hhanded) (by simp)

/-- The maps that are not mentioned do not matter. -/
theorem withQueued (h : memory.Sound db handed) {queued : JsMap Key QueuedItem}
    (hqueued : ∀ {key item}, queued.get key = some item →
      Startable db key item.record item.epoch) :
    { memory with queued }.Sound db handed :=
  ⟨h.tasks, hqueued, h.absences, h.scan, h.waits⟩

theorem start (h : memory.Sound db handed) {record : ExecutionRecord} {control : Bool}
    {epoch : Option Nat} (now : Nat)
    (hstart : Startable db (executionInputManifestId record.acceptance) record epoch) :
    (memory.start record control epoch now).Sound db handed := by
  unfold Memory.start
  dsimp only
  split_ifs with hhas
  · exact h
  · have hnone : (memory.lane control).get (executionInputManifestId record.acceptance) = none := by
      simpa [JsMap.has] using hhas
    refine h.setLane (executionInputManifestId record.acceptance) ?_ ?_ ?_
    · intro key' hkey
      rw [JsMap.get_set, if_neg hkey]
    · intro task htask
      rw [JsMap.get_set, if_pos rfl, Option.some.injEq] at htask
      rw [← htask]
      exact ⟨hstart.known, rfl, rfl, hstart.epoch, trivial⟩
    · intro task htask
      rw [hnone] at htask
      cases htask

theorem cancel (h : memory.Sound db handed) {record : ExecutionRecord} (now : Nat)
    (hknown : Known db record.acceptance) : (memory.cancel record now).Sound db handed := by
  unfold Memory.cancel
  split_ifs
  · exact h.start now ⟨hknown, rfl, fun hsome => (nomatch hsome)⟩
  · exact h

theorem pumpItem (h : memory.Sound db handed) (concurrency now : Nat) {entry : Key × QueuedItem}
    (hentry : Startable db entry.1 entry.2.record entry.2.epoch) :
    (memory.pumpItem concurrency now entry).Sound db handed := by
  unfold Memory.pumpItem
  dsimp only
  have hdelete : { memory with queued := memory.queued.delete entry.1 }.Sound db handed := by
    refine h.withQueued fun {key item} hitem => ?_
    rw [JsMap.get_delete] at hitem
    split_ifs at hitem
    exact h.queued hitem
  split_ifs
  · exact h
  · exact hdelete
  · exact hdelete.start now ⟨hentry.known, rfl, hentry.epoch⟩

theorem foldl {β : Type} {f : Memory → β → Memory} {P : β → Prop}
    (hstep : ∀ {memory : Memory} {b : β}, memory.Sound db handed → P b →
      (f memory b).Sound db handed)
    {items : List β} (hitems : ∀ b ∈ items, P b) (h : memory.Sound db handed) :
    (items.foldl f memory).Sound db handed := by
  induction items generalizing memory with
  | nil => exact h
  | cons b items ih =>
      refine ih (fun b' hb' => hitems b' (List.mem_cons_of_mem b hb')) ?_
      exact hstep h (hitems b List.mem_cons_self)

theorem pump (h : memory.Sound db handed) (canDispatch : Bool) (concurrency now : Nat) :
    (memory.pump canDispatch concurrency now).Sound db handed := by
  unfold Memory.pump
  split_ifs
  · exact foldl (P := fun entry => Startable db entry.1 entry.2.record entry.2.epoch)
      (fun hmemory hentry => hmemory.pumpItem concurrency now hentry)
      (fun entry hentry => h.queued (JsMap.get_of_mem hentry)) h
  · exact h.withQueued fun hitem => (nomatch hitem)

/-! ### Failures and scans -/

theorem settled (h : memory.Sound db handed) (failureKey : Key × Bool) :
    (memory.settled failureKey).Sound db handed :=
  ⟨h.tasks, h.queued, h.absences, h.scan, h.waits⟩

theorem failed (h : memory.Sound db handed) (failureKey : Key × Bool) (workspaceId : String)
    (now : Nat) : (memory.failed failureKey workspaceId now).Sound db handed :=
  ⟨h.tasks, h.queued, h.absences, h.scan, h.waits⟩

theorem reconcileFailures (h : memory.Sound db handed) (pending : List ExecutionRecord) :
    (memory.reconcileFailures pending).Sound db handed := by
  unfold Memory.reconcileFailures
  dsimp only
  have hfold : (memory.failures.entries.rows.foldl (reconcileFailure
      (pending.map fun record => executionInputManifestId record.acceptance)) memory).Sound
      db handed := by
    refine foldl (P := fun _ => True) (fun {memory entry} hmemory _ => ?_) (fun _ _ => trivial) h
    unfold reconcileFailure
    split_ifs
    · exact hmemory.settled entry.1
    · exact hmemory
  refine ⟨hfold.tasks, hfold.queued, hfold.absences, hfold.scan, fun hknown hwait =>
    hfold.waits hknown ?_⟩
  -- Waits are only deleted.
  obtain ⟨since, hsince⟩ := JsMap.has_eq_true.mp hwait
  refine JsMap.has_eq_true.mpr ⟨since, JsMap.get_of_foldl (fun {waits entry _} hget => ?_) hsince⟩
  split_ifs at hget
  · exact hget
  · rw [JsMap.get_delete] at hget
    split_ifs at hget
    exact hget

theorem scanRecord (h : memory.Sound db handed) (now : Nat) {record : ExecutionRecord}
    (hknown : Known db record.acceptance) : (memory.scanRecord now record).Sound db handed := by
  unfold Memory.scanRecord
  dsimp only
  split_ifs
  · exact h.cancel now hknown
  · refine h.withQueued fun {key item} hitem => ?_
    rw [JsMap.get_set] at hitem
    split_ifs at hitem with hkey
    · obtain rfl := Option.some.inj hitem
      exact ⟨hknown, hkey, fun hsome => (by cases hsome)⟩
    · exact h.queued hitem
  · exact h
  · exact h

theorem scanRecords (now : Nat) (answers : ExecutionRecord → Bool) {pending : List ExecutionRecord}
    (hpending : ∀ record ∈ pending, Known db record.acceptance) (h : memory.Sound db handed) :
    (Memory.scanRecords now answers pending memory).1.Sound db handed := by
  induction pending generalizing memory with
  | nil => exact h
  | cons record pending ih =>
      rw [Memory.scanRecords]
      split_ifs
      · exact ih (fun record' hrecord' => hpending record' (List.mem_cons_of_mem record hrecord'))
          (h.scanRecord now (hpending record List.mem_cons_self))
      · exact h

theorem withScan (h : memory.Sound db handed) {scan : Scan} {dirty : Bool}
    (hscan : ∀ record ∈ scan.records, Known db record.acceptance) :
    { memory with scan, dirty }.Sound db handed :=
  ⟨h.tasks, h.queued, h.absences, hscan, h.waits⟩

theorem endScan (h : memory.Sound db handed) (canDispatch : Bool) :
    (memory.endScan canDispatch).Sound db handed := by
  unfold Memory.endScan
  split_ifs
  · exact h.withScan fun record hrecord => (nomatch hrecord)
  · exact h.withScan fun record hrecord => (nomatch hrecord)

theorem scanPending (h : memory.Sound db handed) {pending : List ExecutionRecord}
    (hpending : ∀ record ∈ pending, Known db record.acceptance)
    (answers : ExecutionRecord → Bool) (canDispatch : Bool) (concurrency now : Nat) :
    (memory.scanPending pending answers canDispatch concurrency now).Sound db handed := by
  have hscanned := scanRecords now answers hpending (h.reconcileFailures pending)
  unfold Memory.scanPending
  dsimp only
  split_ifs
  · exact (hscanned.pump canDispatch concurrency now).endScan canDispatch
  · exact hscanned.endScan canDispatch

theorem tick (h : memory.Sound db handed) (canDispatch : Bool) :
    (memory.tick canDispatch).Sound db handed := by
  unfold Memory.tick
  split_ifs
  · split
    · exact h.withScan fun record hrecord => (nomatch hrecord)
    · exact h.withScan h.scan
  · exact h

/-! ### Tasks and calls -/

theorem recordResult (h : memory.Sound db handed) (control : Bool) (key : Key) (task : Task)
    (result : TaskResult) (now : Nat) :
    (memory.recordResult control key task result now).Sound db handed := by
  unfold Memory.recordResult
  split
  · dsimp only
    split_ifs
    · exact ((h.settled _).settled _).settled _
    · exact h.settled _
  · exact h
  · exact h
  · exact h.failed _ _ _

theorem leave (h : memory.Sound db handed) {control : Bool} {key : Key} {task : Task}
    (htask : (memory.lane control).get key = some task) (hidle : task.point.handed = false) :
    (memory.leave control key).Sound db handed := by
  have hlane : (memory.setLane control ((memory.lane control).delete key)).Sound db handed := by
    refine h.setLane key ?_ ?_ ?_
    · intro key' hkey
      rw [JsMap.get_delete, if_neg hkey]
    · intro task' htask'
      rw [JsMap.get_delete, if_pos rfl] at htask'
      exact (nomatch htask')
    · intro task' htask'
      obtain rfl := Option.some.inj (htask.symm.trans htask')
      exact hidle
  unfold Memory.leave
  dsimp only
  split_ifs
  · exact hlane
  · refine ⟨hlane.tasks, hlane.queued, fun {key' epoch} hepoch => ?_, hlane.scan, hlane.waits⟩
    rw [JsMap.get_delete] at hepoch
    split_ifs at hepoch
    exact hlane.absences hepoch

theorem requeue (h : memory.Sound db handed) {control : Bool} {key : Key} {task : Task}
    {replayEpoch : Option Nat}
    (hstart : ∀ epoch, replayEpoch = some epoch → Startable db key task.origin (some epoch))
    (canDispatch : Bool) :
    (memory.requeue control key task replayEpoch canDispatch).Sound db handed := by
  unfold Memory.requeue
  split
  · rename_i epoch
    split_ifs
    · refine h.withQueued fun {key' item} hitem => ?_
      rw [JsMap.get_set] at hitem
      split_ifs at hitem with hkey
      · obtain rfl := Option.some.inj hitem
        rw [hkey]
        exact hstart epoch rfl
      · exact h.queued hitem
    · exact h
  · exact h

/-- The `finally` of a task. Only an execution that can be reconciled is
queued again with an epoch. -/
theorem release (hsound : db.Sound) (h : memory.Sound db handed) {control : Bool} {key : Key}
    {task : Task} (htask : (memory.lane control).get key = some task)
    (hidle : task.point.handed = false) (canDispatch : Bool) (concurrency now : Nat) :
    (memory.release control key task canDispatch concurrency now).Sound db handed := by
  have hbelief := h.tasks htask
  refine pump (requeue (h.leave htask hidle) (fun epoch hepoch => ?_) canDispatch) canDispatch
    concurrency now
  obtain ⟨acceptance, hknown, hkey, hreconcilable⟩ := h.absences hepoch
  have hexecution : acceptance.execution = task.record.acceptance.execution :=
    congrArg InputManifestId.execution (hkey.symm.trans hbelief.key)
  obtain rfl := hknown.unique hsound.owned hbelief.known hexecution
  refine ⟨?_, ?_, fun _ => ?_⟩
  · rw [hbelief.origin]
    exact hknown
  · rw [hbelief.origin]
    exact hbelief.key
  · rw [hbelief.origin]
    exact hreconcilable

theorem drain (h : memory.Sound db handed) (workspaceId : String) :
    (memory.drain workspaceId).Sound db handed := by
  refine h.withQueued fun {key item} hitem => h.queued ?_
  refine JsMap.get_of_foldl (fun {queued entry _} hget => ?_) hitem
  split_ifs at hget
  · rw [JsMap.get_delete] at hget
    split_ifs at hget
    exact hget
  · exact hget

theorem absent (h : memory.Sound db handed) {record : ExecutionRecord} (epoch : Nat)
    (hknown : Known db record.acceptance) (hreconcilable : Reconcilable db record.acceptance)
    (canDispatch : Bool) (concurrency now : Nat) :
    (memory.absent record epoch canDispatch concurrency now).Sound db handed := by
  unfold Memory.absent
  dsimp only
  split_ifs
  · refine ⟨h.tasks, h.queued, fun {key' epoch'} hepoch => ?_, h.scan, h.waits⟩
    rw [JsMap.get_set] at hepoch
    split_ifs at hepoch with hkey
    · exact ⟨record.acceptance, hknown, hkey, hreconcilable⟩
    · exact h.absences hepoch
  · refine pump (h.withQueued fun {key' item} hitem => ?_) canDispatch concurrency now
    rw [JsMap.get_set] at hitem
    split_ifs at hitem with hkey
    · obtain rfl := Option.some.inj hitem
      exact ⟨hknown, hkey, fun _ => hreconcilable⟩
    · exact h.queued hitem
  · exact h

end Memory.Sound

/-! ### Steps of a task -/

theorem TaskSound.mono {db db' : Database} {handed handed' : List WorkloadExecutionReference}
    {control : Bool} {key : Key} {task : Task} (hadvances : Advances db db')
    (hhanded : control = false → Unsent db handed task.record.acceptance →
      Unsent db' handed' task.record.acceptance)
    (h : TaskSound db handed control key task) : TaskSound db' handed' control key task where
  known := h.known.mono hadvances
  origin := h.origin
  key := h.key
  epoch hsome := hadvances.reconcilable (h.epoch hsome)
  point := h.point.mono hadvances hhanded

theorem Startable.mono {db db' : Database} {key : Key} {record : ExecutionRecord}
    {epoch : Option Nat} (hadvances : Advances db db') (h : Startable db key record epoch) :
    Startable db' key record epoch :=
  ⟨h.known.mono hadvances, h.key, fun hsome => hadvances.reconcilable (h.epoch hsome)⟩

/-- The maps stay true while transactions of others go on. -/
theorem Memory.Sound.mono {db db' : Database} {handed : List WorkloadExecutionReference}
    {memory : Memory} (hadvances : Advances db db')
    (hold : ∀ {acceptance}, Known db' acceptance → handed.count acceptance.execution ≠ 0 →
      Known db acceptance)
    (h : memory.Sound db handed) : memory.Sound db' handed where
  tasks htask := (h.tasks htask).mono hadvances fun _ => Unsent.mono hadvances
  queued hitem := (h.queued hitem).mono hadvances
  absences hepoch := by
    obtain ⟨acceptance, hknown, hkey, hreconcilable⟩ := h.absences hepoch
    exact ⟨acceptance, hknown.mono hadvances, hkey, hadvances.reconcilable hreconcilable⟩
  scan record hrecord := (h.scan record hrecord).mono hadvances
  waits {acceptance} hknown hwait := by
    by_cases hcount : handed.count acceptance.execution = 0
    · exact .inl (.inr hcount)
    · rcases h.waits (hold hknown hcount) hwait with hunsent | hsettled | hopen
      · exact .inl (hunsent.mono hadvances)
      · exact .inr (.inl (hsettled.mono hadvances))
      · exact .inr (.inr hopen)

section Progress

variable {db : Database} {handed : List WorkloadExecutionReference} {memory : Memory}
  {control : Bool} {key : Key} {task : Task} {progress : Progress}
  (hsound : db.Sound) (htask : TaskSound db handed control key task)
  (hprogress : progress.Sound db handed control task)

include hsound htask hprogress

/-- A step of a task does not send another execution. -/
theorem Unsent.progress_other {acceptance : WorkloadAcceptance} (hknown : Known db acceptance)
    (hother : acceptance ≠ task.record.acceptance) (h : Unsent db handed acceptance) :
    Unsent progress.db (handed ++ progress.handed.toList) acceptance := by
  refine h.imp (advances_of_refines hprogress.refines hsound).reconcilable fun hcount => ?_
  rcases hprogress.hands with hnone | ⟨hsome, -⟩
  · rw [hnone, Option.toList_none, List.append_nil]
    exact hcount
  · rw [hsome, Option.toList_some, List.count_append, hcount, Nat.zero_add,
      List.count_singleton, if_neg]
    intro hexecution
    exact hother (hknown.unique hsound.owned htask.known (eq_of_beq hexecution).symm)

omit htask in
/-- A step of a task that sends nothing keeps its own execution unsent. -/
theorem Unsent.progress_none (hnone : progress.handed = none) {acceptance : WorkloadAcceptance}
    (h : Unsent db handed acceptance) :
    Unsent progress.db (handed ++ progress.handed.toList) acceptance := by
  rw [hnone, Option.toList_none, List.append_nil]
  exact h.mono (advances_of_refines hprogress.refines hsound)

theorem TaskSound.advance : TaskSound progress.db (handed ++ progress.handed.toList) control key
    progress.task := by
  have hadvances := advances_of_refines hprogress.refines hsound
  refine ⟨?_, ?_, ?_, ?_, ?_⟩
  · rw [hprogress.acceptance]
    exact htask.known.mono hadvances
  · rw [hprogress.origin, hprogress.acceptance]
    exact htask.origin
  · rw [hprogress.acceptance]
    exact htask.key
  · rw [hprogress.acceptance]
    exact hprogress.epoch
  · rw [hprogress.acceptance]
    exact hprogress.point

/-- The waits after the step of a task, at the execution of the task. -/
theorem wait_progress (h : memory.Sound db handed)
    (hget : (memory.lane control).get key = some task)
    (hlost : task.point.handed = true → progress.task.point.thrown = true →
      memory.capacityWaits.has key = true → Settled db task.record.acceptance)
    (hwait : (progress.wait.apply memory.capacityWaits).has key = true) :
    Unsent progress.db (handed ++ progress.handed.toList) task.record.acceptance ∨
      Settled progress.db task.record.acceptance ∨
      ∃ task', ((memory.setLane control ((memory.lane control).set key
          progress.task)).ordinary).get key = some task' ∧ task'.point.handed = true := by
  have hadvances := advances_of_refines hprogress.refines hsound
  -- a task that now has its accept open stands in the ordinary lane
  have hopened : control = false → progress.task.point.handed = true →
      ∃ task', ((memory.setLane control ((memory.lane control).set key
          progress.task)).ordinary).get key = some task' ∧ task'.point.handed = true := by
    rintro rfl hhanded
    exact ⟨progress.task, by
      show ((memory.lane false).set key progress.task).get key = some progress.task
      rw [JsMap.get_set, if_pos rfl], hhanded⟩
  -- an execution that was not sent stays so, or this very step sends it
  have hunsent : Unsent db handed task.record.acceptance →
      Unsent progress.db (handed ++ progress.handed.toList) task.record.acceptance ∨
        ∃ task', ((memory.setLane control ((memory.lane control).set key
          progress.task)).ordinary).get key = some task' ∧ task'.point.handed = true := by
    intro hunsent
    rcases hprogress.hands with hnone | ⟨-, hlane, -, -, hhanded⟩
    · exact .inl (hunsent.progress_none hsound hprogress hnone)
    · exact .inr (hopened hlane hhanded)
  have hchange := hprogress.wait
  cases hcase : progress.wait with
  | delete key' =>
      rw [hcase] at hchange hwait
      rw [WaitChange.apply, JsMap.has_delete, htask.key] at hwait
      simp [hchange] at hwait
  | set key' since =>
      rw [hcase] at hchange
      exact (hunsent hchange.2).imp_right .inr
  | keep =>
      rw [hcase] at hchange hwait
      have hwait' : memory.capacityWaits.has key = true := hwait
      rw [htask.key] at hwait
      rcases h.waits htask.known hwait with hold | hsettled | ⟨task', hget', hhanded'⟩
      · exact (hunsent hold).imp_right .inr
      · exact .inr (.inl (hsettled.mono hadvances))
      -- the accept of the entry is still open: in the other lane, or in this very task
      · rw [← htask.key] at hget'
        cases control with
        | true =>
            -- The accept is open in the other lane.
            exact .inr (.inr ⟨task', hget', hhanded'⟩)
        | false =>
            obtain rfl : task = task' := Option.some.inj (hget.symm.trans hget')
            rcases hchange hhanded' with hhanded | hsettled | hreconcilable | hthrown
            · exact .inr (.inr (hopened rfl hhanded))
            · exact .inr (.inl hsettled)
            · exact .inl (.inl hreconcilable)
            · exact .inr (.inl ((hlost hhanded' hthrown hwait').mono hadvances))

theorem Memory.Sound.advance (h : memory.Sound db handed)
    (hget : (memory.lane control).get key = some task)
    (hold : ∀ {acceptance}, Known progress.db acceptance →
      (handed ++ progress.handed.toList).count acceptance.execution ≠ 0 → Known db acceptance)
    (hlost : task.point.handed = true → progress.task.point.thrown = true →
      memory.capacityWaits.has key = true → Settled db task.record.acceptance) (now : Nat) :
    (memory.progress control key progress now).Sound progress.db
      (handed ++ progress.handed.toList) := by
  have hadvances := advances_of_refines hprogress.refines hsound
  -- the step itself, before the cancel it may ask for
  have hmain : Memory.Sound progress.db (handed ++ progress.handed.toList)
      { memory.setLane control ((memory.lane control).set key progress.task) with
        capacityWaits := progress.wait.apply memory.capacityWaits } := by
    refine ⟨?_, ?_, ?_, ?_, ?_⟩
    · intro control' key' task' htask'
      have hlane : ((memory.setLane control ((memory.lane control).set key
          progress.task)).lane control').get key' = some task' := by
        cases control' <;> exact htask'
      rw [Memory.lane_setLane] at hlane
      by_cases hsame : control' = control ∧ key' = key
      · obtain ⟨rfl, rfl⟩ := hsame
        rw [if_pos rfl, JsMap.get_set, if_pos rfl, Option.some.injEq] at hlane
        rw [← hlane]
        exact htask.advance hsound hprogress
      · have hget' : (memory.lane control').get key' = some task' := by
          split_ifs at hlane with hcontrol
          · rw [JsMap.get_set, if_neg fun hkey => hsame ⟨hcontrol, hkey⟩] at hlane
            rw [hcontrol]
            exact hlane
          · exact hlane
        have hbelief := h.tasks hget'
        refine hbelief.mono hadvances fun hordinary hunsent => ?_
        by_cases hother : task'.record.acceptance = task.record.acceptance
        · -- The other lane of the same execution sends nothing.
          have hkey : key' = key := by rw [hbelief.key, htask.key, hother]
          rcases hprogress.hands with hnone | ⟨-, hlane', -⟩
          · exact hunsent.progress_none hsound hprogress hnone
          · exact absurd ⟨hordinary.trans hlane'.symm, hkey⟩ hsame
        · exact hunsent.progress_other hsound htask hprogress hbelief.known hother
    · intro key' item hitem
      exact (h.queued (by cases control <;> exact hitem)).mono hadvances
    · intro key' epoch hepoch
      have hepoch' : memory.absences.get key' = some epoch := by cases control <;> exact hepoch
      obtain ⟨acceptance, hknown, hkey, hreconcilable⟩ := h.absences hepoch'
      exact ⟨acceptance, hknown.mono hadvances, hkey, hadvances.reconcilable hreconcilable⟩
    · intro record hrecord
      exact (h.scan record (by cases control <;> exact hrecord)).mono hadvances
    · intro acceptance hknown hwait
      by_cases hsame : acceptance = task.record.acceptance
      · subst hsame
        rw [← htask.key] at hwait ⊢
        exact wait_progress hsound htask hprogress h hget hlost hwait
      -- another execution: its entry was there before, whatever this step does with the waits
      by_cases hcount : (handed ++ progress.handed.toList).count acceptance.execution = 0
      · exact .inl (.inr hcount)
      have hknown' := hold hknown hcount
      -- and its key is another one, so the task's own entry is not the one asked about
      have hid : executionInputManifestId acceptance ≠ key := by
        intro hkey
        have hexecution := congrArg InputManifestId.execution (hkey.trans htask.key)
        exact hsame (hknown'.unique hsound.owned htask.known hexecution)
      have hwait' : memory.capacityWaits.has (executionInputManifestId acceptance) = true := by
        have hchange := hprogress.wait
        have hkey := htask.key
        cases hcase : progress.wait with
        | keep =>
            rw [hcase] at hwait
            exact hwait
        | set key' since =>
            rw [hcase] at hchange hwait
            rw [WaitChange.apply] at hwait
            split_ifs at hwait
            · exact hwait
            · rw [JsMap.has_set, hchange.1, ← hkey, decide_eq_false hid, Bool.false_or] at hwait
              exact hwait
        | delete key' =>
            rw [hcase] at hwait
            rw [WaitChange.apply, JsMap.has_delete, Bool.and_eq_true] at hwait
            exact hwait.2
      rcases h.waits hknown' hwait' with hunsent | hsettled | ⟨task', hget', hhanded'⟩
      · exact .inl (hunsent.progress_other hsound htask hprogress hknown' hsame)
      · exact .inr (.inl (hsettled.mono hadvances))
      · refine .inr (.inr ⟨task', ?_, hhanded'⟩)
        cases control with
        | true => exact hget'
        | false =>
            show ((memory.lane false).set key progress.task).get _ = some task'
            rw [JsMap.get_set, if_neg hid]
            exact hget'
  unfold Memory.progress
  dsimp only
  have hwaits : (memory.setLane control ((memory.lane control).set key
      progress.task)).capacityWaits = memory.capacityWaits := by cases control <;> rfl
  rw [hwaits]
  cases hcanceled : progress.canceled with
  | none => exact hmain
  | some record => exact hmain.cancel now (hprogress.canceled record hcanceled)

end Progress

end PocketCoder.Dispatcher
