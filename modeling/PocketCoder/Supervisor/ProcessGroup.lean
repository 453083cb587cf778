import Mathlib.Data.Finset.Card
import PocketCoder.Foundation.Formats
import PocketCoder.Foundation.Generator

/-!
Whether a process group still has writers (`supervisor/src/agent/process-group.ts`):
a signal 0 to the group, and on Linux a scan of `/proc`.

The scan reads one file after the other while processes fork and exit. It
lists every directory twice and takes a changed listing for a writer, which is
why a thread that runs to the end of the scan is found wherever it was born
(`scanGroupWriters_sure`).
-/

namespace PocketCoder.Supervisor

open Foundation

/-- The group of the child: its processes may write, only zombies are left, or it is gone. -/
inductive Group where
  | writers
  | zombies
  | gone
  deriving DecidableEq

/-- What `process.kill` comes to; `failed` is every other error. -/
inductive Kill where
  | delivered
  | eperm
  | esrch
  | failed
  deriving DecidableEq

/-- The system may answer this: only a group that is gone is not found. -/
def Kill.Answers (kill : Kill) (group : Option Group) : Prop := kill = .esrch → group = some .gone

/-! ### The scan -/

/-- The error of a read; `other` is every other one. -/
inductive ReadError where
  | enoent
  | esrch
  | other

/-- The reads of one scan, in their order: both listings of `/proc` and of the
tasks of a process, and the texts of `stat`. -/
structure ProcReadings where
  entries : Except ReadError (List String)
  stat : String → Except ReadError String
  tasks : String → Except ReadError (List String)
  taskStat : String → String → Except ReadError String
  tasksAfter : String → Except ReadError (List String)
  entriesAfter : Except ReadError (List String)

/-- `/^\d+$/`. -/
def isPid (name : String) : Bool := name ≠ "" && name.toList.all Char.isDigit

/-- What follows the name of the command, which is in parentheses. -/
def statFields (stat : String) : List String :=
  (((stat.toList.reverse.takeWhile (· ≠ ')')).reverse.drop 1).splitOn ' ').map String.ofList

/-- The state of a zombie or of a dead task. -/
def isDead (state : Option String) : Bool := state = some "Z" || state = some "X"

/-- `Number`, for the numbers that the kernel writes. -/
def number (field : String) : Option Nat :=
  if isPid field then some (Nat.ofDigitChars 10 field.toList 0) else none

def groupOf (stat : String) : Option Nat := (statFields stat)[2]?.bind number

def inventoryChanged (before after : List String) : Bool :=
  before.length ≠ after.dedup.length || before.any fun id => !after.contains id

/-- One of the tasks runs. -/
def anyTaskRuns (proc : ProcReadings) (pid : String) : List String → Except ReadError Bool
  | [] => .ok false
  | tid :: tids => do
      let task ← proc.taskStat pid tid
      if !isDead (statFields task).head? then .ok true else anyTaskRuns proc pid tids

/-- The body of the loop: whether the scan ends with this process. -/
def scanProcess (groupId : Nat) (proc : ProcReadings) (pid : String) : Except ReadError Bool := do
  let stat ← proc.stat pid
  if groupOf stat ≠ some groupId then .ok false
  else if !isDead (statFields stat).head? then .ok true
  else
    let tasks ← proc.tasks pid
    if ← anyTaskRuns proc pid tasks then .ok true
    else return inventoryChanged tasks (← proc.tasksAfter pid)

/-- The loop. A process that is gone meanwhile counts as a writer. -/
def scanProcesses (groupId : Nat) (proc : ProcReadings) : List String → Except ReadError Bool
  | [] => .ok false
  | pid :: pids =>
      match scanProcess groupId proc pid with
      | .ok true | .error .enoent | .error .esrch => .ok true
      | .ok false => scanProcesses groupId proc pids
      | .error .other => .error .other

def scanGroupWriters (groupId : Nat) (proc : ProcReadings) : Except ReadError Bool := do
  let before := (← proc.entries).filter isPid
  if ← scanProcesses groupId proc before then .ok true
  else return inventoryChanged before ((← proc.entriesAfter).filter isPid)

/-- The test of a zombie whose worker goes on. -/
example : scanGroupWriters 100
    { entries := .ok ["self", "100"]
      stat := fun _ => .ok "100 (main) Z 1 100"
      tasks := fun _ => .ok ["100", "101"]
      taskStat := fun _ tid => .ok (if tid = "100" then "100 (main) Z 1 100" else "101 (worker) S 1 100")
      tasksAfter := fun _ => .ok ["100", "101"]
      entriesAfter := .ok ["self", "100"] } matches .ok true := by decide

/-! ### What the kernel promises -/

/-- A thread of the group that runs when the scan ends. The last listings have
it; and where the first ones had it, it was in the group and ran as well, since
no id is used again and no process enters the group during a scan. -/
structure ProcReadings.Runs (proc : ProcReadings) (groupId : Nat) (pid tid : String) : Prop where
  isPid : isPid pid = true
  listed : ∀ {entries}, proc.entriesAfter = .ok entries → pid ∈ entries
  group : ∀ {entries stat}, proc.entries = .ok entries → pid ∈ entries → proc.stat pid = .ok stat →
    groupOf stat = some groupId
  tasks : ∀ {tids}, proc.tasksAfter pid = .ok tids → tid ∈ tids
  task : ∀ {tids stat}, proc.tasks pid = .ok tids → tid ∈ tids → proc.taskStat pid tid = .ok stat →
    isDead (statFields stat).head? = false

/-- A group that has writers has a thread that runs, and no listing has a name
twice. -/
structure ProcReadings.Answers (proc : ProcReadings) (groupId : Nat) (group : Option Group) :
    Prop where
  runs : group = some .writers → ∃ pid tid, proc.Runs groupId pid tid
  entries : ∀ {entries}, proc.entries = .ok entries → entries.Nodup
  tasks : ∀ {pid tids}, proc.tasks pid = .ok tids → tids.Nodup

/-- A listing that has not changed has no name that the first one had not. -/
theorem mem_of_not_inventoryChanged {before after : List String} (hnodup : before.Nodup)
    (h : inventoryChanged before after = false) {id : String} (hid : id ∈ after) : id ∈ before := by
  rw [inventoryChanged, Bool.or_eq_false_iff, decide_eq_false_iff_not, not_not,
    List.any_eq_false] at h
  obtain ⟨hlength, hsubset⟩ := h
  have hincluded : before.toFinset ⊆ after.toFinset := by
    intro other hother
    have hcontains := hsubset other (List.mem_toFinset.mp hother)
    exact List.mem_toFinset.mpr (by simpa using hcontains)
  have hcard : after.toFinset.card ≤ before.toFinset.card := by
    rw [List.card_toFinset, List.card_toFinset, hnodup.dedup, hlength]
  have hsame := Finset.eq_of_subset_of_card_le hincluded hcard
  exact List.mem_toFinset.mp (hsame ▸ List.mem_toFinset.mpr hid)

theorem anyTaskRuns_eq_false {proc : ProcReadings} {pid : String} {tids : List String}
    (h : anyTaskRuns proc pid tids = .ok false) {tid : String} (htid : tid ∈ tids) :
    ∃ stat, proc.taskStat pid tid = .ok stat ∧ isDead (statFields stat).head? = true := by
  induction tids with
  | nil => cases htid
  | cons other tids ih =>
      obtain ⟨stat, hstat, hrest⟩ := Except.bind_eq_ok.mp h
      split_ifs at hrest with hruns
      · cases hrest
      · rcases List.mem_cons.mp htid with rfl | hmem
        · exact ⟨stat, hstat, by simpa using hruns⟩
        · exact ih hrest hmem

theorem scanProcesses_eq_false {groupId : Nat} {proc : ProcReadings} {pids : List String}
    (h : scanProcesses groupId proc pids = .ok false) {pid : String} (hpid : pid ∈ pids) :
    scanProcess groupId proc pid = .ok false := by
  induction pids with
  | nil => cases hpid
  | cons other pids ih =>
      rw [scanProcesses] at h
      split at h
      case h_4 hother =>
        rcases List.mem_cons.mp hpid with rfl | hmem
        · exact hother
        · exact ih h hmem
      all_goals cases h

/-- A process that does not end the scan is of another group, or none of its
threads runs. -/
theorem scanProcess_eq_false {groupId : Nat} {proc : ProcReadings} {pid : String}
    (h : scanProcess groupId proc pid = .ok false) :
    ∃ stat, proc.stat pid = .ok stat ∧ (groupOf stat ≠ some groupId ∨
      ∃ tasks after, proc.tasks pid = .ok tasks ∧ anyTaskRuns proc pid tasks = .ok false ∧
        proc.tasksAfter pid = .ok after ∧ inventoryChanged tasks after = false) := by
  obtain ⟨stat, hstat, h⟩ := Except.bind_eq_ok.mp h
  refine ⟨stat, hstat, ?_⟩
  split_ifs at h with hgroup hruns
  · exact .inl hgroup
  · cases h
  · obtain ⟨tasks, htasks, h⟩ := Except.bind_eq_ok.mp h
    obtain ⟨runs, hruns, h⟩ := Except.bind_eq_ok.mp h
    cases runs with
    | true => cases h
    | false =>
        obtain ⟨after, hafter, h⟩ := Except.bind_eq_ok.mp h
        exact .inr ⟨tasks, after, htasks, hruns, hafter, Except.ok.inj h⟩

/-- A scan that finds no writer is right. -/
theorem scanGroupWriters_sure {groupId : Nat} {proc : ProcReadings} {group : Option Group}
    (hproc : proc.Answers groupId group) (h : scanGroupWriters groupId proc = .ok false) :
    group ≠ some .writers := by
  intro hwriters
  obtain ⟨pid, tid, hruns⟩ := hproc.runs hwriters
  obtain ⟨entries, hentries, h⟩ := Except.bind_eq_ok.mp h
  obtain ⟨found, hscan, h⟩ := Except.bind_eq_ok.mp h
  cases found with
  | true => cases h
  | false =>
      obtain ⟨after, hafter, h⟩ := Except.bind_eq_ok.mp h
      have hlisted : pid ∈ entries.filter isPid :=
        mem_of_not_inventoryChanged ((hproc.entries hentries).filter _) (Except.ok.inj h)
          (List.mem_filter.mpr ⟨hruns.listed hafter, hruns.isPid⟩)
      obtain ⟨stat, hstat, hgroup | ⟨tasks, tids, htasks, hdead, htids, hkept⟩⟩ :=
        scanProcess_eq_false (scanProcesses_eq_false hscan hlisted)
      · exact hgroup (hruns.group hentries (List.mem_filter.mp hlisted).1 hstat)
      · have htid := mem_of_not_inventoryChanged (hproc.tasks htasks) hkept (hruns.tasks htids)
        obtain ⟨task, htask, hstopped⟩ := anyTaskRuns_eq_false hdead htid
        rw [hruns.task htasks htid htask] at hstopped
        cases hstopped

/-! ### The question -/

/-- The answers to `groupHasWriters`. -/
structure Probe where
  kill : Kill
  linux : Bool
  proc : ProcReadings

/-- `none` where it throws. A denied signal is no proof that the group has stopped. -/
def groupHasWriters (groupId : Nat) (probe : Probe) : Option Bool :=
  match probe.kill with
  | .eperm => some true
  | .esrch => some false
  | .failed => none
  | .delivered =>
      if probe.linux then (scanGroupWriters groupId probe.proc).toOption else some true

structure Probe.Answers (probe : Probe) (groupId : Nat) (group : Option Group) : Prop where
  kill : probe.kill.Answers group
  proc : probe.proc.Answers groupId group

theorem Probe.Answers.sure {probe : Probe} {groupId : Nat} {group : Option Group}
    (h : probe.Answers groupId group) (hwriters : groupHasWriters groupId probe = some false) :
    group ≠ some .writers := by
  unfold groupHasWriters at hwriters
  split at hwriters
  case h_1 => cases hwriters
  case h_2 hkill => simp [h.kill hkill]
  case h_3 => cases hwriters
  case h_4 =>
    split_ifs at hwriters with hlinux
    · refine scanGroupWriters_sure h.proc ?_
      cases hscan : scanGroupWriters groupId probe.proc with
      | error =>
          rw [hscan] at hwriters
          cases hwriters
      | ok found =>
          rw [hscan] at hwriters
          exact congrArg _ (Option.some.inj hwriters)
    · cases hwriters

end PocketCoder.Supervisor
