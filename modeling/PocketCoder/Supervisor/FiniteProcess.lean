import Mathlib.Data.List.Chain
import PocketCoder.Executions.ProcessFacts
import PocketCoder.Foundation.Transitions
import PocketCoder.Supervisor.ProcessGroup

/-!
The finite process of a supervisor (`supervisor/src/agent/finite-process.ts`) and the
facts that it publishes.

The exit of the leader, the end of its process group and the calls of the connection
come in any order. The fact is `exited` for the object as soon as the leader has
exited, and for an observer only when the group has stopped. Each observed fact can
be recorded after the one before (`observed_recordable`).
-/

namespace PocketCoder.Supervisor

open Foundation Executions

/-! ### The answers of the system -/

/-- What the system gives to a step: the time, the answer to its first signal, and those of
a poll to its late signal and to its question. -/
structure Moment where
  now : Nat
  kill : Kill
  late : Kill
  probe : Probe

structure Moment.Answers (moment : Moment) (groupId : Option Nat) (group : Option Group) :
    Prop where
  kill : moment.kill.Answers group
  late : moment.late.Answers group
  probe : ∀ {id}, groupId = some id → moment.probe.Answers id group

/-! ### The object -/

/-- The task of `drained`. -/
inductive Drained where
  | initial
  /-- It awaits the exit of the child; the fact is the one that was running then. -/
  | awaitsExit (running : FiniteProcessFact)
  | awaitsStop
  | awaitsPumps
  | settled
  /-- It has thrown. -/
  | failed

/-- The loop of `waitForGroupStop`: it sleeps, or it has returned or thrown. -/
inductive Wait where
  | polls
  | ended
  | failed
  deriving DecidableEq

/-- A call of `stopWriters` that is under way. -/
inductive StopTask where
  | awaitsExit
  | polls
  deriving DecidableEq

structure Process where
  workspaceId : String
  incarnationId : String
  finalizationGraceMs : Nat
  fact : Option FiniteProcessFact
  groupStopped : Bool
  child : Option Nat
  cancellations : JsMap String String
  groupStop : Option Wait
  killDeadline : Option Nat
  killTimer : Option Nat
  drained : Drained
  stops : List StopTask

/-- The object with the system around it: whether `child.exited` has settled, the facts
that were observed with the group as it was then, and the requests that were spawned. -/
structure System extends Process where
  group : Option Group
  exited : Bool
  observed : List (FiniteProcessFact × Option Group)
  spawned : List String

/-- A spawn that fails, or the process that it creates. -/
structure Spawn where
  pid : Option Nat
  claimedAt : String
  startedAt : String
  endedAt : String

/-- What a call returns. -/
inductive Answer where
  | fact (fact : Option FiniteProcessFact)
  | threw
  | canceled
  | requested
  | terminal
  | none

namespace System

def assertRuntime (execution : WorkloadExecutionReference) (sys : System) : Bool :=
  execution.workspaceId = sys.workspaceId && execution.incarnationId = sys.incarnationId &&
    execution.owner = .process

/-- `this.fact?.processGroupId`, where 0 is no group. -/
def processGroupId (sys : System) : Option Nat :=
  (sys.fact.bind FiniteProcessFact.processGroupId).filter fun id => id ≠ 0

/-- `lookup`, in the runtime of the object. -/
def found (execution : WorkloadExecutionReference) (sys : System) : Option FiniteProcessFact :=
  sys.fact.filter fun fact => fact.execution.requestId = execution.requestId

def lookup (execution : WorkloadExecutionReference) (sys : System) : Answer :=
  if sys.assertRuntime execution then .fact (sys.found execution) else .threw

def observe (fact : FiniteProcessFact) (sys : System) : System :=
  { sys with observed := sys.observed ++ [(fact, sys.group)] }

def replay (sys : System) : System :=
  match sys.fact with
  | none => sys
  | some fact => if fact.phase = .exited && !sys.groupStopped then sys else sys.observe fact

def publish (fact : FiniteProcessFact) (sys : System) : System :=
  { sys with fact := some fact }.replay

/-- `none` where it throws, which is before it writes anything. -/
def signalGroup (kill : Kill) (sys : System) : Option System :=
  if sys.groupStopped || sys.processGroupId.isNone then some sys
  else
    match kill with
    | .delivered | .eperm => some sys
    | .esrch => some { sys with groupStopped := true }
    | .failed => none

/-- The signal of a poll after the deadline. -/
def signalLate (moment : Moment) (sys : System) : Option System :=
  if sys.killDeadline.any fun deadline => deadline ≤ moment.now then sys.signalGroup moment.late
  else some sys

/-- A poll of the loop. -/
def poll (groupId : Nat) (moment : Moment) (sys : System) : System × Wait :=
  match sys.signalLate moment with
  | none => (sys, .failed)
  | some sys =>
      match groupHasWriters groupId moment.probe with
      | none => (sys, .failed)
      | some writers =>
          ({ sys with groupStopped := !writers }, if writers then .polls else .ended)

/-- The loop of `waitForGroupStop` up to its next sleep. -/
def waitForGroupStop (moment : Moment) (sys : System) : System × Wait :=
  match sys.processGroupId with
  | none => (sys, .ended)
  | some groupId => if sys.groupStopped then (sys, .ended) else sys.poll groupId moment

/-- The loop of `groupStop`, which ends with the timer. -/
def pollGroupStop (moment : Moment) (sys : System) : System :=
  let (sys, wait) := sys.waitForGroupStop moment
  { sys with
    groupStop := some wait
    killTimer := if wait = .polls then sys.killTimer else none }

def armKill (deadline : Nat) (sys : System) : System :=
  if !sys.groupStopped && sys.killDeadline.all fun earlier => deadline < earlier then
    { sys with killDeadline := some deadline, killTimer := some deadline }
  else sys

/-- `none` where the first signal throws. -/
def stopGroup (graceMs : Nat) (moment : Moment) (sys : System) : Option System :=
  (sys.signalGroup moment.kill).map fun sys =>
    let sys := sys.armKill (moment.now + graceMs)
    if sys.groupStop.isSome then sys else sys.pollGroupStop moment

def claimed (execution : WorkloadExecutionReference) (fingerprint : String) (spawn : Spawn) :
    FiniteProcessFact where
  execution := execution
  fingerprint := fingerprint
  phase := .claimed
  processGroupId := none
  claimedAt := spawn.claimedAt
  startedAt := none
  endedAt := none
  exitCode := none
  signal := none

/-- The part of `start` that follows the claim. -/
def launch (claimed : FiniteProcessFact) (spawn : Spawn) (sys : System) : System :=
  match spawn.pid with
  | none => sys.publish { claimed with phase := .lost, endedAt := some spawn.endedAt }
  | some pid =>
      let running := { claimed with
        phase := .running, processGroupId := some pid, startedAt := some spawn.startedAt }
      let spawned := { sys with
        child := some pid, group := some .writers
        spawned := sys.spawned ++ [claimed.execution.requestId] }
      { spawned.publish running with drained := .awaitsExit running }

def start (execution : WorkloadExecutionReference) (fingerprint : String) (spawn : Spawn)
    (sys : System) : System × Answer :=
  if !sys.assertRuntime execution then (sys, .threw)
  else if sys.cancellations.has execution.requestId && sys.fact.isNone then (sys, .fact none)
  else
    match sys.fact with
    | some fact =>
        if fact.execution.requestId ≠ execution.requestId then (sys, .threw)
        else if fact.fingerprint ≠ fingerprint then (sys, .threw)
        else (sys, .fact (some fact))
    | none =>
        let claimed := claimed execution fingerprint spawn
        let sys := (sys.publish claimed).launch claimed spawn
        (sys, .fact sys.fact)

def cancel (execution : WorkloadExecutionReference) (kill : Kill) (sys : System) : System × Answer :=
  if !sys.assertRuntime execution then (sys, .threw)
  else
    match sys.found execution with
    | none => (sys, .threw)
    | some fact =>
        if fact.phase ≠ .running then (sys, .fact (some fact))
        else
          match sys.signalGroup kill with
          | none => (sys, .threw)
          | some sys => (sys, .fact (some fact))

def cancelOperation (execution : WorkloadExecutionReference) (cancelId : String)
    (graceMs : Option Nat) (moment : Moment) (sys : System) : System × Answer :=
  if !sys.assertRuntime execution then (sys, .threw)
  else if (sys.cancellations.get execution.requestId).any fun previous =>
      previous ≠ "" && previous ≠ cancelId then (sys, .threw)
  else
    let fact := sys.found execution
    if fact.any fun fact => fact.phase = .lost || fact.phase = .exited && sys.groupStopped then
      (sys, .terminal)
    else
      let canceled :=
        { sys with cancellations := sys.cancellations.set execution.requestId cancelId }
      -- nothing was started yet, and the cancellation keeps it so
      if fact.isNone then (canceled, .canceled)
      else
        match canceled.stopGroup (graceMs.getD sys.finalizationGraceMs) moment with
        | none => (canceled, .threw)
        | some sys => (sys, .requested)

/-- The task awaits `child.exited`, if there is a child. -/
def stopWriters (kill : Kill) (sys : System) : System × Answer :=
  match sys.signalGroup kill with
  | none => (sys, .threw)
  | some sys =>
      ({ sys with stops := sys.stops ++ [if sys.child.isSome then .awaitsExit else .polls] }, .none)

/-- A task of `stopWriters` goes on. -/
def resumeStop (i : Nat) (moment : Moment) (sys : System) : System :=
  let (sys, wait) := sys.waitForGroupStop moment
  { sys with stops := if wait = .polls then sys.stops.set i .polls else sys.stops.eraseIdx i }

/-- The callback of the timer. Nothing catches what it throws. -/
def fireTimer (kill : Kill) (sys : System) : System :=
  let sys := { sys with killTimer := none }
  (sys.signalGroup kill).getD sys

/-- The exact receipt of the leader, private until the group has stopped. -/
def exitedFact (running : FiniteProcessFact) (code : Int) (signalCode : Option String)
    (endedAt : String) : FiniteProcessFact :=
  { running with
    phase := .exited
    exitCode := if signalCode.isSome then none else some code
    signal := signalCode
    endedAt := some endedAt }

def leave (exited : FiniteProcessFact) (sys : System) : System :=
  { sys with exited := true, drained := .awaitsStop, fact := some exited }

/-- The task of `drained` after `child.exited`. -/
def exit (exited : FiniteProcessFact) (moment : Moment) (sys : System) : System :=
  ((sys.leave exited).stopGroup sys.finalizationGraceMs moment).getD
    { sys.leave exited with drained := .failed }

/-! ### The runs -/

def fresh (workspaceId incarnationId : String) (finalizationGraceMs : Nat) : System where
  workspaceId := workspaceId
  incarnationId := incarnationId
  finalizationGraceMs := finalizationGraceMs
  fact := none
  groupStopped := false
  child := none
  cancellations := .empty
  groupStop := none
  killDeadline := none
  killTimer := none
  drained := .initial
  stops := []
  group := none
  exited := false
  observed := []
  spawned := []

end System

/-- The calls, the tasks that go on, and the end of the group. -/
inductive Event where
  | start (execution : WorkloadExecutionReference) (fingerprint : String) (spawn : Spawn)
  | lookup (execution : WorkloadExecutionReference)
  | cancel (execution : WorkloadExecutionReference) (moment : Moment)
  | cancelOperation (execution : WorkloadExecutionReference) (cancelId : String)
      (graceMs : Option Nat) (moment : Moment)
  | stopWriters (moment : Moment)
  | replay
  | exit (code : Int) (signalCode : Option String) (endedAt : String) (moment : Moment)
  | poll (moment : Moment)
  | timer (moment : Moment)
  | resumeStop (i : Nat) (moment : Moment)
  | stopped
  | pumped
  | group (group : Group)

/-- What the system promises for an event: no process has the id 0, and its answers are right. -/
def Event.Answers (groupId : Option Nat) (group : Option Group) : Event → Prop
  | .start _ _ spawn => spawn.pid ≠ some 0
  | .cancel _ moment | .cancelOperation _ _ _ moment | .stopWriters moment | .exit _ _ _ moment
  | .poll moment | .timer moment | .resumeStop _ moment => moment.Answers groupId group
  | .lookup _ | .replay | .stopped | .pumped | .group _ => True

namespace System

/-- A step, if the event can happen. -/
def step (sys : System) : Event → Option (System × Answer)
  | .start execution fingerprint spawn => some (sys.start execution fingerprint spawn)
  | .lookup execution => some (sys, sys.lookup execution)
  | .cancel execution moment => some (sys.cancel execution moment.kill)
  | .cancelOperation execution cancelId graceMs moment =>
      some (sys.cancelOperation execution cancelId graceMs moment)
  | .stopWriters moment => some (sys.stopWriters moment.kill)
  | .replay => some (sys.replay, .none)
  | .exit code signalCode endedAt moment =>
      match sys.drained with
      | .awaitsExit running =>
          some (sys.exit (exitedFact running code signalCode endedAt) moment, .none)
      | _ => none
  | .poll moment =>
      if sys.groupStop = some .polls then some (sys.pollGroupStop moment, .none) else none
  | .timer moment =>
      if sys.killTimer.any fun deadline => deadline ≤ moment.now then
        some (sys.fireTimer moment.kill, .none)
      else none
  | .resumeStop i moment =>
      match sys.stops[i]? with
      | some .awaitsExit => if sys.exited then some (sys.resumeStop i moment, .none) else none
      | some .polls => some (sys.resumeStop i moment, .none)
      | none => none
  | .stopped =>
      match sys.drained, sys.groupStop with
      | .awaitsStop, some .ended => some ({ sys.replay with drained := .awaitsPumps }, .none)
      | .awaitsStop, some .failed => some ({ sys with drained := .failed }, .none)
      | _, _ => none
  | .pumped =>
      match sys.drained with
      | .awaitsPumps => some ({ sys with drained := .settled }, .none)
      | _ => none
  | .group group =>
      match sys.group, group with
      | some .writers, .zombies | some .writers, .gone | some .zombies, .gone =>
          some ({ sys with group := some group }, .none)
      | _, _ => none

end System

/-- A step with its event and its answer. -/
def Steps (sys : System) (label : Event × Answer) (later : System) : Prop :=
  label.1.Answers sys.processGroupId sys.group ∧ sys.step label.1 = some (later, label.2)

/-- The request of a cancel that came before its start. -/
def canceled : Event × Answer → Option String
  | (.cancelOperation execution _ _ _, .canceled) => some execution.requestId
  | _ => none

/-! ### What a step may do -/

/-- The facts, the child and the connection stay; only the stop of the group goes on. -/
structure Steady (sys later : System) : Prop where
  fact : later.fact = sys.fact
  observed : later.observed = sys.observed
  spawned : later.spawned = sys.spawned
  drained : later.drained = sys.drained
  group : later.group = sys.group
  cancellations : ∀ {requestId}, sys.cancellations.has requestId = true →
    later.cancellations.has requestId = true
  kept : sys.groupStopped = true → later.groupStopped = true
  sure : later.groupStopped = true → sys.groupStopped = true ∨
    sys.processGroupId.isSome = true ∧ sys.group ≠ some .writers
  /-- The loop runs for a group, and it ends with the group. -/
  polled : later.groupStop.isSome = true → sys.groupStop.isSome = true ∨
    sys.processGroupId.isSome = true
  ended : sys.processGroupId.isSome = true → later.groupStop = some .ended →
    sys.groupStop = some .ended ∨ later.groupStopped = true

namespace Steady

variable {sys mid later : System} {moment : Moment} {kill : Kill}

theorem refl (sys : System) : Steady sys sys :=
  ⟨rfl, rfl, rfl, rfl, rfl, id, id, .inl, .inl, fun _ => .inl⟩

theorem processGroupId_eq (h : Steady sys later) : later.processGroupId = sys.processGroupId := by
  rw [System.processGroupId, System.processGroupId, h.fact]

theorem trans (h : Steady sys mid) (h' : Steady mid later) : Steady sys later where
  fact := h'.fact.trans h.fact
  observed := h'.observed.trans h.observed
  spawned := h'.spawned.trans h.spawned
  drained := h'.drained.trans h.drained
  group := h'.group.trans h.group
  cancellations hcanceled := h'.cancellations (h.cancellations hcanceled)
  kept hstopped := h'.kept (h.kept hstopped)
  sure hstopped := by
    rcases h'.sure hstopped with hmid | hgroup
    · exact h.sure hmid
    · rw [h.processGroupId_eq, h.group] at hgroup
      exact .inr hgroup
  polled hsome := by
    rcases h'.polled hsome with hmid | hid
    · exact h.polled hmid
    · exact .inr (h.processGroupId_eq ▸ hid)
  ended hid hended := by
    rcases h'.ended (h.processGroupId_eq.symm ▸ hid) hended with hmid | hstopped
    · rcases h.ended hid hmid with hfirst | hstopped
      · exact .inl hfirst
      · exact .inr (h'.kept hstopped)
    · exact .inr hstopped

/-- The timer and the calls that wait are not part of it. -/
theorem of_fields (sys : System) (killDeadline killTimer : Option Nat) (stops : List StopTask) :
    Steady sys { sys with killDeadline := killDeadline, killTimer := killTimer, stops := stops } :=
  ⟨rfl, rfl, rfl, rfl, rfl, id, id, .inl, .inl, fun _ => .inl⟩

end Steady

namespace Steady

variable {sys mid later : System} {moment : Moment} {kill : Kill}

theorem signalGroup (h : kill.Answers sys.group) (hsignal : sys.signalGroup kill = some later) :
    Steady sys later ∧ later.groupStop = sys.groupStop := by
  unfold System.signalGroup at hsignal
  split_ifs at hsignal with hdone
  · obtain rfl := Option.some.inj hsignal
    exact ⟨.refl sys, rfl⟩
  · cases hkill : kill with
    | delivered | eperm =>
        rw [hkill] at hsignal
        obtain rfl := Option.some.inj hsignal
        exact ⟨.refl sys, rfl⟩
    | esrch =>
        rw [hkill] at hsignal
        obtain rfl := Option.some.inj hsignal
        simp only [Bool.or_eq_true, not_or, Bool.not_eq_true, Option.isNone_eq_false_iff] at hdone
        refine ⟨⟨rfl, rfl, rfl, rfl, rfl, id, fun _ => rfl, fun _ => .inr ⟨hdone.2, ?_⟩, .inl,
          fun _ => .inl⟩, rfl⟩
        simp [h hkill]
    | failed =>
        rw [hkill] at hsignal
        cases hsignal

theorem armKill (sys : System) (deadline : Nat) : Steady sys (sys.armKill deadline) := by
  unfold System.armKill
  split_ifs with hlater
  · exact of_fields sys _ _ sys.stops
  · exact .refl sys

theorem signalLate (h : moment.late.Answers sys.group) (hsignal : sys.signalLate moment = some later) :
    Steady sys later ∧ later.groupStop = sys.groupStop := by
  unfold System.signalLate at hsignal
  split_ifs at hsignal
  · exact signalGroup h hsignal
  · obtain rfl := Option.some.inj hsignal
    exact ⟨.refl sys, rfl⟩

/-- A poll that ends finds that the group has stopped. -/
theorem poll {groupId : Nat} (h : moment.Answers sys.processGroupId sys.group)
    (hid : sys.processGroupId = some groupId) (hrunning : sys.groupStopped = false) :
    Steady sys (sys.poll groupId moment).1 ∧
      (sys.poll groupId moment).1.groupStop = sys.groupStop ∧
      ((sys.poll groupId moment).2 = .ended → (sys.poll groupId moment).1.groupStopped = true) := by
  unfold System.poll
  cases hlate : sys.signalLate moment with
  | none => exact ⟨.refl sys, rfl, nofun⟩
  | some signaled =>
      obtain ⟨hsteady, hstop⟩ := signalLate h.late hlate
      dsimp only
      cases hwriters : groupHasWriters groupId moment.probe with
      | none => exact ⟨hsteady, hstop, nofun⟩
      | some writers =>
          refine ⟨⟨hsteady.fact, hsteady.observed, hsteady.spawned, hsteady.drained, hsteady.group,
            hsteady.cancellations, fun hstopped => ?_, fun hstopped => .inr ?_, hsteady.polled,
            fun _ hended => .inl (hstop ▸ hended)⟩, hstop, fun hended => ?_⟩
          · rw [hrunning] at hstopped
            cases hstopped
          · refine ⟨by rw [hid]; rfl, (h.probe hid).sure ?_⟩
            rw [hwriters]
            simpa using hstopped
          · cases writers with
            | true => cases hended
            | false => rfl

theorem waitForGroupStop (h : moment.Answers sys.processGroupId sys.group) :
    Steady sys (sys.waitForGroupStop moment).1 ∧
      (sys.waitForGroupStop moment).1.groupStop = sys.groupStop ∧
      (sys.processGroupId.isSome = true → (sys.waitForGroupStop moment).2 = .ended →
        (sys.waitForGroupStop moment).1.groupStopped = true) := by
  unfold System.waitForGroupStop
  cases hid : sys.processGroupId with
  | none => exact ⟨.refl sys, rfl, nofun⟩
  | some groupId =>
      dsimp only
      split_ifs with hstopped
      · exact ⟨.refl sys, rfl, fun _ _ => hstopped⟩
      · obtain ⟨hsteady, hstop, hended⟩ := poll h hid (Bool.eq_false_iff.mpr hstopped)
        exact ⟨hsteady, hstop, fun _ => hended⟩

theorem pollGroupStop (h : moment.Answers sys.processGroupId sys.group)
    (hid : sys.processGroupId.isSome = true) : Steady sys (sys.pollGroupStop moment) := by
  obtain ⟨hwait, -, hended⟩ := waitForGroupStop h
  exact ⟨hwait.fact, hwait.observed, hwait.spawned, hwait.drained, hwait.group,
    hwait.cancellations, hwait.kept, hwait.sure, fun _ => .inr hid,
    fun _ hstop => .inr (hended hid (Option.some.inj hstop))⟩

theorem stopGroup (h : moment.Answers sys.processGroupId sys.group)
    (hid : sys.processGroupId.isSome = true) {graceMs : Nat}
    (hstop : sys.stopGroup graceMs moment = some later) : Steady sys later := by
  obtain ⟨signaled, hsignal, rfl⟩ := Option.map_eq_some_iff.mp hstop
  have harmed : Steady sys (signaled.armKill (moment.now + graceMs)) :=
    (signalGroup h.kill hsignal).1.trans (armKill _ _)
  dsimp only
  split_ifs with hpolls
  · exact harmed
  · refine harmed.trans (pollGroupStop ?_ (harmed.processGroupId_eq.symm ▸ hid))
    rw [harmed.processGroupId_eq, harmed.group]
    exact h

theorem stopWriters (h : kill.Answers sys.group) : Steady sys (sys.stopWriters kill).1 := by
  unfold System.stopWriters
  cases hsignal : sys.signalGroup kill with
  | none => exact .refl sys
  | some signaled => exact (signalGroup h hsignal).1.trans (of_fields _ _ _ _)

theorem resumeStop (h : moment.Answers sys.processGroupId sys.group) (i : Nat) :
    Steady sys (sys.resumeStop i moment) :=
  (waitForGroupStop h).1.trans (of_fields _ _ _ _)

theorem fireTimer (h : kill.Answers sys.group) : Steady sys (sys.fireTimer kill) := by
  have hcleared := of_fields sys sys.killDeadline none sys.stops
  unfold System.fireTimer
  dsimp only
  cases hsignal : System.signalGroup kill { sys with killTimer := none } with
  | none => exact hcleared
  | some signaled =>
      obtain ⟨hsignaled, -⟩ := @signalGroup { sys with killTimer := none } signaled kill h hsignal
      exact hcleared.trans hsignaled

theorem signal (execution : WorkloadExecutionReference) {kill : Kill}
    (hkill : kill.Answers sys.group) : Steady sys (sys.cancel execution kill).1 := by
  unfold System.cancel
  split_ifs with hruntime
  · exact .refl sys
  · cases sys.found execution with
    | none => exact .refl sys
    | some fact =>
        dsimp only
        split_ifs
        · exact .refl sys
        · cases hsignal : sys.signalGroup kill with
          | none => exact .refl sys
          | some signaled => exact (signalGroup hkill hsignal).1

/-- A further cancellation. -/
theorem cancel (sys : System) (requestId cancelId : String) :
    Steady sys { sys with cancellations := sys.cancellations.set requestId cancelId } := by
  refine ⟨rfl, rfl, rfl, rfl, rfl, fun {other} hcanceled => ?_, id, .inl, .inl, fun _ => .inl⟩
  simp only [JsMap.has, JsMap.get_set] at hcanceled ⊢
  split_ifs
  · rfl
  · exact hcanceled

end Steady

/-! ### The invariant -/

namespace System

/-- The facts that the connection got. -/
def facts (sys : System) : List FiniteProcessFact := sys.observed.map Prod.fst

@[simp] theorem observe_facts (fact : FiniteProcessFact) (sys : System) :
    (sys.observe fact).facts = sys.facts ++ [fact] := by
  simp [facts, observe]

end System

/-- Where the one process is, and which fact the connection got last. -/
inductive Stage (sys : System) : Prop
  | idle (hfact : sys.fact = none) (hspawned : sys.spawned = []) (hobserved : sys.observed = [])
      (hdrained : sys.drained = .initial)
  | lost {fact : FiniteProcessFact} (hfact : sys.fact = some fact) (hphase : fact.phase = .lost)
      (hspawned : sys.spawned = []) (hlast : sys.facts.getLast? = some fact)
      (hdrained : sys.drained = .initial)
  | running {fact : FiniteProcessFact} (hfact : sys.fact = some fact)
      (hphase : fact.phase = .running) (hid : sys.processGroupId.isSome = true)
      (hspawned : sys.spawned = [fact.execution.requestId])
      (hlast : sys.facts.getLast? = some fact) (hdrained : sys.drained = .awaitsExit fact)
  | exited {fact last : FiniteProcessFact} (hfact : sys.fact = some fact)
      (hphase : fact.phase = .exited) (hid : sys.processGroupId.isSome = true)
      (hspawned : sys.spawned = [fact.execution.requestId])
      (hlast : sys.facts.getLast? = some last) (hrecord : canRecord (some last) fact = true)
      (hdrained : (sys.drained = .awaitsStop ∨ sys.drained = .failed) ∨
        last = fact ∧ (sys.drained = .awaitsPumps ∨ sys.drained = .settled))

structure Sound (sys : System) : Prop where
  stage : Stage sys
  stopped : sys.groupStopped = true →
    sys.processGroupId.isSome = true ∧ sys.group ≠ some .writers
  polled : sys.groupStop.isSome = true → sys.processGroupId.isSome = true
  ended : sys.groupStop = some .ended → sys.groupStopped = true
  /-- The store records each fact after the one before. -/
  chain : sys.facts.IsChain fun previous next => canRecord (some previous) next = true
  shown : ∀ seen ∈ sys.observed, seen.1.phase = .exited → seen.2 ≠ some .writers

theorem sound_fresh (workspaceId incarnationId : String) (finalizationGraceMs : Nat) :
    Sound (System.fresh workspaceId incarnationId finalizationGraceMs) where
  stage := .idle rfl rfl rfl rfl
  stopped h := by cases h
  polled h := by cases h
  ended h := by cases h
  chain := .nil
  shown _ h := by cases h

theorem System.found_eq_some {sys : System} {execution : WorkloadExecutionReference}
    {fact : FiniteProcessFact} (h : sys.found execution = some fact) :
    sys.fact = some fact ∧ fact.execution.requestId = execution.requestId := by
  rw [System.found, Option.filter_eq_some_iff] at h
  exact ⟨h.1, of_decide_eq_true h.2⟩

theorem canRecord_self (fact : FiniteProcessFact) : canRecord (some fact) fact = true := by
  unfold canRecord
  cases hphase : fact.phase <;> simp [hphase]

theorem canRecord_exitedFact {running : FiniteProcessFact} (h : running.phase = .running)
    (code : Int) (signalCode : Option String) (endedAt : String) :
    canRecord (some running) (System.exitedFact running code signalCode endedAt) = true := by
  simp [canRecord, System.exitedFact, FiniteProcessFact.ended, h]

namespace Stage

variable {sys later : System}

theorem steady (h : Stage sys) (hsteady : Steady sys later) : Stage later := by
  have hfacts : later.facts = sys.facts := by rw [System.facts, System.facts, hsteady.observed]
  cases h with
  | idle hfact hspawned hobserved hdrained =>
      exact .idle (hsteady.fact.trans hfact) (hsteady.spawned.trans hspawned)
        (hsteady.observed.trans hobserved) (hsteady.drained.trans hdrained)
  | lost hfact hphase hspawned hlast hdrained =>
      exact .lost (hsteady.fact.trans hfact) hphase (hsteady.spawned.trans hspawned)
        (hfacts ▸ hlast) (hsteady.drained.trans hdrained)
  | running hfact hphase hid hspawned hlast hdrained =>
      exact .running (hsteady.fact.trans hfact) hphase (hsteady.processGroupId_eq ▸ hid)
        (hsteady.spawned.trans hspawned) (hfacts ▸ hlast) (hsteady.drained.trans hdrained)
  | exited hfact hphase hid hspawned hlast hrecord hdrained =>
      exact .exited (hsteady.fact.trans hfact) hphase (hsteady.processGroupId_eq ▸ hid)
        (hsteady.spawned.trans hspawned) (hfacts ▸ hlast) hrecord (hsteady.drained.symm ▸ hdrained)

/-- Only the request of the fact has been spawned. -/
theorem spawned_of_fact (h : Stage sys) {requestId : String} (hmem : requestId ∈ sys.spawned) :
    ∃ fact, sys.fact = some fact ∧ fact.execution.requestId = requestId := by
  cases h with
  | idle _ hspawned => simp [hspawned] at hmem
  | lost _ _ hspawned => simp [hspawned] at hmem
  | running hfact _ _ hspawned =>
      rw [hspawned, List.mem_singleton] at hmem
      exact ⟨_, hfact, hmem.symm⟩
  | exited hfact _ _ hspawned =>
      rw [hspawned, List.mem_singleton] at hmem
      exact ⟨_, hfact, hmem.symm⟩

theorem spawned_length (h : Stage sys) : sys.spawned.length ≤ 1 := by
  cases h with
  | idle _ hspawned => simp [hspawned]
  | lost _ _ hspawned => simp [hspawned]
  | running _ _ _ hspawned => simp [hspawned]
  | exited _ _ _ hspawned => simp [hspawned]

/-- The fact that may be shown can be recorded after the last one. -/
theorem canRecord_fact (h : Stage sys) {fact last : FiniteProcessFact} (hfact : sys.fact = some fact)
    (hlast : sys.facts.getLast? = some last) : canRecord (some last) fact = true := by
  cases h with
  | idle hnone => simp [hnone] at hfact
  | lost hfact' _ _ hlast' =>
      obtain rfl := Option.some.inj (hfact'.symm.trans hfact)
      obtain rfl := Option.some.inj (hlast'.symm.trans hlast)
      exact canRecord_self _
  | running hfact' _ _ _ hlast' =>
      obtain rfl := Option.some.inj (hfact'.symm.trans hfact)
      obtain rfl := Option.some.inj (hlast'.symm.trans hlast)
      exact canRecord_self _
  | exited hfact' _ _ _ hlast' hrecord =>
      obtain rfl := Option.some.inj (hfact'.symm.trans hfact)
      obtain rfl := Option.some.inj (hlast'.symm.trans hlast)
      exact hrecord

theorem observe (h : Stage sys) {fact : FiniteProcessFact} (hfact : sys.fact = some fact) :
    Stage (sys.observe fact) := by
  have hlast : (sys.observe fact).facts.getLast? = some fact := by simp
  cases h with
  | idle hnone => simp [hnone] at hfact
  | lost hfact' hphase hspawned _ hdrained =>
      obtain rfl := Option.some.inj (hfact'.symm.trans hfact)
      exact .lost hfact hphase hspawned hlast hdrained
  | running hfact' hphase hid hspawned _ hdrained =>
      obtain rfl := Option.some.inj (hfact'.symm.trans hfact)
      exact .running hfact hphase hid hspawned hlast hdrained
  | exited hfact' hphase hid hspawned _ _ hdrained =>
      obtain rfl := Option.some.inj (hfact'.symm.trans hfact)
      exact .exited hfact hphase hid hspawned hlast (canRecord_self _)
        (hdrained.imp_right fun hdrained => ⟨rfl, hdrained.2⟩)

end Stage

namespace Sound

variable {sys later : System}

theorem steady (h : Sound sys) (hsteady : Steady sys later) : Sound later where
  stage := h.stage.steady hsteady
  stopped hstopped := by
    rw [hsteady.processGroupId_eq, hsteady.group]
    rcases hsteady.sure hstopped with hfirst | hgroup
    · exact h.stopped hfirst
    · exact hgroup
  polled hsome := by
    rw [hsteady.processGroupId_eq]
    rcases hsteady.polled hsome with hfirst | hid
    · exact h.polled hfirst
    · exact hid
  ended hended := by
    have hid : sys.processGroupId.isSome = true := by
      rcases hsteady.polled (by rw [hended]; rfl) with hfirst | hid
      · exact h.polled hfirst
      · exact hid
    rcases hsteady.ended hid hended with hfirst | hstopped
    · exact hsteady.kept (h.ended hfirst)
    · exact hstopped
  chain := by
    rw [System.facts, hsteady.observed]
    exact h.chain
  shown := by
    rw [hsteady.observed]
    exact h.shown

/-- The fact is shown again, when it may be shown. -/
theorem observe (h : Sound sys) {fact : FiniteProcessFact} (hfact : sys.fact = some fact)
    (hgroup : fact.phase = .exited → sys.group ≠ some .writers) : Sound (sys.observe fact) where
  stage := h.stage.observe hfact
  stopped := h.stopped
  polled := h.polled
  ended := h.ended
  chain := by
    rw [System.observe_facts, List.isChain_append]
    refine ⟨h.chain, .singleton _, fun last hlast next hnext => ?_⟩
    obtain rfl : fact = next := by simpa using hnext
    exact h.stage.canRecord_fact hfact hlast
  shown seen hmem := by
    rcases List.mem_append.1 hmem with hold | hnew
    · exact h.shown seen hold
    · rw [List.mem_singleton.1 hnew]
      exact hgroup

theorem replay (h : Sound sys) : Sound sys.replay := by
  unfold System.replay
  cases hfact : sys.fact with
  | none => exact h
  | some fact =>
      dsimp only
      split_ifs with hprivate
      · exact h
      · refine h.observe hfact fun hphase => (h.stopped ?_).2
        simpa [hphase] using hprivate

end Sound

/-! ### One step -/

namespace System

variable (sys : System)

@[simp] theorem replay_fact : sys.replay.fact = sys.fact := by
  unfold replay
  split
  · rfl
  · split_ifs <;> rfl

@[simp] theorem replay_cancellations : sys.replay.cancellations = sys.cancellations := by
  unfold replay
  split
  · rfl
  · split_ifs <;> rfl

/-- A fact that is not exited is shown at once. -/
theorem publish_eq {fact : FiniteProcessFact} (h : fact.phase ≠ .exited) :
    sys.publish fact =
      { sys with fact := some fact, observed := sys.observed ++ [(fact, sys.group)] } := by
  simp [publish, replay, observe, h]

end System

/-- What a step does for the requests that it may spawn. -/
structure Advances (sys later : System) : Prop where
  cancellations : ∀ {requestId}, sys.cancellations.has requestId = true →
    later.cancellations.has requestId = true
  fact : ∀ {fact}, later.fact = some fact →
    (∃ earlier, sys.fact = some earlier ∧
      earlier.execution.requestId = fact.execution.requestId) ∨
    sys.cancellations.has fact.execution.requestId = false

theorem Advances.of_fact {sys later : System} (hfact : later.fact = sys.fact)
    (hcancellations : later.cancellations = sys.cancellations) : Advances sys later :=
  ⟨fun h => hcancellations ▸ h, fun {fact} h => .inl ⟨fact, hfact ▸ h, rfl⟩⟩

theorem Advances.refl (sys : System) : Advances sys sys := .of_fact rfl rfl

theorem Advances.steady {sys mid later : System} (h : Advances sys mid) (h' : Steady mid later) :
    Advances sys later :=
  ⟨fun hcanceled => h'.cancellations (h.cancellations hcanceled),
    fun hfact => h.fact (h'.fact ▸ hfact)⟩

theorem Steady.advances {sys later : System} (h : Steady sys later) : Advances sys later :=
  ⟨h.cancellations, fun {fact} hfact => .inl ⟨fact, h.fact ▸ hfact, rfl⟩⟩

namespace Sound

variable {sys later : System}

/-- A request with a cancellation is not launched. -/
theorem launch_advances {execution : WorkloadExecutionReference}
    (hcanceled : sys.cancellations.has execution.requestId = false) (fingerprint : String)
    (spawn : Spawn) :
    Advances sys ((sys.publish (System.claimed execution fingerprint spawn)).launch
      (System.claimed execution fingerprint spawn) spawn) := by
  have hclaimed : (System.claimed execution fingerprint spawn).phase ≠ .exited := nofun
  cases hspawn : spawn.pid with
  | none =>
      simp only [System.launch, hspawn]
      rw [System.publish_eq _ hclaimed, System.publish_eq _ (by simp)]
      refine ⟨id, fun hfact => .inr ?_⟩
      rw [← Option.some.inj hfact]
      exact hcanceled
  | some pid =>
      simp only [System.launch, hspawn]
      rw [System.publish_eq _ hclaimed, System.publish_eq _ (by simp)]
      refine ⟨id, fun hfact => .inr ?_⟩
      rw [← Option.some.inj hfact]
      exact hcanceled

/-- The one spawn: the claim and what comes of it are shown. -/
theorem launch (h : Sound sys) (hnone : sys.fact = none)
    (execution : WorkloadExecutionReference) (fingerprint : String) {spawn : Spawn}
    (hpid : spawn.pid ≠ some 0) :
    Sound ((sys.publish (System.claimed execution fingerprint spawn)).launch
      (System.claimed execution fingerprint spawn) spawn) := by
  have hclaimed : (System.claimed execution fingerprint spawn).phase ≠ .exited := nofun
  -- nothing was spawned yet, so no group is stopped or polled
  have hid : sys.processGroupId = none := by simp [System.processGroupId, hnone]
  have hstopped : sys.groupStopped = false := by
    by_contra hstopped
    simpa [hid] using (h.stopped (by simpa using hstopped)).1
  have hpolled : sys.groupStop = none := by
    by_contra hpolled
    simpa [hid] using h.polled (Option.isSome_iff_ne_none.2 hpolled)
  cases h.stage with
  | idle _ hspawned hobserved hdrained =>
      -- without a pid the spawn failed and the fact is lost; with one the process runs
      cases hspawn : spawn.pid with
      | none =>
          simp only [System.launch, hspawn]
          rw [System.publish_eq _ hclaimed, System.publish_eq _ (by simp)]
          refine ⟨.lost rfl rfl hspawned (by simp [System.facts]) hdrained, fun hstopped' => ?_,
            fun hpolled' => ?_, fun hended => ?_, ?_, ?_⟩
          · simp [hstopped] at hstopped'
          · simp [hpolled] at hpolled'
          · simp [hpolled] at hended
          · simp [System.facts, hobserved, canRecord, System.claimed, FiniteProcessFact.ended]
          · simp [hobserved, System.claimed]
      | some pid =>
          have hgroup : pid ≠ 0 := fun hzero => hpid (by rw [hspawn, hzero])
          simp only [System.launch, hspawn]
          rw [System.publish_eq _ hclaimed, System.publish_eq _ (by simp)]
          refine ⟨.running rfl rfl (by simp [System.processGroupId, hgroup]) (by simp [hspawned])
            (by simp [System.facts]) rfl, fun hstopped' => ?_,
            fun hpolled' => ?_, fun hended => ?_, ?_, ?_⟩
          · simp [hstopped] at hstopped'
          · simp [hpolled] at hpolled'
          · simp [hpolled] at hended
          · simp [System.facts, hobserved, canRecord, System.claimed, FiniteProcessFact.ended]
          · simp [hobserved, System.claimed]
  | lost hfact => simp [hnone] at hfact
  | running hfact => simp [hnone] at hfact
  | exited hfact => simp [hnone] at hfact

theorem start (h : Sound sys) (execution : WorkloadExecutionReference) (fingerprint : String)
    {spawn : Spawn} (hpid : spawn.pid ≠ some 0) :
    Sound (sys.start execution fingerprint spawn).1 ∧
      Advances sys (sys.start execution fingerprint spawn).1 := by
  unfold System.start
  split_ifs with hruntime hcanceled
  · exact ⟨h, .refl sys⟩
  · exact ⟨h, .refl sys⟩
  · cases hfact : sys.fact with
    | some fact =>
        dsimp only
        split_ifs <;> exact ⟨h, .refl sys⟩
    | none =>
        have hallowed : sys.cancellations.has execution.requestId = false := by
          simpa [hfact] using hcanceled
        exact ⟨h.launch hfact execution fingerprint hpid, launch_advances hallowed fingerprint spawn⟩

/-- The calls and the tasks that only signal and poll. -/
theorem of_steady (h : Sound sys) (hsteady : Steady sys later) : Sound later ∧ Advances sys later :=
  ⟨h.steady hsteady, hsteady.advances⟩

theorem cancelOperation (h : Sound sys) (execution : WorkloadExecutionReference)
    (cancelId : String) (graceMs : Option Nat) {moment : Moment}
    (hmoment : moment.Answers sys.processGroupId sys.group) :
    Steady sys (sys.cancelOperation execution cancelId graceMs moment).1 := by
  unfold System.cancelOperation
  dsimp only
  split_ifs with hruntime hconflict hterminal hnone
  · exact .refl sys
  · exact .refl sys
  · exact .refl sys
  · exact .cancel sys _ _
  · have hid : sys.processGroupId.isSome = true := by
      rw [Option.isNone_iff_eq_none] at hnone
      obtain ⟨fact, hfound⟩ := Option.ne_none_iff_exists'.1 hnone
      have hfact := (System.found_eq_some hfound).1
      cases h.stage with
      | idle hnone' => simp [hnone'] at hfact
      | lost hlost hphase =>
          obtain rfl := Option.some.inj (hlost.symm.trans hfact)
          simp [hfound, hphase] at hterminal
      | running _ _ hid => exact hid
      | exited _ _ hid => exact hid
    have hcanceled := Steady.cancel sys execution.requestId cancelId
    split
    · exact hcanceled
    · rename_i stopped hstop
      exact hcanceled.trans (Steady.stopGroup hmoment hid hstop)

theorem leave (h : Sound sys) {running : FiniteProcessFact}
    (hdrained : sys.drained = .awaitsExit running) (code : Int) (signalCode : Option String)
    (endedAt : String) :
    Sound (sys.leave (System.exitedFact running code signalCode endedAt)) ∧
      (sys.leave (System.exitedFact running code signalCode endedAt)).processGroupId.isSome = true ∧
      (sys.leave (System.exitedFact running code signalCode endedAt)).processGroupId =
        sys.processGroupId ∧
      Advances sys (sys.leave (System.exitedFact running code signalCode endedAt)) := by
  cases h.stage with
  | idle _ _ _ hinitial => simp [hinitial] at hdrained
  | lost _ _ _ _ hinitial => simp [hinitial] at hdrained
  | exited _ _ _ _ _ _ hlater =>
      rcases hlater with (hlater | hlater) | ⟨-, hlater | hlater⟩ <;> simp [hlater] at hdrained
  | @running fact hfact hphase hid hspawned hlast hawaits =>
      have hfact' : fact = running := Drained.awaitsExit.inj (hawaits.symm.trans hdrained)
      subst hfact'
      have hsame : (sys.leave (System.exitedFact fact code signalCode endedAt)).processGroupId =
          sys.processGroupId := by
        simp [System.processGroupId, System.leave, System.exitedFact, hfact]
      have hrecord := canRecord_exitedFact hphase code signalCode endedAt
      refine ⟨⟨.exited rfl rfl (hsame ▸ hid) hspawned hlast hrecord (.inl (.inl rfl)), ?_, ?_, h.ended,
        h.chain, h.shown⟩, hsame ▸ hid, hsame, id, fun hleft => .inl ⟨fact, hfact, ?_⟩⟩
      · rw [hsame]
        exact h.stopped
      · rw [hsame]
        exact h.polled
      · rw [← Option.some.inj hleft]
        rfl

/-- The task of `drained` goes on when the group has stopped, so the fact is shown. -/
theorem showExited (h : Sound sys) (hdrained : sys.drained = .awaitsStop)
    (hended : sys.groupStop = some .ended) :
    Sound { sys.replay with drained := .awaitsPumps } ∧
      Advances sys { sys.replay with drained := .awaitsPumps } := by
  have hstopped := h.ended hended
  cases h.stage with
  | idle _ _ _ hinitial => simp [hinitial] at hdrained
  | lost _ _ _ _ hinitial => simp [hinitial] at hdrained
  | running _ _ _ _ _ hawaits => simp [hawaits] at hdrained
  | @exited fact _ hfact hphase hid hspawned _ _ _ =>
      have hreplay : sys.replay = sys.observe fact := by
        simp [System.replay, hfact, hstopped]
      have hshown := h.observe hfact fun _ => (h.stopped hstopped).2
      rw [hreplay]
      refine ⟨⟨.exited hfact hphase hid hspawned ?_ (canRecord_self fact) (.inr ⟨rfl, .inl rfl⟩),
        hshown.stopped, hshown.polled, hshown.ended, hshown.chain, hshown.shown⟩,
        id, fun hfact' => .inl ⟨_, hfact', rfl⟩⟩
      simp [System.facts, System.observe]

/-- The task of `drained` throws, and the fact stays private for now. -/
theorem failed (h : Sound sys) (hdrained : sys.drained = .awaitsStop) :
    Sound { sys with drained := .failed } := by
  refine ⟨?_, h.stopped, h.polled, h.ended, h.chain, h.shown⟩
  cases h.stage with
  | idle _ _ _ hinitial => simp [hinitial] at hdrained
  | lost _ _ _ _ hinitial => simp [hinitial] at hdrained
  | running _ _ _ _ _ hawaits => simp [hawaits] at hdrained
  | exited hfact hphase hid hspawned hlast hrecord _ =>
      exact .exited hfact hphase hid hspawned hlast hrecord (.inl (.inr rfl))

theorem pumped (h : Sound sys) (hdrained : sys.drained = .awaitsPumps) :
    Sound { sys with drained := .settled } := by
  refine ⟨?_, h.stopped, h.polled, h.ended, h.chain, h.shown⟩
  cases h.stage with
  | idle _ _ _ hinitial => simp [hinitial] at hdrained
  | lost _ _ _ _ hinitial => simp [hinitial] at hdrained
  | running _ _ _ _ _ hawaits => simp [hawaits] at hdrained
  | exited hfact hphase hid hspawned hlast hrecord hlater =>
      rcases hlater with (hlater | hlater) | ⟨hshown, -⟩
      · simp [hlater] at hdrained
      · simp [hlater] at hdrained
      · exact .exited hfact hphase hid hspawned hlast hrecord (.inr ⟨hshown, .inr rfl⟩)

/-- A group without writers gets none. -/
theorem group (h : Sound sys) {group : Group} (hgroup : group ≠ .writers) :
    Sound { sys with group := some group } := by
  refine ⟨?_, fun hstopped => ⟨(h.stopped hstopped).1, by simpa using hgroup⟩, h.polled, h.ended,
    h.chain, h.shown⟩
  cases h.stage with
  | idle hfact hspawned hobserved hdrained => exact .idle hfact hspawned hobserved hdrained
  | lost hfact hphase hspawned hlast hdrained => exact .lost hfact hphase hspawned hlast hdrained
  | running hfact hphase hid hspawned hlast hdrained =>
      exact .running hfact hphase hid hspawned hlast hdrained
  | exited hfact hphase hid hspawned hlast hrecord hdrained =>
      exact .exited hfact hphase hid hspawned hlast hrecord hdrained

theorem step (h : Sound sys) {label : Event × Answer} (hstep : Steps sys label later) :
    Sound later ∧ Advances sys later := by
  obtain ⟨event, answer⟩ := label
  obtain ⟨hanswers, hlater⟩ := hstep
  cases event with
  | start execution fingerprint spawn =>
      obtain rfl := congrArg Prod.fst (Option.some.inj hlater)
      exact h.start execution fingerprint hanswers
  | lookup execution =>
      obtain rfl := congrArg Prod.fst (Option.some.inj hlater)
      exact ⟨h, .refl _⟩
  | cancel execution moment =>
      obtain rfl := congrArg Prod.fst (Option.some.inj hlater)
      exact h.of_steady (.signal execution hanswers.kill)
  | cancelOperation execution cancelId graceMs moment =>
      obtain rfl := congrArg Prod.fst (Option.some.inj hlater)
      exact h.of_steady (h.cancelOperation execution cancelId graceMs hanswers)
  | stopWriters moment =>
      obtain rfl := congrArg Prod.fst (Option.some.inj hlater)
      exact h.of_steady (.stopWriters hanswers.kill)
  | replay =>
      obtain rfl := congrArg Prod.fst (Option.some.inj hlater)
      exact ⟨h.replay, .of_fact sys.replay_fact sys.replay_cancellations⟩
  | exit code signalCode endedAt moment =>
      simp only [System.step] at hlater
      split at hlater
      case h_1 running hdrained =>
        obtain rfl := congrArg Prod.fst (Option.some.inj hlater)
        obtain ⟨hleft, hid, hsame, hadvances⟩ := h.leave hdrained code signalCode endedAt
        unfold System.exit
        cases hstop : System.stopGroup sys.finalizationGraceMs moment
            (sys.leave (System.exitedFact running code signalCode endedAt)) with
        | none => exact ⟨hleft.failed rfl, hadvances.cancellations, hadvances.fact⟩
        | some stopped =>
            -- the writers of the group are stopped after the leader has left
            have hsteady := Steady.stopGroup (hsame.symm ▸ hanswers) hid hstop
            exact ⟨hleft.steady hsteady, hadvances.steady hsteady⟩
      case h_2 => cases hlater
  | poll moment =>
      simp only [System.step] at hlater
      split_ifs at hlater with hpolls
      obtain rfl := congrArg Prod.fst (Option.some.inj hlater)
      exact h.of_steady (.pollGroupStop hanswers (h.polled (by rw [hpolls]; rfl)))
  | timer moment =>
      simp only [System.step] at hlater
      split_ifs at hlater with hdue
      obtain rfl := congrArg Prod.fst (Option.some.inj hlater)
      exact h.of_steady (.fireTimer hanswers.kill)
  | resumeStop i moment =>
      simp only [System.step] at hlater
      split at hlater
      case h_1 =>
        split_ifs at hlater with hexited
        obtain rfl := congrArg Prod.fst (Option.some.inj hlater)
        exact h.of_steady (.resumeStop hanswers i)
      case h_2 =>
        obtain rfl := congrArg Prod.fst (Option.some.inj hlater)
        exact h.of_steady (.resumeStop hanswers i)
      case h_3 => cases hlater
  | stopped =>
      simp only [System.step] at hlater
      split at hlater
      case h_1 hdrained hended =>
        obtain rfl := congrArg Prod.fst (Option.some.inj hlater)
        exact h.showExited hdrained hended
      case h_2 hdrained hended =>
        obtain rfl := congrArg Prod.fst (Option.some.inj hlater)
        exact ⟨h.failed hdrained, .of_fact rfl rfl⟩
      case h_3 => cases hlater
  | pumped =>
      simp only [System.step] at hlater
      split at hlater
      case h_1 hdrained =>
        obtain rfl := congrArg Prod.fst (Option.some.inj hlater)
        exact ⟨h.pumped hdrained, .of_fact rfl rfl⟩
      case h_2 => cases hlater
  | group group =>
      simp only [System.step] at hlater
      split at hlater
      case h_4 => cases hlater
      all_goals
        obtain rfl := congrArg Prod.fst (Option.some.inj hlater)
        exact ⟨h.group nofun, .of_fact rfl rfl⟩

end Sound

/-! ### Every run -/

/-- A cancellation is kept, and no fact is about the request. -/
def Refused (requestId : String) (sys : System) : Prop :=
  sys.cancellations.has requestId = true ∧
    ∀ {fact}, sys.fact = some fact → fact.execution.requestId ≠ requestId

theorem Refused.advances {requestId : String} {sys later : System} (h : Refused requestId sys)
    (hadvances : Advances sys later) : Refused requestId later := by
  refine ⟨hadvances.cancellations h.1, fun {fact} hfact hrequest => ?_⟩
  rcases hadvances.fact hfact with ⟨earlier, hearlier, hsame⟩ | hnone
  · exact h.2 hearlier (hsame.trans hrequest)
  · rw [hrequest, h.1] at hnone
    cases hnone

/-- A cancellation before the start refuses the request. -/
theorem refused_of_canceled {sys later : System} {label : Event × Answer} {requestId : String}
    (h : Steps sys label later) (hcanceled : canceled label = some requestId) :
    Refused requestId later := by
  unfold canceled at hcanceled
  split at hcanceled
  case h_2 => cases hcanceled
  case h_1 execution cancelId graceMs moment =>
    obtain rfl := Option.some.inj hcanceled
    have hcall := Option.some.inj h.2
    simp only [System.cancelOperation] at hcall
    split_ifs at hcall with hruntime hconflict hterminal hnone
    · cases hcall
    · cases hcall
    · cases hcall
    · obtain rfl := congrArg Prod.fst hcall
      refine ⟨by simp [JsMap.has, JsMap.get_set], fun {fact} hfact hrequest => ?_⟩
      have hfact' : sys.fact = some fact := hfact
      simp [System.found, hfact', hrequest] at hnone
    · split at hcall <;> cases hcall

section

variable {workspaceId incarnationId : String} {finalizationGraceMs : Nat} {sys later : System}
  {labels : List (Event × Answer)}

theorem Sound.run (h : Sound sys) (hrun : Run Steps sys labels later) : Sound later :=
  hrun.invariant (fun hstep hsound => (hsound.step hstep).1) h

theorem Refused.run {requestId : String} (h : Refused requestId sys) (hsound : Sound sys)
    (hrun : Run Steps sys labels later) : Refused requestId later := by
  refine (hrun.invariant (I := fun sys => Sound sys ∧ Refused requestId sys)
    (fun hstep hstate => ?_) ⟨hsound, h⟩).2
  obtain ⟨hnext, hadvances⟩ := hstate.1.step hstep
  exact ⟨hnext, hstate.2.advances hadvances⟩

theorem spawned_of_canceled (h : Run Steps (.fresh workspaceId incarnationId finalizationGraceMs)
    labels sys) {label : Event × Answer} (hlabel : label ∈ labels) {requestId : String}
    (hcanceled : canceled label = some requestId) : requestId ∉ sys.spawned := by
  obtain ⟨before, after, mid, next, hbefore, hstep, hafter⟩ := h.of_mem hlabel
  have hmid : Sound mid := (sound_fresh _ _ _).run hbefore
  have hnext := (hmid.step hstep).1
  have hrefused := (refused_of_canceled hstep hcanceled).run hnext hafter
  intro hspawned
  obtain ⟨fact, hfact, hrequest⟩ := (hnext.run hafter).stage.spawned_of_fact hspawned
  exact hrefused.2 hfact hrequest

/-- In every run there is at most one child and none for a canceled request, each observed
fact can be recorded after the one before, and an exited fact is observed when the group has
no writers, before `drained` settles. -/
theorem observed_recordable
    (h : Run Steps (.fresh workspaceId incarnationId finalizationGraceMs) labels sys) :
    sys.spawned.length ≤ 1 ∧
      (∀ label ∈ labels, ∀ requestId, canceled label = some requestId →
        requestId ∉ sys.spawned) ∧
      (sys.facts.IsChain fun previous next => canRecord (some previous) next = true) ∧
      (∀ seen ∈ sys.observed, seen.1.phase = .exited → seen.2 ≠ some .writers) ∧
      (sys.drained = .settled → ∃ fact ∈ sys.facts, fact.phase = .exited) := by
  have hsound : Sound sys := (sound_fresh _ _ _).run h
  refine ⟨hsound.stage.spawned_length, fun label hlabel requestId hcanceled =>
    spawned_of_canceled h hlabel hcanceled, hsound.chain, hsound.shown, fun hsettled => ?_⟩
  cases hsound.stage with
  | idle _ _ _ hdrained => simp [hdrained] at hsettled
  | lost _ _ _ _ hdrained => simp [hdrained] at hsettled
  | running _ _ _ _ _ hdrained => simp [hdrained] at hsettled
  | exited _ hphase _ _ hlast _ hdrained =>
      rcases hdrained with (hdrained | hdrained) | ⟨rfl, -⟩
      · simp [hdrained] at hsettled
      · simp [hdrained] at hsettled
      · exact ⟨_, List.mem_of_getLast? hlast, hphase⟩

private def reference (requestId : String) : WorkloadExecutionReference :=
  ⟨"w1", "i1", .process, requestId⟩

/-- One process of group 7, in a state. -/
private def oneProcess (stat : String) : ProcReadings where
  entries := .ok ["7", "self"]
  stat _ := .ok stat
  tasks _ := .ok ["7"]
  taskStat _ _ := .ok stat
  tasksAfter _ := .ok ["7"]
  entriesAfter := .ok ["7", "self"]

private def moment (now : Nat) (stat : String) : Moment :=
  ⟨now, .delivered, .delivered, ⟨.delivered, true, oneProcess stat⟩⟩

private theorem oneProcess_answers (stat : String) {group : Option Group}
    (h : group = some .writers → stat = "7 (sh) S 1 7") :
    (oneProcess stat).Answers 7 group where
  runs hgroup := by
    obtain rfl := h hgroup
    refine ⟨"7", "7", by decide, ?_, ?_, ?_, ?_⟩
    · intro entries hentries
      exact Except.ok.inj hentries ▸ List.mem_cons_self
    · intro _ stat _ _ hstat
      exact Except.ok.inj hstat ▸ (by decide)
    · intro tids htids
      exact Except.ok.inj htids ▸ List.mem_cons_self
    · intro _ stat _ _ hstat
      exact Except.ok.inj hstat ▸ (by decide)
  entries hentries := Except.ok.inj hentries ▸ (by decide)
  tasks htids := Except.ok.inj htids ▸ (by decide)

private theorem moment_answers (now : Nat) (stat : String) {groupId : Option Nat}
    {group : Option Group} (hid : ∀ {id}, groupId = some id → id = 7)
    (h : group = some .writers → stat = "7 (sh) S 1 7") :
    (moment now stat).Answers groupId group where
  kill hkill := by cases hkill
  late hlate := by cases hlate
  probe hsome := by
    obtain rfl := hid hsome
    exact ⟨fun hkill => (by cases hkill), oneProcess_answers stat h⟩

/-- The leader exits before its group: three facts for the connection. -/
theorem observed_recordable_exited :
    ∃ labels sys, Run Steps (.fresh "w1" "i1" 1000) labels sys ∧ sys.drained = .settled ∧
      sys.spawned = ["r1"] ∧ "r2" ∉ sys.spawned ∧
      sys.facts.map FiniteProcessFact.phase = [.claimed, .running, .exited] ∧
      (sys.facts.IsChain fun previous next => canRecord (some previous) next = true) := by
  have hrun : ∃ labels sys, Run Steps (.fresh "w1" "i1" 1000) labels sys ∧
      sys.drained = .settled ∧ sys.spawned = ["r1"] ∧
      sys.facts.map FiniteProcessFact.phase = [.claimed, .running, .exited] ∧
      ∃ label ∈ labels, canceled label = some "r2" := by
    refine ⟨_, _, .cons (a := (Event.cancelOperation (reference "r2") "c1" none (moment 0 ""), _))
      ⟨moment_answers 0 "" (fun h => (by cases h)) (fun h => (by cases h)), rfl⟩
      (.cons (a := (Event.start (reference "r2") "f2" ⟨some 7, "t0", "t1", "t2"⟩, _))
        ⟨fun h => (by cases h), rfl⟩
      (.cons (a := (Event.start (reference "r1") "f1" ⟨some 7, "t0", "t1", "t2"⟩, _))
        ⟨fun h => (by cases h), rfl⟩
      (.cons (a := (Event.exit 0 none "t2" (moment 5 "7 (sh) S 1 7"), _))
        ⟨moment_answers 5 _ (fun h => (Option.some.inj h).symm) (fun _ => rfl), rfl⟩
      (.cons (a := (Event.replay, _)) ⟨trivial, rfl⟩
      (.cons (a := (Event.group .zombies, _)) ⟨trivial, rfl⟩
      (.cons (a := (Event.poll (moment 15 "7 (sh) Z 1 7"), _))
        ⟨moment_answers 15 _ (fun h => (Option.some.inj h).symm) (fun h => (by cases h)), rfl⟩
      (.cons (a := (Event.stopped, _)) ⟨trivial, rfl⟩
      (.single (a := (Event.pumped, _)) ⟨trivial, rfl⟩)))))))), rfl, rfl, rfl, _, .head _, rfl⟩
  obtain ⟨labels, sys, hrun, hsettled, hspawned, hphases, label, hlabel, hcanceled⟩ := hrun
  obtain ⟨-, hrefused, hchain, -, -⟩ := observed_recordable hrun
  exact ⟨labels, sys, hrun, hsettled, hspawned, hrefused label hlabel _ hcanceled, hphases, hchain⟩

end

end PocketCoder.Supervisor
