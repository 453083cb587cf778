import Mathlib.Data.List.Basic
import PocketCoder.Foundation.Transitions

/-!
Processes over a shared state: computations that run one access at a time, in
any order with each other.

A process reads the shared state and may perform one operation on it in the
same step, or it waits for an answer from outside, which may be any value of
the type it asks for. `Performs P` says that every operation of a process
satisfies `P` at the state that the process has read last, which need not be the
state that the operation finds. A running process therefore has a history, the
operations since that read: `Interleaving.Step.sees` says what a step finds in
terms of it.
-/

namespace PocketCoder.Foundation

/-- A computation with results in `α`, between whose steps others may run. -/
inductive Process (σ ω : Type) (α : Type) : Type 1
  | done (value : α)
  | access {β : Type} (operation : Option ω) (answer : σ → β) (next : β → Process σ ω α)
  | ask {β : Type} (next : β → Process σ ω α)

namespace Process

variable {σ ω α β : Type}

def bind (process : Process σ ω α) (f : α → Process σ ω β) : Process σ ω β :=
  match process with
  | .done value => f value
  | .access operation answer next => .access operation answer fun b => (next b).bind f
  | .ask next => .ask fun b => (next b).bind f

instance : Monad (Process σ ω) where
  pure := .done
  bind := .bind

/-- Every operation of the process satisfies `P` at the state that the process
has read last. It has read `s` so far. -/
def Performs (P : σ → ω → Prop) : Process σ ω α → σ → Prop
  | .done _, _ => True
  | .access operation answer next, s =>
      (∀ o, operation = some o → P s o) ∧ ∀ s', (next (answer s')).Performs P s'
  | .ask next, s => ∀ b, (next b).Performs P s

variable {P : σ → ω → Prop}

theorem performs_bind {process : Process σ ω α} {f : α → Process σ ω β} {s : σ}
    (h : process.Performs P s) (hf : ∀ a s', (f a).Performs P s') :
    (process.bind f).Performs P s := by
  induction process generalizing s with
  | done value => exact hf value s
  | access operation answer next ih => exact ⟨h.1, fun s' => ih _ (h.2 s')⟩
  | ask next ih => exact fun b => ih b (h b)

/-- One step of a process. -/
inductive Step (apply : σ → ω → σ) : σ → Process σ ω α → Option ω → σ → Process σ ω α → Prop
  | access {β : Type} {s : σ} (operation : Option ω) (answer : σ → β) (next : β → Process σ ω α) :
      Step apply s (.access operation answer next) operation (operation.elim s (apply s))
        (next (answer s))
  | ask {β : Type} {s : σ} (next : β → Process σ ω α) (b : β) :
      Step apply s (.ask next) none s (next b)

end Process

/-! ### Processes that may throw -/

/-- An asynchronous function of the source. -/
abbrev Async (σ ω α : Type) := ExceptT Unit (Process σ ω) α

namespace Async

variable {σ ω α β : Type}

/-- An access that only reads. -/
def read (answer : σ → α) : Async σ ω α := ExceptT.lift (.access none answer .done)

/-- An access that performs an operation, with what it answers. -/
def perform (operation : ω) (answer : σ → α) : Async σ ω α :=
  ExceptT.lift (.access (some operation) answer .done)

/-- A value from outside. -/
def outside : Async σ ω α := ExceptT.lift (.ask .done)

/-- A call to the outside, which may throw. -/
def call : Async σ ω α := ExceptT.mk (.ask .done)

/-- `try` with the exception as a value. -/
def attempt (task : Async σ ω α) : Async σ ω (Except Unit α) := ExceptT.lift task.run

/-- `Process.Performs` for a function that starts when `s` is read last. -/
def PerformsFrom (P : σ → ω → Prop) (s : σ) (task : Async σ ω α) : Prop :=
  Process.Performs P task.run s

/-- What the function does is right whatever was read before. -/
def Performs (P : σ → ω → Prop) (task : Async σ ω α) : Prop := ∀ s, PerformsFrom P s task

variable {P : σ → ω → Prop} {task : Async σ ω α} {s : σ}

theorem performs_pure (a : α) : Performs P (pure a : Async σ ω α) := fun _ => trivial

theorem performs_throw : Performs P (throw () : Async σ ω α) := fun _ => trivial

theorem performs_lift {process : Process σ ω α} (h : ∀ s, process.Performs P s) :
    Performs P (ExceptT.lift process : Async σ ω α) :=
  fun s => Process.performs_bind (h s) fun _ _ => trivial

theorem PerformsFrom.bind {f : α → Async σ ω β} (h : PerformsFrom P s task)
    (hf : ∀ a, Performs P (f a)) : PerformsFrom P s (task >>= f) := by
  refine Process.performs_bind h fun result s' => ?_
  cases result with
  | error e => trivial
  | ok a => exact hf a s'

theorem performs_bind {f : α → Async σ ω β} (h : Performs P task) (hf : ∀ a, Performs P (f a)) :
    Performs P (task >>= f) :=
  fun s => (h s).bind hf

/-- What follows a read may use what was read. -/
theorem performs_read_bind {answer : σ → α} {f : α → Async σ ω β}
    (h : ∀ s, PerformsFrom P s (f (answer s))) : Performs P (read answer >>= f) :=
  fun _ => ⟨fun _ ho => (by cases ho), h⟩

theorem performs_read (answer : σ → α) : Performs P (read answer : Async σ ω α) :=
  performs_lift fun _ => ⟨fun _ ho => (by cases ho), fun _ => trivial⟩

theorem performs_perform {operation : ω} (h : ∀ s, P s operation) (answer : σ → α) :
    Performs P (perform operation answer : Async σ ω α) :=
  performs_lift fun s => ⟨fun _ ho => Option.some.inj ho ▸ h s, fun _ => trivial⟩

theorem PerformsFrom.perform {operation : ω} (h : P s operation) (answer : σ → α) :
    PerformsFrom P s (perform operation answer : Async σ ω α) :=
  ⟨fun _ ho => Option.some.inj ho ▸ h, fun _ => trivial⟩

theorem PerformsFrom.outside {f : α → Async σ ω β} (h : ∀ a, PerformsFrom P s (f a)) :
    PerformsFrom P s (outside >>= f) :=
  h

theorem performs_outside : Performs P (outside : Async σ ω α) := performs_lift fun _ _ => trivial

theorem performs_call : Performs P (call : Async σ ω α) := fun _ _ => trivial

theorem performs_attempt (h : Performs P task) : Performs P (attempt task) := performs_lift h

theorem performs_discard (h : Performs P task) : Performs P (discard task) := by
  refine fun s => Process.performs_bind (h s) fun result _ => ?_
  cases result <;> trivial

theorem performs_ite {condition : Prop} [Decidable condition] {task' : Async σ ω α}
    (h : condition → Performs P task) (h' : ¬condition → Performs P task') :
    Performs P (if condition then task else task') := by
  split
  · exact h ‹_›
  · exact h' ‹_›

theorem performs_option_forM {item : Option α} {f : α → Async σ ω Unit}
    (h : ∀ a, Performs P (f a)) : Performs P (item.forM f) := by
  cases item with
  | none => exact performs_pure _
  | some a => exact h a

theorem performs_forM {items : List α} {f : α → Async σ ω Unit}
    (h : ∀ item ∈ items, Performs P (f item)) : Performs P (items.forM f) := by
  induction items with
  | nil => exact performs_pure _
  | cons item items ih =>
      rw [List.forM_eq_forM, List.forM_cons]
      refine performs_bind (h item List.mem_cons_self) fun _ => ?_
      exact ih fun other hother => h other (List.mem_cons_of_mem _ hother)

theorem performs_foldlM {items : List α} {f : β → α → Async σ ω β} {b : β}
    (h : ∀ b, ∀ item ∈ items, Performs P (f b item)) : Performs P (items.foldlM f b) := by
  induction items generalizing b with
  | nil => exact performs_pure _
  | cons item items ih =>
      rw [List.foldlM_cons]
      refine performs_bind (h b item List.mem_cons_self) fun _ => ?_
      exact ih fun b other hother => h b other (List.mem_cons_of_mem _ hother)

end Async

/-! ### Interleavings -/

/-- A running process. `since` is its history: the operations since its last
access, each with the state that it found. -/
structure Thread (σ ω : Type) where
  process : Process σ ω (Except Unit Unit)
  since : List (σ × ω)

/-- The shared state, and the processes that are running. -/
structure Interleaving (σ ω : Type) where
  state : σ
  threads : List (Thread σ ω)

namespace Interleaving

variable {σ ω : Type}

/-- An operation goes into the history of every process. -/
def record (s : σ) : Option ω → List (Thread σ ω) → List (Thread σ ω)
  | none, threads => threads
  | some o, threads => threads.map fun thread => { thread with since := thread.since ++ [(s, o)] }

/-- A task starts, a process makes a step, or an operation comes from outside.
The label is the operation. `may` is the schedule: the operations that a process
may perform, by what has happened since its last access. -/
inductive Step (apply : σ → ω → σ) (starts : Async σ ω Unit → Prop) (foreign : ω → Prop)
    (may : List (σ × ω) → ω → Prop) (system : Interleaving σ ω) :
    Option ω → Interleaving σ ω → Prop
  | start {task : Async σ ω Unit} : starts task →
      Step apply starts foreign may system none
        { system with threads := system.threads ++ [⟨task.run, []⟩] }
  | access {β : Type} {i : Nat} {operation : Option ω} {answer : σ → β}
      {next : β → Process σ ω (Except Unit Unit)} {since : List (σ × ω)} :
      system.threads[i]? = some ⟨.access operation answer next, since⟩ →
      (∀ o, operation = some o → may since o) →
      Step apply starts foreign may system operation
        { state := operation.elim system.state (apply system.state)
          threads := (record system.state operation system.threads).set i
            ⟨next (answer system.state), (operation.map fun o => (system.state, o)).toList⟩ }
  | ask {β : Type} {i : Nat} {next : β → Process σ ω (Except Unit Unit)} {since : List (σ × ω)}
      (b : β) : system.threads[i]? = some ⟨.ask next, since⟩ →
      Step apply starts foreign may system none
        { system with threads := system.threads.set i ⟨next b, since⟩ }
  | foreign {operation : ω} : foreign operation →
      Step apply starts foreign may system (some operation)
        ⟨apply system.state operation, record system.state (some operation) system.threads⟩

variable {apply : σ → ω → σ} {starts : Async σ ω Unit → Prop} {foreign : ω → Prop}
  {may may' : List (σ × ω) → ω → Prop} {P : σ → ω → Prop} {Q : σ → ω → Prop}
  {system system' : Interleaving σ ω} {label : Option ω}

theorem Step.mono (h : Step apply starts foreign may system label system')
    (hmay : ∀ since o, label = some o → may since o → may' since o) :
    Step apply starts foreign may' system label system' := by
  cases h with
  | start hstart => exact .start hstart
  | access hthread hschedule =>
      exact .access hthread fun o ho => hmay _ o ho (hschedule o ho)
  | ask b hthread => exact .ask b hthread
  | foreign hoperation => exact .foreign hoperation

theorem Step.state_eq (h : Step apply starts foreign may system label system') :
    system'.state = label.elim system.state (apply system.state) := by
  cases h <;> rfl

/-- A history as the steps that it is made of. -/
def Recorded (apply : σ → ω → σ) (Q : σ → ω → Prop) (s : σ) (entry : σ × ω) (s' : σ) : Prop :=
  entry.1 = s ∧ Q s entry.2 ∧ s' = apply s entry.2

/-- The operations of the thread satisfy `P` at the state that it has read last,
and its history leads from there to `s` by operations with `Q`. -/
def Sees (apply : σ → ω → σ) (P Q : σ → ω → Prop) (s : σ) (thread : Thread σ ω) : Prop :=
  ∃ seen, thread.process.Performs P seen ∧ Run (Recorded apply Q) seen thread.since s

theorem Recorded.run {o : ω} {s : σ} (h : Q s o) : Run (Recorded apply Q) s [(s, o)] (apply s o) :=
  .single ⟨rfl, h, rfl⟩

theorem Sees.record {s : σ} {threads : List (Thread σ ω)}
    (h : ∀ thread ∈ threads, Sees apply P Q s thread) (hlabel : ∀ o, label = some o → Q s o) :
    ∀ thread ∈ record s label threads, Sees apply P Q (label.elim s (apply s)) thread := by
  intro thread hmem
  cases label with
  | none => exact h thread hmem
  | some o =>
      obtain ⟨other, hother, rfl⟩ := List.mem_map.mp hmem
      obtain ⟨seen, hperforms, hrun⟩ := h other hother
      exact ⟨seen, hperforms, hrun.append (Recorded.run (hlabel o rfl))⟩

/-- What is known of the operation of a step. -/
theorem Step.found (h : Step apply starts foreign may system label system')
    (hsystem : ∀ thread ∈ system.threads, Sees apply P Q system.state thread) {o : ω}
    (ho : label = some o) : foreign o ∨ ∃ since seen, may since o ∧ P seen o ∧
      Run (Recorded apply Q) seen since system.state := by
  cases h with
  | start hstart => cases ho
  | ask b hthread => cases ho
  | foreign hoperation => exact .inl (Option.some.inj ho ▸ hoperation)
  | access hthread hschedule =>
      obtain ⟨seen, hperforms, hrun⟩ := hsystem _ (List.mem_of_getElem? hthread)
      exact .inr ⟨_, seen, hschedule o ho, hperforms.1 o ho, hrun⟩

/-- A step leaves every thread with what it sees. -/
theorem Step.sees (h : Step apply starts foreign may system label system')
    (hsystem : ∀ thread ∈ system.threads, Sees apply P Q system.state thread)
    (hstarts : ∀ task, starts task → task.Performs P)
    (hlabel : ∀ o, label = some o → Q system.state o) :
    ∀ thread ∈ system'.threads, Sees apply P Q system'.state thread := by
  intro thread hmem
  cases h with
  | start hstart =>
      rcases List.mem_append.mp hmem with hmem | hmem
      · exact hsystem thread hmem
      · rw [List.mem_singleton.mp hmem]
        exact ⟨system.state, hstarts _ hstart _, .nil _⟩
  | access hthread hschedule =>
      rcases List.mem_or_eq_of_mem_set hmem with hmem | rfl
      · exact Sees.record hsystem hlabel thread hmem
      · obtain ⟨seen, hperforms, -⟩ := hsystem _ (List.mem_of_getElem? hthread)
        refine ⟨system.state, hperforms.2 _, ?_⟩
        cases label with
        | none => exact .nil _
        | some o => exact Recorded.run (hlabel o rfl)
  | ask b hthread =>
      rcases List.mem_or_eq_of_mem_set hmem with hmem | rfl
      · exact hsystem thread hmem
      · obtain ⟨seen, hperforms, hrun⟩ := hsystem _ (List.mem_of_getElem? hthread)
        exact ⟨seen, hperforms b, hrun⟩
  | foreign hoperation => exact Sees.record hsystem hlabel thread hmem

end Interleaving

end PocketCoder.Foundation
