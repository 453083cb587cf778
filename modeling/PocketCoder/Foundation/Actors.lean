import Mathlib.Logic.Function.Basic
import PocketCoder.Foundation.Processes

/-!
Actors that share a state: each runs one process at a time, may crash at any
step, and relies on what the other actors guarantee.

`Process.Ensures` is the rely-guarantee triple of a process. Whatever the other
actors do between its steps, each of its operations is one that it may do, and
where it ends its postcondition holds. The rules for it follow the way an
asynchronous function is written; `Actors.Step.sound` carries the triples of all
actors over a step of any of them.
-/

namespace PocketCoder.Foundation

/-- What the actors of a system do to its state, and what they rely on. -/
structure Discipline (ι σ ω : Type) where
  apply : σ → ω → σ
  invariant : σ → Prop
  /-- What may have happened between two steps of the actor. -/
  relies : ι → σ → σ → Prop
  /-- The operations that the actor does. -/
  guarantees : ι → σ → ω → Prop
  /-- The operations that come from outside. -/
  foreign : σ → ω → Prop
  refl : ∀ i s, relies i s s
  trans : ∀ {i s s' s''}, relies i s s' → relies i s' s'' → relies i s s''
  keeps : ∀ {i s o}, invariant s → guarantees i s o → invariant (apply s o)
  keeps_foreign : ∀ {s o}, invariant s → foreign s o → invariant (apply s o)
  respects : ∀ {i j s o}, i ≠ j → invariant s → guarantees i s o → relies j s (apply s o)
  respects_foreign : ∀ {i s o}, invariant s → foreign s o → relies i s (apply s o)

/-! ### Triples -/

namespace Process

variable {ι σ ω α β : Type} (d : Discipline ι σ ω) (i : ι)

/-- The process of an actor does what the actor may do, and ends as `post` says. -/
def Ensures (post : α → σ → Prop) : Process σ ω α → σ → Prop
  | .done a, s => ∀ s', d.invariant s' → d.relies i s s' → post a s'
  | .access operation answer next, s => ∀ s', d.invariant s' → d.relies i s s' →
      (∀ o, operation = some o → d.guarantees i s' o) ∧
        (next (answer s')).Ensures post (operation.elim s' (d.apply s'))
  | .ask next, s => ∀ b, (next b).Ensures post s

variable {d i} {post post' : α → σ → Prop} {process : Process σ ω α} {s s' : σ}

/-- What the others do leaves a triple as it is. -/
theorem Ensures.stable (h : process.Ensures d i post s) (hrelies : d.relies i s s') :
    process.Ensures d i post s' := by
  induction process with
  | done a => exact fun s'' hinvariant hmore => h s'' hinvariant (d.trans hrelies hmore)
  | access operation answer next =>
    exact fun s'' hinvariant hmore => h s'' hinvariant (d.trans hrelies hmore)
  | ask next ih => exact fun b => ih b (h b)

theorem Ensures.mono (h : process.Ensures d i post s)
    (hpost : ∀ a s', d.invariant s' → post a s' → post' a s') : process.Ensures d i post' s := by
  induction process generalizing s with
  | done a => exact fun s' hinvariant hrelies => hpost a s' hinvariant (h s' hinvariant hrelies)
  | access operation answer next ih =>
      intro s' hinvariant hrelies
      obtain ⟨hguarantees, hnext⟩ := h s' hinvariant hrelies
      exact ⟨hguarantees, ih _ hnext⟩
  | ask next ih => exact fun b => ih b (h b)

theorem invariant_elim {operation : Option ω} (hinvariant : d.invariant s)
    (hguarantees : ∀ o, operation = some o → d.guarantees i s o) :
    d.invariant (operation.elim s (d.apply s)) := by
  cases operation with
  | none => exact hinvariant
  | some o => exact d.keeps hinvariant (hguarantees o rfl)

theorem Ensures.bind {f : α → Process σ ω β} {post : β → σ → Prop} (hinvariant : d.invariant s)
    (h : process.Ensures d i (fun a s => (f a).Ensures d i post s) s) :
    (process.bind f).Ensures d i post s := by
  induction process generalizing s with
  | done a => exact h s hinvariant (d.refl i s)
  | access operation answer next ih =>
      intro s' hinvariant' hrelies
      obtain ⟨hguarantees, hnext⟩ := h s' hinvariant' hrelies
      exact ⟨hguarantees, ih _ (invariant_elim hinvariant' hguarantees) hnext⟩
  | ask next ih => exact fun b => ih b hinvariant (h b)

/-- A relation that every step keeps to holds from the start to the end. -/
theorem Ensures.relates {R : σ → σ → Prop} (hrelies : ∀ {s s'}, d.relies i s s' → R s s')
    (happly : ∀ s o, R s (d.apply s o)) (htrans : ∀ {s s' s''}, R s s' → R s' s'' → R s s'')
    {s₀ : σ} (hstart : R s₀ s) (h : process.Ensures d i post s) :
    process.Ensures d i (fun a s => post a s ∧ R s₀ s) s := by
  induction process generalizing s with
  | done a =>
      exact fun s' hinvariant hmore => ⟨h s' hinvariant hmore, htrans hstart (hrelies hmore)⟩
  | access operation answer next ih =>
      intro s' hinvariant hmore
      obtain ⟨hguarantees, hnext⟩ := h s' hinvariant hmore
      refine ⟨hguarantees, ih _ ?_ hnext⟩
      cases operation with
      | none => exact htrans hstart (hrelies hmore)
      | some o => exact htrans (htrans hstart (hrelies hmore)) (happly s' o)
  | ask next ih => exact fun b => ih b hstart (h b)

/-- A step of the process. -/
theorem Ensures.step {process' : Process σ ω α} {operation : Option ω}
    (h : process.Ensures d i post s) (hinvariant : d.invariant s)
    (hstep : process.Step d.apply s operation s' process') :
    (∀ o, operation = some o → d.guarantees i s o) ∧ s' = operation.elim s (d.apply s) ∧
      process'.Ensures d i post s' := by
  cases hstep with
  | access operation answer next =>
      obtain ⟨hguarantees, hnext⟩ := h s hinvariant (d.refl i s)
      exact ⟨hguarantees, rfl, hnext⟩
  | ask next b => exact ⟨fun _ ho => (by cases ho), rfl, h b⟩

end Process

namespace Async

variable {ι σ ω α β : Type} (d : Discipline ι σ ω) (i : ι)

/-- The triple of an asynchronous function, for what it returns and for what it
leaves when it throws. -/
def Settles (post : Except Unit α → σ → Prop) (task : Async σ ω α) (s : σ) : Prop :=
  Process.Ensures d i post task.run s

/-- The triple of an asynchronous function: `post` where it does not throw. -/
def Ensures (post : α → σ → Prop) (task : Async σ ω α) (s : σ) : Prop :=
  Settles d i (fun result s => ∀ a, result = .ok a → post a s) task s

variable {d i} {post post' : α → σ → Prop} {task : Async σ ω α} {s s' : σ}

theorem Ensures.mono (h : Ensures d i post task s)
    (hpost : ∀ a s', d.invariant s' → post a s' → post' a s') : Ensures d i post' task s :=
  Process.Ensures.mono h fun _ s' hinvariant hresult a ha => hpost a s' hinvariant (hresult a ha)

theorem Ensures.relates {R : σ → σ → Prop} (hrelies : ∀ {s s'}, d.relies i s s' → R s s')
    (happly : ∀ s o, R s (d.apply s o)) (htrans : ∀ {s s' s''}, R s s' → R s' s'' → R s s'')
    {s₀ : σ} (hstart : R s₀ s) (h : Ensures d i post task s) :
    Ensures d i (fun a s => post a s ∧ R s₀ s) task s :=
  Process.Ensures.mono (Process.Ensures.relates hrelies happly htrans hstart h)
    fun _ _ _ hresult a ha => ⟨hresult.1 a ha, hresult.2⟩

theorem ensures_pure {a : α} (h : ∀ s', d.invariant s' → d.relies i s s' → post a s') :
    Ensures d i post (pure a) s := by
  intro s' hinvariant hrelies a' ha
  obtain rfl := Except.ok.inj ha
  exact h s' hinvariant hrelies

theorem ensures_throw : Ensures d i post (throw () : Async σ ω α) s := by
  intro s' _ _ a ha
  cases ha

theorem ensures_bind {f : α → Async σ ω β} {post : β → σ → Prop} (hinvariant : d.invariant s)
    (h : Ensures d i (fun a s => Ensures d i post (f a) s) task s) :
    Ensures d i post (task >>= f) s := by
  refine Process.Ensures.bind hinvariant (Process.Ensures.mono h fun result s' _ hresult => ?_)
  cases result with
  | error e => exact fun s'' _ _ a ha => by cases ha
  | ok a => exact hresult a rfl

/-- A call to the outside leaves the state as it is. -/
theorem ensures_call {f : α → Async σ ω β} {post : β → σ → Prop}
    (h : ∀ a, Ensures d i post (f a) s) : Ensures d i post (call >>= f) s := by
  intro result
  cases result with
  | error e => exact fun s'' _ _ a ha => by cases ha
  | ok a => exact h a

/-- A call that the function ends with. -/
theorem ensures_last_call (h : ∀ a s', d.invariant s' → d.relies i s s' → post a s') :
    Ensures d i post (call : Async σ ω α) s := by
  intro result s' hinvariant hrelies a _
  exact h a s' hinvariant hrelies

theorem ensures_outside {f : α → Async σ ω β} {post : β → σ → Prop}
    (h : ∀ a, Ensures d i post (f a) s) : Ensures d i post (outside >>= f) s :=
  fun a => h a

theorem ensures_read {answer : σ → α} {f : α → Async σ ω β} {post : β → σ → Prop}
    (h : ∀ s', d.invariant s' → d.relies i s s' → Ensures d i post (f (answer s')) s') :
    Ensures d i post (read answer >>= f) s := by
  intro s' hinvariant hrelies
  exact ⟨fun _ ho => (by cases ho), h s' hinvariant hrelies⟩

theorem ensures_perform {operation : ω} {answer : σ → α} {f : α → Async σ ω β}
    {post : β → σ → Prop}
    (h : ∀ s', d.invariant s' → d.relies i s s' → d.guarantees i s' operation ∧
      Ensures d i post (f (answer s')) (d.apply s' operation)) :
    Ensures d i post (perform operation answer >>= f) s := by
  intro s' hinvariant hrelies
  obtain ⟨hguarantees, hnext⟩ := h s' hinvariant hrelies
  exact ⟨fun o ho => Option.some.inj ho ▸ hguarantees, hnext⟩

/-- A loop over a range of numbers. -/
theorem ensures_forM_range' {body : Nat → Async σ ω Unit} {I : Nat → σ → Prop} {a n : Nat}
    (hinvariant : d.invariant s) (h : I a s)
    (hstable : ∀ {k s s'}, d.invariant s' → I k s → d.relies i s s' → I k s')
    (hbody : ∀ k s, d.invariant s → a ≤ k → k < a + n → I k s →
      Ensures d i (fun _ => I (k + 1)) (body k) s) :
    Ensures d i (fun _ => I (a + n)) ((List.range' a n).forM body) s := by
  induction n generalizing a s with
  | zero => exact ensures_pure fun s' hinvariant' hrelies => hstable hinvariant' h hrelies
  | succ n ih =>
      rw [List.range'_succ, List.forM_eq_forM, List.forM_cons]
      refine ensures_bind hinvariant ((hbody a s hinvariant (Nat.le_refl a) (by omega) h).mono
        fun _ s' hinvariant' hnext => ?_)
      have hrest := ih hinvariant' hnext
        fun k s hk hlow hhigh => hbody k s hk (by omega) (by omega)
      rwa [Nat.add_right_comm] at hrest

theorem ensures_ite {condition : Prop} [Decidable condition] {task' : Async σ ω α}
    (h : condition → Ensures d i post task s) (h' : ¬condition → Ensures d i post task' s) :
    Ensures d i post (if condition then task else task') s := by
  split
  · exact h ‹_›
  · exact h' ‹_›

end Async

/-! ### Undisturbed runs -/

namespace Process

variable {σ ω α β : Type} {apply : σ → ω → σ}

/-- The process may run from `s` to its end in `s'` when nothing comes between. -/
inductive Completes (apply : σ → ω → σ) : σ → Process σ ω α → σ → α → Prop
  | done (s : σ) (a : α) : Completes apply s (.done a) s a
  | access {γ : Type} {s s' : σ} {a : α} {operation : Option ω} {answer : σ → γ}
      {next : γ → Process σ ω α} :
      Completes apply (operation.elim s (apply s)) (next (answer s)) s' a →
      Completes apply s (.access operation answer next) s' a
  | ask {γ : Type} {s s' : σ} {a : α} {next : γ → Process σ ω α} (b : γ) :
      Completes apply s (next b) s' a → Completes apply s (.ask next) s' a

theorem Completes.bind {process : Process σ ω α} {f : α → Process σ ω β} {s s' s'' : σ} {a : α}
    {b : β} (h : Completes apply s process s' a) (h' : Completes apply s' (f a) s'' b) :
    Completes apply s (process.bind f) s'' b := by
  induction h with
  | done s a => exact h'
  | access _ ih => exact .access (ih h')
  | ask b _ ih => exact .ask b (ih h')

end Process

namespace Async

variable {σ ω α β : Type} {apply : σ → ω → σ} {s s' s'' : σ} {a : α} {b : β} {task : Async σ ω α}

/-- The function may return `a`, undisturbed. -/
def Returns (apply : σ → ω → σ) (s : σ) (task : Async σ ω α) (s' : σ) (a : α) : Prop :=
  Process.Completes apply s task.run s' (.ok a)

theorem returns_pure (s : σ) (a : α) : Returns apply s (pure a) s a := .done s _

theorem returns_bind {f : α → Async σ ω β} (h : Returns apply s task s' a)
    (h' : Returns apply s' (f a) s'' b) : Returns apply s (task >>= f) s'' b :=
  Process.Completes.bind h h'

theorem returns_call (a : α) : Returns apply s (call : Async σ ω α) s a := .ask (.ok a) (.done s _)

theorem returns_outside (a : α) : Returns apply s (outside : Async σ ω α) s a := .ask a (.done s _)

theorem returns_read (answer : σ → α) : Returns apply s (read answer : Async σ ω α) s (answer s) :=
  .access (.done s _)

theorem returns_perform (operation : ω) (answer : σ → α) :
    Returns apply s (perform operation answer) (apply s operation) (answer s) :=
  .access (.done _ _)

theorem returns_ite_neg {condition : Prop} [Decidable condition] {task' : Async σ ω α}
    (h : ¬condition) (h' : Returns apply s task' s' a) :
    Returns apply s (if condition then task else task') s' a := by
  rwa [if_neg h]

end Async

/-! ### Actors -/

/-- A call that an actor works on, and the state that it started in. -/
structure Call (κ σ ω ρ : Type) where
  request : κ
  start : σ
  process : Process σ ω (Except Unit ρ)

structure Actors (ι κ σ ω ρ : Type) where
  state : σ
  running : ι → Option (Call κ σ ω ρ)

/-- What can be seen of a step. -/
inductive ActorEvent (ι κ ω ρ : Type)
  | started (i : ι) (request : κ)
  | acted (i : ι) (operation : Option ω)
  | finished (i : ι) (request : κ) (result : Except Unit ρ)
  | crashed (i : ι)
  | foreign (operation : ω)

namespace Actors

variable {ι κ σ ω ρ : Type} (d : Discipline ι σ ω) (program : ι → κ → Async σ ω ρ)
  (loses : ι → Option ω) (post : ι → κ → σ → Except Unit ρ → σ → Prop)

def initial (state : σ) : Actors ι κ σ ω ρ := ⟨state, fun _ => none⟩

/-- The triple of a call. The postcondition sees the state that the call started in. -/
def Holds (i : ι) (call : Call κ σ ω ρ) (state : σ) : Prop :=
  call.process.Ensures d i (post i call.request call.start) state

/-- A postcondition of the calls that return. -/
def Returning (post : ι → κ → σ → ρ → σ → Prop) (i : ι) (request : κ) (start : σ)
    (result : Except Unit ρ) (state : σ) : Prop :=
  ∀ a, result = .ok a → post i request start a state

/-- Every running call has its triple. -/
structure Sound (system : Actors ι κ σ ω ρ) : Prop where
  invariant : d.invariant system.state
  holds : ∀ {i call}, system.running i = some call → Holds d post i call system.state

/-- What a step may be, by what can be seen of it. -/
def Allows (s s' : σ) : ActorEvent ι κ ω ρ → Prop
  | .started _ _ => s' = s
  | .acted i operation => (∀ o, operation = some o → d.guarantees i s o) ∧
      s' = operation.elim s (d.apply s)
  | .finished i request result => s' = s ∧ ∃ start, post i request start result s
  | .crashed i => ∃ operation : Option ω, (∀ o, operation = some o → d.guarantees i s o) ∧
      s' = operation.elim s (d.apply s)
  | .foreign operation => d.foreign s operation ∧ s' = d.apply s operation

variable {d program loses post} {system system' : Actors ι κ σ ω ρ}

theorem initial_sound {state : σ} (h : d.invariant state) :
    (initial state : Actors ι κ σ ω ρ).Sound d post :=
  ⟨h, fun hrunning => by cases hrunning⟩

theorem relies_elim {i j : ι} {s : σ} {operation : Option ω} (hne : i ≠ j)
    (hinvariant : d.invariant s) (hguarantees : ∀ o, operation = some o → d.guarantees i s o) :
    d.relies j s (operation.elim s (d.apply s)) := by
  cases operation with
  | none => exact d.refl j s
  | some o => exact d.respects hne hinvariant (hguarantees o rfl)

/-- A relation that every operation keeps to holds of a step. -/
theorem Allows.relates {R : σ → σ → Prop} {s s' : σ} {event : ActorEvent ι κ ω ρ}
    (h : Allows d post s s' event) (hrefl : R s s)
    (hguarantees : ∀ i o, d.guarantees i s o → R s (d.apply s o))
    (hforeign : ∀ o, d.foreign s o → R s (d.apply s o)) : R s s' := by
  have hacts : ∀ {i : ι} {operation : Option ω}, (∀ o, operation = some o → d.guarantees i s o) →
      R s (operation.elim s (d.apply s)) := by
    intro i operation ho
    cases operation with
    | none => exact hrefl
    | some o => exact hguarantees i o (ho o rfl)
  cases event with
  | started i request =>
      obtain rfl : s' = s := h
      exact hrefl
  | acted i operation =>
      obtain ⟨ho, rfl⟩ := h
      exact hacts ho
  | finished i request result =>
      obtain ⟨rfl, -⟩ := h
      exact hrefl
  | crashed i =>
      obtain ⟨operation, ho, rfl⟩ := h
      exact hacts ho
  | foreign operation =>
      obtain ⟨ho, rfl⟩ := h
      exact hforeign operation ho

variable [DecidableEq ι]

/-- One actor goes on, and the others find what they rely on. -/
theorem Sound.update (h : system.Sound d post) {i : ι} {state : σ}
    {entry : Option (Call κ σ ω ρ)} (hinvariant : d.invariant state)
    (hrelies : ∀ j, i ≠ j → d.relies j system.state state)
    (hentry : ∀ call, entry = some call → Holds d post i call state) :
    Sound d post ⟨state, Function.update system.running i entry⟩ := by
  refine ⟨hinvariant, fun {j call} hrunning => ?_⟩
  simp only [Function.update_apply] at hrunning
  split_ifs at hrunning with hij
  · subst hij
    exact hentry _ hrunning
  · exact (h.holds hrunning).stable (hrelies j fun heq => hij heq.symm)

variable (d program loses) in
/-- An actor starts a call when it has none. A crash ends its call, and with it
what the actor had in memory: `loses` is the operation that this is on the state. -/
inductive Step (system : Actors ι κ σ ω ρ) :
    ActorEvent ι κ ω ρ → Actors ι κ σ ω ρ → Prop
  | started {i : ι} {request : κ} : system.running i = none →
      Step system (.started i request)
        ⟨system.state, Function.update system.running i
          (some ⟨request, system.state, (program i request).run⟩)⟩
  | acted {i : ι} {call : Call κ σ ω ρ} {process : Process σ ω (Except Unit ρ)}
      {operation : Option ω} {state : σ} : system.running i = some call →
      call.process.Step d.apply system.state operation state process →
      Step system (.acted i operation)
        ⟨state, Function.update system.running i (some { call with process })⟩
  | finished {i : ι} {request : κ} {start : σ} {result : Except Unit ρ} :
      system.running i = some ⟨request, start, .done result⟩ →
      Step system (.finished i request result)
        { system with running := Function.update system.running i none }
  | crashed {i : ι} :
      Step system (.crashed i)
        ⟨(loses i).elim system.state (d.apply system.state), Function.update system.running i none⟩
  | foreign {operation : ω} : d.foreign system.state operation →
      Step system (.foreign operation) { system with state := d.apply system.state operation }

theorem Sound.allows {event : ActorEvent ι κ ω ρ} (h : system.Sound d post)
    (hloses : ∀ i s o, d.invariant s → loses i = some o → d.guarantees i s o)
    (hstep : Step d program loses system event system') :
    Allows d post system.state system'.state event := by
  cases hstep with
  | started hnone => exact rfl
  | acted hrunning hprocess =>
      obtain ⟨hguarantees, heq, -⟩ := (h.holds hrunning).step h.invariant hprocess
      exact ⟨hguarantees, heq⟩
  | finished hrunning => exact ⟨rfl, _, h.holds hrunning _ h.invariant (d.refl _ _)⟩
  | @crashed i => exact ⟨loses i, fun o ho => hloses i _ o h.invariant ho, rfl⟩
  | foreign hforeign => exact ⟨hforeign, rfl⟩

/-- A step of one actor keeps the triples of all. -/
theorem Sound.step {event : ActorEvent ι κ ω ρ} (h : system.Sound d post)
    (hprogram : ∀ i request s, d.invariant s →
      (program i request).Settles d i (post i request s) s)
    (hloses : ∀ i s o, d.invariant s → loses i = some o → d.guarantees i s o)
    (hstep : Step d program loses system event system') : system'.Sound d post := by
  cases hstep with
  | @started i request hnone =>
      refine h.update h.invariant (fun j _ => d.refl j _) fun call hentry => ?_
      obtain rfl := Option.some.inj hentry
      exact hprogram _ _ _ h.invariant
  | @acted i call process operation state hcurrent hprocess =>
      obtain ⟨hguarantees, rfl, hnext⟩ := (h.holds hcurrent).step h.invariant hprocess
      refine h.update (Process.invariant_elim h.invariant hguarantees)
        (fun j hne => relies_elim hne h.invariant hguarantees) fun call' hentry => ?_
      obtain rfl := Option.some.inj hentry
      exact hnext
  | @finished i request start result hcurrent =>
      exact h.update h.invariant (fun j _ => d.refl j _) fun call hentry => by cases hentry
  | @crashed i =>
      have hguarantees : ∀ o, loses i = some o → d.guarantees i system.state o :=
        fun o ho => hloses i _ o h.invariant ho
      exact h.update (Process.invariant_elim h.invariant hguarantees)
        (fun j hne => relies_elim hne h.invariant hguarantees) fun call hentry => by cases hentry
  | foreign hforeign =>
      exact ⟨d.keeps_foreign h.invariant hforeign, fun hrunning =>
        (h.holds hrunning).stable (d.respects_foreign h.invariant hforeign)⟩

/-- The calls of the actor all started in a state that is related to `s`. -/
def StartedAfter (R : σ → σ → Prop) (s : σ) (i : ι) (system : Actors ι κ σ ω ρ) : Prop :=
  R s system.state ∧ ∀ call, system.running i = some call → R s call.start

/-- From where an actor is idle, its calls start later. -/
theorem StartedAfter.step {R : σ → σ → Prop} {s : σ} {i : ι} {event : ActorEvent ι κ ω ρ}
    (h : StartedAfter R s i system) (hafter : R s system'.state)
    (hstep : Step d program loses system event system') : StartedAfter R s i system' := by
  have hupdate : ∀ {j : ι} {state : σ} {entry : Option (Call κ σ ω ρ)}, R s state →
      (j = i → ∀ call, entry = some call → R s call.start) →
      StartedAfter R s i ⟨state, Function.update system.running j entry⟩ := by
    intro j state entry hstate hentry
    refine ⟨hstate, fun call hrunning => ?_⟩
    simp only [Function.update_apply] at hrunning
    split_ifs at hrunning with hij
    · exact hentry hij.symm call hrunning
    · exact h.2 call hrunning
  cases hstep with
  | started hnone =>
      refine hupdate h.1 fun _ call hentry => ?_
      obtain rfl := Option.some.inj hentry
      exact h.1
  | acted hcurrent hprocess =>
      refine hupdate hafter fun heq call hentry => ?_
      obtain rfl := Option.some.inj hentry
      subst heq
      have hstart := h.2 _ hcurrent
      exact hstart
  | finished hcurrent => exact hupdate h.1 fun _ call hentry => by cases hentry
  | crashed => exact hupdate hafter fun _ call hentry => by cases hentry
  | foreign hforeign => exact ⟨hafter, h.2⟩

theorem Step.idle {i : ι} {request : κ} {result : Except Unit ρ}
    (h : Step d program loses system (.finished i request result) system') :
    system'.running i = none := by
  cases h with
  | finished hcurrent => exact Function.update_self _ _ _

variable {running : ι → Option (Call κ σ ω ρ)} {i : ι} {request : κ} {start s s' : σ}
  {process process' : Process σ ω (Except Unit ρ)}

theorem Step.current {operation : Option ω} (h : process.Step d.apply s operation s' process') :
    Step d program loses
      ⟨s, Function.update running i (some ⟨request, start, process⟩)⟩ (.acted i operation)
      ⟨s', Function.update running i (some ⟨request, start, process'⟩)⟩ := by
  let current : Actors ι κ σ ω ρ :=
    ⟨s, Function.update running i (some ⟨request, start, process⟩)⟩
  have hcurrent : current.running i = some ⟨request, start, process⟩ := Function.update_self _ _ _
  have hstep : Step d program loses current (.acted i operation)
      ⟨s', Function.update current.running i (some ⟨request, start, process'⟩)⟩ := .acted hcurrent h
  rwa [Function.update_idem] at hstep

theorem Step.run_current {result : Except Unit ρ} (h : process.Completes d.apply s s' result) :
    ∃ events, Run (Step d program loses)
      ⟨s, Function.update running i (some ⟨request, start, process⟩)⟩ events
      ⟨s', Function.update running i (some ⟨request, start, .done result⟩)⟩ := by
  induction h with
  | done s result => exact ⟨[], .nil _⟩
  | access _ ih =>
      obtain ⟨events, hrun⟩ := ih
      exact ⟨_, .cons (Step.current (.access _ _ _)) hrun⟩
  | ask b _ ih =>
      obtain ⟨events, hrun⟩ := ih
      exact ⟨_, .cons (Step.current (.ask _ b)) hrun⟩

variable (d program loses) in
/-- A call that nothing disturbs. -/
theorem Step.run_call (system : Actors ι κ σ ω ρ) (i : ι) (request : κ) {result : ρ}
    (hidle : system.running i = none)
    (h : (program i request).Returns d.apply system.state s' result) :
    ∃ events, Run (Step d program loses) system
      (.started i request :: (events ++ [.finished i request (.ok result)]))
      ⟨s', system.running⟩ := by
  let last : Actors ι κ σ ω ρ :=
    ⟨s', Function.update system.running i (some ⟨request, system.state, .done (.ok result)⟩)⟩
  have hlast : Step d program loses last (.finished i request (.ok result))
      { last with running := Function.update last.running i none } :=
    .finished (Function.update_self _ _ _)
  obtain ⟨events, hrun⟩ : ∃ events, Run (Step d program loses) ⟨system.state, Function.update
      system.running i (some ⟨request, system.state, (program i request).run⟩)⟩ events last :=
    Step.run_current h
  have hnone : Function.update system.running i none = system.running := by
    rw [← hidle, Function.update_eq_self]
  rw [Function.update_idem, hnone] at hlast
  exact ⟨events, .cons (.started hidle) (hrun.append (.single hlast))⟩

end Actors

end PocketCoder.Foundation
