import PocketCoder.Dispatcher.Knowledge

/-!
What a task is allowed to believe at each point where it awaits
(`PointSound`), and that every step of a task leads to a point where it may
believe what it does (`advance_sound`).

The accept of an execution may be given to the relay only while it is
`Unsent`. The point of interest is the resend: a task that resends has read
the capacity wait of its execution, and has to rely on what that means.
-/

namespace PocketCoder.Dispatcher

open PocketCoder.Foundation PocketCoder.Workspaces PocketCoder.Executions

/-! ### Beliefs -/

/-- The producer takes the execution only once, or it was never sent. -/
def Unsent (db : Database) (handed : List WorkloadExecutionReference)
    (acceptance : WorkloadAcceptance) : Prop :=
  Reconcilable db acceptance ∨ handed.count acceptance.execution = 0

/-- A call that is only made to a producer that can reconcile. -/
def Purpose.Sound (db : Database) (acceptance : WorkloadAcceptance) : Purpose → Prop
  | .lookup | .refusal _ _ => Reconcilable db acceptance
  | .acknowledge | .accept | .cancel _ => True

/-- What a task of the lane believes at a point. -/
def PointSound (db : Database) (handed : List WorkloadExecutionReference) (control : Bool)
    (acceptance : WorkloadAcceptance) : TaskPoint → Prop
  | .workspace | .finished _ => True
  | .inspect row | .endRuntime row | .reconcile row =>
      RowOf db acceptance.execution.workspaceId row
  | .claim row resend =>
      RowOf db acceptance.execution.workspaceId row ∧
        (control = false → resend = true → Unsent db handed acceptance ∨ Settled db acceptance)
  | .claimed row resend claim =>
      RowOf db acceptance.execution.workspaceId row ∧ claim.record.acceptance = acceptance ∧
        (control = false → claim.first = true ∨ resend = true →
          Claimed db acceptance ∧ Unsent db handed acceptance)
  | .prepare row current | .reclaim row current =>
      RowOf db acceptance.execution.workspaceId row ∧ current.acceptance = acceptance ∧
        control = false ∧ Claimed db acceptance ∧ Unsent db handed acceptance
  | .reclaimed row current latest =>
      RowOf db acceptance.execution.workspaceId row ∧ current.acceptance = acceptance ∧
        latest.acceptance = acceptance ∧
        control = false ∧ Claimed db acceptance ∧ Unsent db handed acceptance
  | .relay purpose row current | .observe purpose row current _ _ | .ack purpose row current _ =>
      RowOf db acceptance.execution.workspaceId row ∧ current.acceptance = acceptance ∧
        purpose.Sound db acceptance
  | .unknown row current =>
      RowOf db acceptance.execution.workspaceId row ∧ current.acceptance = acceptance
  | .refused row current _ _ stage =>
      RowOf db acceptance.execution.workspaceId row ∧ current.acceptance = acceptance ∧
        (stage = .release → Settled db acceptance)
  | .replayWorkspace row current =>
      RowOf db acceptance.execution.workspaceId row ∧ current.acceptance = acceptance ∧
        Reconcilable db acceptance
  | .replayRecord row _ current =>
      RowOf db acceptance.execution.workspaceId row ∧ current.acceptance = acceptance ∧
        Reconcilable db acceptance

/-- What a task believes. -/
structure TaskSound (db : Database) (handed : List WorkloadExecutionReference) (control : Bool)
    (key : Key) (task : Task) : Prop where
  known : Known db task.record.acceptance
  origin : task.origin.acceptance = task.record.acceptance
  key : key = executionInputManifestId task.record.acceptance
  epoch : task.absentEpoch.isSome = true → Reconcilable db task.record.acceptance
  point : PointSound db handed control task.record.acceptance task.point

/-- The relay has the accept of the task, and its outcome is still open. -/
def TaskPoint.handed : TaskPoint → Bool
  | .relay .accept _ _ | .observe .accept _ _ _ _ | .ack .accept _ _ _ => true
  | .refused _ _ _ _ _ => true
  | _ => false

/-- The task has ended with an exception. -/
def TaskPoint.thrown : TaskPoint → Bool
  | .finished (.thrown _) => true
  | _ => false

/-- What the effect of a step is worth. -/
structure Progress.Sound (db : Database) (handed : List WorkloadExecutionReference)
    (control : Bool) (task : Task) (progress : Progress) : Prop where
  refines : Refines db progress.db
  origin : progress.task.origin = task.origin
  acceptance : progress.task.record.acceptance = task.record.acceptance
  epoch : progress.task.absentEpoch.isSome = true →
    Reconcilable progress.db task.record.acceptance
  /-- Only the accept of an unsent execution is given to the relay. -/
  hands : progress.handed = none ∨
    (progress.handed = some task.record.acceptance.execution ∧ control = false ∧
      Claimed db task.record.acceptance ∧ Unsent db handed task.record.acceptance ∧
      progress.task.point.handed = true)
  point : PointSound progress.db (handed ++ progress.handed.toList) control
    task.record.acceptance progress.task.point
  canceled : ∀ record, progress.canceled = some record → Known progress.db record.acceptance
  wait : match progress.wait with
    -- An accept that is not open any more is settled, may be repeated, or has failed.
    | .keep => task.point.handed = true →
        progress.task.point.handed = true ∨ Settled progress.db task.record.acceptance ∨
          Reconcilable progress.db task.record.acceptance ∨ progress.task.point.thrown = true
    | .set key _ => key = executionInputManifestId task.record.acceptance ∧
        Unsent db handed task.record.acceptance
    | .delete key => key = executionInputManifestId task.record.acceptance

/-! ### Beliefs last -/

theorem Unsent.mono {db db' : Database} {handed : List WorkloadExecutionReference}
    {acceptance : WorkloadAcceptance} (hadvances : Advances db db')
    (h : Unsent db handed acceptance) : Unsent db' handed acceptance :=
  h.imp hadvances.reconcilable id

theorem Purpose.Sound.mono {db db' : Database} {acceptance : WorkloadAcceptance}
    (hadvances : Advances db db') {purpose : Purpose} (h : purpose.Sound db acceptance) :
    purpose.Sound db' acceptance := by
  cases purpose with
  | lookup => exact hadvances.reconcilable h
  | refusal status message => exact hadvances.reconcilable h
  | acknowledge => trivial
  | accept => trivial
  | cancel accepting => trivial

/-- A task keeps its beliefs while other tasks and transactions go on, as
long as nobody else sends its execution. -/
theorem PointSound.mono {db db' : Database} {handed handed' : List WorkloadExecutionReference}
    {control : Bool} {acceptance : WorkloadAcceptance} {point : TaskPoint}
    (hadvances : Advances db db')
    (hhanded : control = false → Unsent db handed acceptance → Unsent db' handed' acceptance)
    (h : PointSound db handed control acceptance point) :
    PointSound db' handed' control acceptance point := by
  cases point with
  | workspace => trivial
  | finished result => trivial
  | inspect row => exact RowOf.mono hadvances h
  | endRuntime row => exact RowOf.mono hadvances h
  | reconcile row => exact RowOf.mono hadvances h
  | claim row resend =>
      exact ⟨h.1.mono hadvances, fun hlane hresend =>
        (h.2 hlane hresend).imp (hhanded hlane) (·.mono hadvances)⟩
  | claimed row resend claim =>
      refine ⟨h.1.mono hadvances, h.2.1, fun hlane hsend => ?_⟩
      obtain ⟨hclaimed, hunsent⟩ := h.2.2 hlane hsend
      exact ⟨hclaimed.mono hadvances, hhanded hlane hunsent⟩
  | prepare row current =>
      obtain ⟨hrow, hcurrent, hlane, hclaimed, hunsent⟩ := h
      exact ⟨hrow.mono hadvances, hcurrent, hlane, hclaimed.mono hadvances, hhanded hlane hunsent⟩
  | reclaim row current =>
      obtain ⟨hrow, hcurrent, hlane, hclaimed, hunsent⟩ := h
      exact ⟨hrow.mono hadvances, hcurrent, hlane, hclaimed.mono hadvances, hhanded hlane hunsent⟩
  | reclaimed row current latest =>
      obtain ⟨hrow, hcurrent, hlatest, hlane, hclaimed, hunsent⟩ := h
      exact ⟨hrow.mono hadvances, hcurrent, hlatest, hlane, hclaimed.mono hadvances,
        hhanded hlane hunsent⟩
  | relay purpose row current =>
      exact ⟨h.1.mono hadvances, h.2.1, h.2.2.mono hadvances⟩
  | observe purpose row current phase outcome =>
      exact ⟨h.1.mono hadvances, h.2.1, h.2.2.mono hadvances⟩
  | ack purpose row current stage =>
      exact ⟨h.1.mono hadvances, h.2.1, h.2.2.mono hadvances⟩
  | unknown row current => exact ⟨h.1.mono hadvances, h.2⟩
  | refused row current status message stage =>
      exact ⟨h.1.mono hadvances, h.2.1, fun hstage => (h.2.2 hstage).mono hadvances⟩
  | replayWorkspace row current =>
      exact ⟨h.1.mono hadvances, h.2.1, hadvances.reconcilable h.2.2⟩
  | replayRecord row workspace current =>
      exact ⟨h.1.mono hadvances, h.2.1, hadvances.reconcilable h.2.2⟩

/-! ### Steps -/

section Steps

variable {db db' : Database} {handed : List WorkloadExecutionReference} {control : Bool}
  {task : Task} {row : WorkspaceRow} {current : ExecutionRecord}

/-- The task goes on, with its accept still open if it was. -/
theorem goto_sound (hsound : db.Sound) (hrefines : Refines db db')
    (hepoch : task.absentEpoch.isSome = true → Reconcilable db task.record.acceptance)
    {point : TaskPoint} (hpoint : PointSound db' handed control task.record.acceptance point)
    (hopen : task.point.handed = true → point.handed = true ∨
      Settled db' task.record.acceptance ∨ Reconcilable db' task.record.acceptance ∨
        point.thrown = true) :
    (task.goto db' point).Sound db handed control task where
  refines := hrefines
  origin := rfl
  acceptance := rfl
  epoch hsome := (advances_of_refines hrefines hsound).reconcilable (hepoch hsome)
  hands := .inl rfl
  point := by
    rw [Task.goto, Option.toList_none, List.append_nil]
    exact hpoint
  canceled record h := (nomatch h)
  wait := hopen

theorem finish_sound (hsound : db.Sound) (hrefines : Refines db db')
    (hepoch : task.absentEpoch.isSome = true → Reconcilable db task.record.acceptance)
    {result : TaskResult}
    (hopen : task.point.handed = true → Settled db' task.record.acceptance ∨
      Reconcilable db' task.record.acceptance) :
    (task.finish db' result).Sound db handed control task := by
  have hgoto : ∀ result, (task.goto db' (.finished result)).Sound db handed control task :=
    fun result => goto_sound hsound hrefines hepoch trivial fun hhanded =>
      .inr ((hopen hhanded).imp_right .inl)
  unfold Task.finish
  split
  · exact hgoto .performed
  · exact hgoto _

theorem fail_sound (hsound : db.Sound) (hrefines : Refines db db')
    (hepoch : task.absentEpoch.isSome = true → Reconcilable db task.record.acceptance) :
    (task.fail db').Sound db handed control task := by
  have hfail : task.fail db' = task.goto db' (.finished (.thrown false)) := by
    unfold Task.fail Task.finish
    rfl
  rw [hfail]
  exact goto_sound hsound hrefines hepoch trivial fun _ => .inr (.inr (.inr rfl))

/-- The accept resolves, which ends the wait for capacity. -/
theorem resolved_sound (hsound : db.Sound) (hrefines : Refines db db')
    (hepoch : task.absentEpoch.isSome = true → Reconcilable db task.record.acceptance)
    (hcurrent : current.acceptance = task.record.acceptance) :
    Progress.Sound db handed control task { task.finish db' .performed with
      wait := .delete (executionInputManifestId current.acceptance) } where
  refines := hrefines
  origin := rfl
  acceptance := rfl
  epoch hsome := (advances_of_refines hrefines hsound).reconcilable (hepoch hsome)
  hands := .inl rfl
  point := trivial
  canceled record h := (nomatch h)
  wait := by rw [hcurrent]

theorem call_sound (hsound : db.Sound) (hrefines : Refines db db')
    (hepoch : task.absentEpoch.isSome = true → Reconcilable db task.record.acceptance)
    (hrow : RowOf db' task.record.acceptance.execution.workspaceId row)
    (hcurrent : current.acceptance = task.record.acceptance) {purpose : Purpose}
    (hpurpose : purpose.Sound db' task.record.acceptance)
    (hopen : task.point.handed = true → Reconcilable db' task.record.acceptance) :
    (task.call db' purpose row current).Sound db handed control task := by
  unfold Task.call
  dsimp only
  split_ifs with hcallable
  · exact fail_sound hsound hrefines hepoch
  · exact goto_sound hsound hrefines hepoch ⟨hrow, hcurrent, hpurpose⟩ fun hhanded =>
      .inr (.inr (.inl (hopen hhanded)))

/-- A call returns; only an accept has something open. -/
theorem returned_sound (hsound : db.Sound) (hrefines : Refines db db')
    (hepoch : task.absentEpoch.isSome = true → Reconcilable db task.record.acceptance)
    (hrow : RowOf db' task.record.acceptance.execution.workspaceId row)
    (hcurrent : current.acceptance = task.record.acceptance) {purpose : Purpose}
    (hpurpose : purpose.Sound db' task.record.acceptance) {absent : Bool}
    (hopen : task.point.handed = true → purpose = .accept) :
    (task.returned db' purpose row current absent).Sound db handed control task := by
  -- only an accept that returns may leave something open
  have hfinish : purpose ≠ .accept → (task.finish db' .performed).Sound db handed control task :=
    fun hother => finish_sound hsound hrefines hepoch fun hhanded =>
      absurd (hopen hhanded) hother
  cases purpose with
  | accept =>
      cases absent with
      | true => exact fail_sound hsound hrefines hepoch
      | false => exact resolved_sound hsound hrefines hepoch hcurrent
  | cancel accepting =>
      cases accepting with
      | true => exact resolved_sound hsound hrefines hepoch hcurrent
      | false => exact hfinish (by simp)
  | acknowledge => exact hfinish (by simp)
  | lookup =>
      cases absent with
      | true =>
          exact goto_sound hsound hrefines hepoch ⟨hrow, hcurrent, hpurpose⟩ fun _ =>
            .inr (.inr (.inl hpurpose))
      | false => exact hfinish (by simp)
  | refusal status message =>
      cases absent with
      | true =>
          exact goto_sound hsound hrefines hepoch
            ⟨hrow, hcurrent, fun hstage => (nomatch hstage)⟩ fun _ => .inl rfl
      | false => exact hfinish (by simp)

theorem finalizeService_refines (hsound : db.Sound) {now : Nat}
    (h : Task.finalizeService db row current now = some db') :
    Refines db db' := by
  unfold Task.finalizeService at h
  split_ifs at h
  split at h
  · exact (nomatch h)
  · rename_i hfinalize
    obtain rfl := Option.some.inj h
    exact (finalize_rewrites hsound.owned hfinalize).refines

end Steps

/-! ### The points of a task -/

section Points

variable {db db' : Database} {handed : List WorkloadExecutionReference} {control : Bool}
  {key : Key} {task : Task} {row : WorkspaceRow} {current : ExecutionRecord}
  (hsound : db.Sound) (htask : TaskSound db handed control key task)

include hsound htask

/-- Another acceptance of the same execution is the same. -/
theorem TaskSound.acceptance_eq {acceptance : WorkloadAcceptance} {P : ExecutionRecord → Prop}
    (h : Stored db acceptance P) (hexecution : acceptance.execution = task.execution) :
    acceptance = task.record.acceptance :=
  h.unique hsound.owned htask.known hexecution

theorem onWorkspace_sound (hidle : task.point.handed = false) (connected : Bool) :
    (task.onWorkspace db connected).Sound db handed control task := by
  have hrefines : Refines db db := (SameSlots.refl db).refines
  have hskip : (task.finish db .skipped).Sound db handed control task :=
    finish_sound hsound hrefines htask.epoch fun hhanded => by simp [hidle] at hhanded
  unfold Task.onWorkspace
  cases hrow : db.workspaces.get? task.execution.workspaceId with
  | none => exact hskip
  | some row =>
      dsimp only
      split_ifs
      · exact hskip
      · exact hskip
      · exact goto_sound hsound hrefines htask.epoch (rowOf_get hrow) fun hhanded => by
          simp [hidle] at hhanded

theorem onInspect_sound (hpoint : task.point = .inspect row) {waiting : Bool}
    (hwaiting : waiting = true → control = false →
      Unsent db handed task.record.acceptance ∨ Settled db task.record.acceptance) (alive : Bool) :
    (task.onInspect db control waiting row alive).Sound db handed control task := by
  have hrefines : Refines db db := (SameSlots.refl db).refines
  have hidle : task.point.handed ≠ true := by simp [hpoint, TaskPoint.handed]
  have hrow : RowOf db task.record.acceptance.execution.workspaceId row := by
    have hbelief := htask.point
    rwa [hpoint] at hbelief
  unfold Task.onInspect
  dsimp only
  split_ifs
  · exact goto_sound hsound hrefines htask.epoch hrow fun hhanded => absurd hhanded hidle
  · exact finish_sound hsound hrefines htask.epoch fun hhanded => absurd hhanded hidle
  · exact goto_sound hsound hrefines htask.epoch ⟨hrow, rfl, trivial⟩ fun hhanded =>
      absurd hhanded hidle
  · exact goto_sound hsound hrefines htask.epoch hrow fun hhanded => absurd hhanded hidle
  · refine goto_sound hsound hrefines htask.epoch ⟨hrow, fun hlane hresend => ?_⟩ fun hhanded =>
      absurd hhanded hidle
    -- The producer reported the execution absent, or it waited for capacity.
    simp only [Task.mustResend, Bool.or_eq_true, Bool.and_eq_true, Bool.not_eq_true'] at hresend
    rcases hresend with hsome | ⟨-, hwait⟩
    · exact .inl (.inl (htask.epoch hsome))
    · exact hwaiting hwait hlane

/-- A granted claim is of an execution that was not sent, if it is the first
one or the task may resend. -/
theorem claimed_belief
    (hcounted : handed.count task.record.acceptance.execution ≠ 0 →
      Claimed db task.record.acceptance)
    {now : Nat} {result : Claim} (h : claim task.execution now db = .ok (some result, db'))
    {resend : Bool}
    (hresend : control = false → resend = true →
      Unsent db handed task.record.acceptance ∨ Settled db task.record.acceptance) :
    result.record.acceptance = task.record.acceptance ∧
      Claimed db' task.record.acceptance ∧
      (control = false → result.first = true ∨ resend = true →
        Unsent db' handed task.record.acceptance) := by
  obtain ⟨hexecution, hstored, hclaimed⟩ := claim_eq_some hsound.owned h
  have hsame := htask.acceptance_eq hsound hstored hexecution
  rw [hsame] at hstored hclaimed
  have hadvances := advances_of_refines (claim_rewrites hsound.owned h).refines hsound
  refine ⟨hsame, hclaimed, fun hlane hsend => Unsent.mono hadvances ?_⟩
  rcases hsend with hfirst | hresend'
  · right
    by_contra hcount
    obtain ⟨_, record, -, -, ⟨-, hnone⟩, hsome⟩ :=
      hstored.and hsound.owned (hcounted hcount)
    rw [hnone hfirst] at hsome
    exact absurd hsome (by simp)
  · refine (hresend hlane hresend').resolve_right fun hsettled => ?_
    obtain ⟨_, record, -, -, ⟨hopen, -⟩, hsettled'⟩ := hstored.and hsound.owned hsettled
    exact absurd (hopen.symm.trans hsettled') (by simp)

theorem onClaimed_sound {resend : Bool} {claim : Claim} (allowed : Bool)
    (hpoint : task.point = .claimed row resend claim) :
    (task.onClaimed db control allowed row resend claim).Sound db handed control task := by
  have hrefines : Refines db db := (SameSlots.refl db).refines
  have hidle : task.point.handed ≠ true := by simp [hpoint, TaskPoint.handed]
  have hbelief := htask.point
  rw [hpoint] at hbelief
  obtain ⟨hrow, hcurrent, hsend⟩ := hbelief
  have hskip : (task.finish db .skipped).Sound db handed control task :=
    finish_sound hsound hrefines htask.epoch fun hhanded => absurd hhanded hidle
  unfold Task.onClaimed
  dsimp only
  split_ifs with hcancel hlane htargeted hstop haccept hcan
  · -- The ordinary lane leaves a cancelled execution to the control lane.
    refine ⟨hskip.refines, hskip.origin, hskip.acceptance, hskip.epoch, ?_, ?_, ?_, ?_⟩
    · exact hskip.hands
    · exact hskip.point
    · rintro record ⟨⟩
      rw [hcurrent]
      exact htask.known.mono (advances_of_refines hskip.refines hsound)
    · exact hskip.wait
  · exact call_sound hsound hrefines htask.epoch hrow hcurrent trivial fun hhanded =>
      absurd hhanded hidle
  · exact goto_sound hsound hrefines htask.epoch ⟨hrow, hcurrent⟩ fun hhanded =>
      absurd hhanded hidle
  · exact hskip
  -- a first claim, or one that sends again: nothing of it was sent
  · rw [Bool.or_eq_true] at haccept
    simp only [Bool.or_eq_true, not_or, Bool.not_eq_true] at hstop
    exact goto_sound hsound hrefines htask.epoch ⟨hrow, hcurrent, hstop.1, hsend hstop.1 haccept⟩
      fun hhanded => absurd hhanded hidle
  · rw [hcurrent] at hcan
    exact call_sound hsound hrefines htask.epoch hrow hcurrent (hrow _ rfl hcan) fun hhanded =>
      absurd hhanded hidle
  · exact goto_sound hsound hrefines htask.epoch ⟨hrow, hcurrent⟩ fun hhanded =>
      absurd hhanded hidle

theorem onPrepare_sound {answer : Answer} {progress : Progress}
    (hpoint : task.point = .prepare row current)
    (h : task.onPrepare db row current answer = some progress) :
    progress.Sound db handed control task := by
  have hrefines : Refines db db := (SameSlots.refl db).refines
  have hbelief := htask.point
  rw [hpoint] at hbelief
  obtain ⟨hrow, hcurrent, hlane, hclaimed, hunsent⟩ := hbelief
  have hidle : task.point.handed ≠ true := by simp [hpoint, TaskPoint.handed]
  cases answer with
  | throws => exact (nomatch h)
  | no => exact (nomatch h)
  | reply reply => exact (nomatch h)
  | yes =>
      simp only [Task.onPrepare] at h
      split_ifs at h
      obtain rfl := Option.some.inj h
      exact goto_sound hsound hrefines htask.epoch ⟨hrow, hcurrent, hlane, hclaimed, hunsent⟩
        fun hhanded => absurd hhanded hidle
  | capacity =>
      simp only [Task.onPrepare] at h
      split_ifs at h
      obtain rfl := Option.some.inj h
      -- refused for capacity before it was sent: the wait may be set
      have hfinish : (task.finish db (.thrown true)).Sound db handed control task :=
        finish_sound hsound hrefines htask.epoch fun hhanded => absurd hhanded hidle
      exact ⟨hfinish.refines, hfinish.origin, hfinish.acceptance, hfinish.epoch, hfinish.hands,
        hfinish.point, hfinish.canceled, by rw [hcurrent], hunsent⟩

theorem onReclaimed_sound {latest : ExecutionRecord}
    (hpoint : task.point = .reclaimed row current latest) :
    (task.onReclaimed db row current latest).Sound db handed control task := by
  have hrefines : Refines db db := (SameSlots.refl db).refines
  have hbelief := htask.point
  rw [hpoint] at hbelief
  obtain ⟨hrow, hcurrent, hlatest, hlane, hclaimed, hunsent⟩ := hbelief
  have hidle : task.point.handed ≠ true := by simp [hpoint, TaskPoint.handed]
  unfold Task.onReclaimed
  split_ifs
  · exact call_sound hsound hrefines htask.epoch hrow hlatest trivial fun hhanded =>
      absurd hhanded hidle
  · split
    · exact goto_sound hsound hrefines htask.epoch ⟨hrow, hcurrent, trivial⟩ fun hhanded =>
        absurd hhanded hidle
    · dsimp only
      split_ifs
      · -- The only step that gives an accept to the relay.
        have hrelay : (task.goto db (.relay .accept row current)).Sound db handed control task :=
          goto_sound hsound hrefines htask.epoch ⟨hrow, hcurrent, trivial⟩ fun hhanded =>
            absurd hhanded hidle
        refine ⟨hrelay.refines, hrelay.origin, hrelay.acceptance, hrelay.epoch, .inr ?_,
          ⟨hrow, hcurrent, trivial⟩, hrelay.canceled, hrelay.wait⟩
        rw [hcurrent]
        exact ⟨rfl, hlane, hclaimed, hunsent, rfl⟩
      · exact fail_sound hsound hrefines htask.epoch

theorem onReply_sound {purpose : Purpose} {answer : Answer} {progress : Progress}
    (hpoint : task.point = .relay purpose row current)
    (h : task.onReply db purpose row current answer = some progress) :
    progress.Sound db handed control task := by
  have hrefines : Refines db db := (SameSlots.refl db).refines
  have hbelief := htask.point
  rw [hpoint] at hbelief
  obtain ⟨hrow, hcurrent, hpurpose⟩ := hbelief
  have hopen : task.point.handed = true → purpose = .accept := by
    rw [hpoint]
    cases purpose <;> simp [TaskPoint.handed]
  have hreturned : ∀ absent,
      (task.returned db purpose row current absent).Sound db handed control task :=
    fun absent => returned_sound hsound hrefines htask.epoch hrow hcurrent hpurpose hopen
  cases answer with
  | throws => exact (nomatch h)
  | capacity => exact (nomatch h)
  | no => exact (nomatch h)
  | yes =>
      simp only [Task.onReply] at h
      split_ifs at h
      obtain rfl := Option.some.inj h
      exact hreturned false
  | reply reply =>
      unfold Task.onReply at h
      dsimp only at h
      by_cases howner : current.acceptance.execution.owner = .process
      · rw [if_pos howner] at h
        exact (nomatch h)
      rw [if_neg howner] at h
      -- the answer is that of the producer of a conversation request
      cases reply with
      | absent =>
          obtain rfl := Option.some.inj h
          exact hreturned true
      | accepted =>
          obtain rfl := Option.some.inj h
          exact hreturned false
      | observed phase outcome =>
          obtain rfl := Option.some.inj h
          refine goto_sound hsound hrefines htask.epoch ⟨hrow, hcurrent, hpurpose⟩ fun hhanded => ?_
          rw [hopen hhanded]
          exact .inl rfl
      | refused status message =>
          cases purpose with
          | accept =>
              dsimp only at h
              -- a refused accept is looked up where the adapter can, and refused for good elsewhere
              split_ifs at h with hcan
              · obtain rfl := Option.some.inj h
                rw [hcurrent] at hcan
                have hreconcilable := hrow _ rfl hcan
                exact call_sound hsound hrefines htask.epoch hrow hcurrent hreconcilable fun _ =>
                  hreconcilable
              · obtain rfl := Option.some.inj h
                exact goto_sound hsound hrefines htask.epoch
                  ⟨hrow, hcurrent, fun hstage => (nomatch hstage)⟩ fun _ => .inl rfl
          | acknowledge => exact (nomatch h)
          | lookup => exact (nomatch h)
          | refusal _ _ => exact (nomatch h)
          | cancel _ => exact (nomatch h)

theorem reclaim_sound {now : Nat} {progress : Progress}
    (hcounted : handed.count task.record.acceptance.execution ≠ 0 →
      Claimed db task.record.acceptance)
    (hpoint : task.point = .reclaim row current)
    (h : (match claim current.acceptance.execution now db with
      | .error _ => some (task.fail db)
      | .ok (none, db') => some (task.returned db' .accept row current false)
      | .ok (some latest, db') =>
          if executionSettled latest.record then
            some (task.returned db' .accept row current false)
          else some (task.goto db' (.reclaimed row current latest.record))) = some progress) :
    progress.Sound db handed control task := by
  have hbelief := htask.point
  rw [hpoint] at hbelief
  obtain ⟨hrow, hcurrent, hlane, hclaimed, hunsent⟩ := hbelief
  have hidle : task.point.handed ≠ true := by simp [hpoint, TaskPoint.handed]
  rw [hcurrent] at h
  split at h
  · obtain rfl := Option.some.inj h
    exact fail_sound hsound (SameSlots.refl db).refines htask.epoch
  -- settled or gone since the first claim: the task returns without sending
  · rename_i db' hclaim
    obtain rfl := Option.some.inj h
    have hrefines := (claim_rewrites hsound.owned hclaim).refines
    refine returned_sound hsound hrefines htask.epoch
      (hrow.mono (advances_of_refines hrefines hsound)) hcurrent ?_ fun hhanded =>
        absurd hhanded hidle
    trivial
  -- claimed again: only an execution that is still open goes on
  · rename_i latest db' hclaim
    have hrefines := (claim_rewrites hsound.owned hclaim).refines
    have hadvances := advances_of_refines hrefines hsound
    obtain ⟨hlatest, hclaimed', -⟩ := claimed_belief hsound htask hcounted hclaim
      fun _ (hresend : false = true) => (nomatch hresend)
    split_ifs at h
    · obtain rfl := Option.some.inj h
      refine returned_sound hsound hrefines htask.epoch (hrow.mono hadvances) hcurrent ?_
        fun hhanded => absurd hhanded hidle
      trivial
    · obtain rfl := Option.some.inj h
      exact goto_sound hsound hrefines htask.epoch
        ⟨hrow.mono hadvances, hcurrent, hlatest, hlane, hclaimed', hunsent.mono hadvances⟩
        fun hhanded => absurd hhanded hidle

theorem observe_sound {now : Nat} {progress : Progress} {purpose : Purpose}
    {phase : ExecutionPhase} {outcome : JsonValue}
    (hpoint : task.point = .observe purpose row current phase outcome)
    (h : (match observe current.acceptance.execution current.acceptance.fingerprint phase
          row.connectionEpoch now outcome db with
      | .error _ => some (task.fail db)
      | .ok (recorded, db') =>
          if recorded && (phase = .terminal || phase = .canceled) then
            some (task.goto db' (.ack purpose row current .relay))
          else some (task.returned db' purpose row current false)) = some progress) :
    progress.Sound db handed control task := by
  have hbelief := htask.point
  rw [hpoint] at hbelief
  obtain ⟨hrow, hcurrent, hpurpose⟩ := hbelief
  have hopen : task.point.handed = true → purpose = .accept := by
    rw [hpoint]
    cases purpose <;> simp [TaskPoint.handed]
  split at h
  · obtain rfl := Option.some.inj h
    exact fail_sound hsound (SameSlots.refl db).refines htask.epoch
  · rename_i recorded db' hobserve
    have hrefines := (observe_rewrites hsound.owned hobserve).refines
    have hadvances := advances_of_refines hrefines hsound
    split_ifs at h
    · obtain rfl := Option.some.inj h
      refine goto_sound hsound hrefines htask.epoch
        ⟨hrow.mono hadvances, hcurrent, hpurpose.mono hadvances⟩ fun hhanded => ?_
      rw [hopen hhanded]
      exact .inl rfl
    · obtain rfl := Option.some.inj h
      exact returned_sound hsound hrefines htask.epoch (hrow.mono hadvances) hcurrent
        (hpurpose.mono hadvances) hopen

theorem onAck_sound {purpose : Purpose} {stage : AckStage} (now : Nat)
    (hpoint : task.point = .ack purpose row current stage) :
    (task.onAck db purpose row current now stage).Sound db handed control task := by
  have hbelief := htask.point
  rw [hpoint] at hbelief
  obtain ⟨hrow, hcurrent, hpurpose⟩ := hbelief
  have hsame : Refines db db := (SameSlots.refl db).refines
  -- an accept that was handed over keeps its purpose through every stage
  have hopen : task.point.handed = true → purpose = .accept := by
    rw [hpoint]
    cases purpose <;> simp [TaskPoint.handed]
  have hnext : ∀ stage', task.point.handed = true →
      (TaskPoint.ack purpose row current stage').handed = true := by
    intro stage' hhanded
    rw [hopen hhanded]
    rfl
  cases stage with
  | relay =>
      unfold Task.onAck
      dsimp only
      split_ifs
      · exact fail_sound hsound hsame htask.epoch
      · exact goto_sound hsound hsame htask.epoch ⟨hrow, hcurrent, hpurpose⟩ fun hhanded =>
          .inl (hnext _ hhanded)
  | store =>
      unfold Task.onAck
      dsimp only
      split
      · exact fail_sound hsound hsame htask.epoch
      · rename_i hacknowledge
        have hrefines := (acknowledge_rewrites hsound.owned hacknowledge).refines
        have hadvances := advances_of_refines hrefines hsound
        split
        · exact returned_sound hsound hrefines htask.epoch (hrow.mono hadvances) hcurrent
            (hpurpose.mono hadvances) hopen
        · exact goto_sound hsound hrefines htask.epoch
            ⟨hrow.mono hadvances, hcurrent, hpurpose.mono hadvances⟩ fun hhanded =>
              .inl (hnext _ hhanded)
  | finalize =>
      unfold Task.onAck
      dsimp only
      split
      · exact fail_sound hsound hsame htask.epoch
      · rename_i hfinalize
        have hrefines := finalizeService_refines hsound hfinalize
        have hadvances := advances_of_refines hrefines hsound
        exact returned_sound hsound hrefines htask.epoch (hrow.mono hadvances) hcurrent
          (hpurpose.mono hadvances) hopen

theorem onRefused_sound {status : Nat} {message : String} {stage : RefusalStage} (now : Nat)
    (hpoint : task.point = .refused row current status message stage) :
    (task.onRefused db row current status message now stage).Sound db handed control task := by
  have hbelief := htask.point
  rw [hpoint] at hbelief
  obtain ⟨hrow, hcurrent, hsettled⟩ := hbelief
  have hsame : Refines db db := (SameSlots.refl db).refines
  cases stage with
  | observe =>
      unfold Task.onRefused
      dsimp only
      split
      · exact fail_sound hsound hsame htask.epoch
      · rename_i hobserve
        have hrefines := (observe_rewrites hsound.owned hobserve).refines
        exact goto_sound hsound hrefines htask.epoch
          ⟨hrow.mono (advances_of_refines hrefines hsound), hcurrent,
            fun hstage => (nomatch hstage)⟩ fun _ => .inl rfl
  | acknowledge =>
      unfold Task.onRefused
      dsimp only
      split
      · exact fail_sound hsound hsame htask.epoch
      · -- Only a settled execution is acknowledged.
        rename_i hacknowledge
        have hrefines := (acknowledge_rewrites hsound.owned hacknowledge).refines
        have hadvances := advances_of_refines hrefines hsound
        obtain ⟨acceptance, hexecution, hsettled'⟩ := acknowledge_settled hacknowledge
        rw [hcurrent] at hexecution
        obtain rfl := htask.acceptance_eq hsound hsettled' hexecution
        exact goto_sound hsound hrefines htask.epoch
          ⟨hrow.mono hadvances, hcurrent, fun _ => hsettled'.mono hadvances⟩ fun _ => .inl rfl
  | release =>
      unfold Task.onRefused
      dsimp only
      split
      · exact fail_sound hsound hsame htask.epoch
      · rename_i hfinalize
        have hrefines := finalizeService_refines hsound hfinalize
        -- by now the refusal is stored, so the execution is settled
        exact finish_sound hsound hrefines htask.epoch fun _ =>
          .inl ((hsettled rfl).mono (advances_of_refines hrefines hsound))

theorem replayRecord_sound {workspace : Option WorkspaceRow} {allowed : Bool} {now : Nat}
    {progress : Progress} (hpoint : task.point = .replayRecord row workspace current)
    (h : (match Task.replayable workspace (Task.getExecution db current.acceptance.execution)
          row.connectionEpoch with
      | none => some (task.finish db .performed)
      | some latest =>
          if allowed then
            some { task.goto db .workspace with
              task := { task with
                record := latest, absentEpoch := some row.connectionEpoch, nested := true, now
                point := .workspace } }
          else some (task.finish db .performed)) = some progress) :
    progress.Sound db handed control task := by
  have hbelief := htask.point
  rw [hpoint] at hbelief
  obtain ⟨-, hcurrent, hreconcilable⟩ := hbelief
  have hrefines : Refines db db := (SameSlots.refl db).refines
  have hfinish : (task.finish db .performed).Sound db handed control task :=
    finish_sound hsound hrefines htask.epoch fun hhanded => by
      simp [hpoint, TaskPoint.handed] at hhanded
  split at h
  · obtain rfl := Option.some.inj h
    exact hfinish
  · rename_i latest hreplayable
    split_ifs at h
    · obtain rfl := Option.some.inj h
      obtain ⟨hexecution, hstored⟩ :=
        stored_of_getExecution (Option.filter_eq_some_iff.mp hreplayable).1
      rw [hcurrent] at hexecution
      -- the nested task works on the record as it was read, whose acceptance is the same
      exact {
        refines := hrefines
        origin := rfl
        acceptance := htask.acceptance_eq hsound hstored hexecution
        epoch := fun _ => hreconcilable
        hands := .inl rfl
        point := trivial
        canceled := fun _ hnone => (nomatch hnone)
        wait := fun _ => .inr (.inr (.inl hreconcilable)) }
    · obtain rfl := Option.some.inj h
      exact hfinish

/-- **Every step of a task is sound**, if a capacity wait means that the
execution of an idle task was not sent or is settled. -/
theorem advance_sound {waiting allowed : Bool} {answer : Answer} {now : Nat} {progress : Progress}
    (hcounted : handed.count task.record.acceptance.execution ≠ 0 →
      Claimed db task.record.acceptance)
    (hwaiting : task.point.handed = false → waiting = true → control = false →
      Unsent db handed task.record.acceptance ∨ Settled db task.record.acceptance)
    (h : task.advance db control waiting allowed answer now = some progress) :
    progress.Sound db handed control task := by
  have hsame : Refines db db := (SameSlots.refl db).refines
  have hfail : (task.fail db).Sound db handed control task :=
    fail_sound hsound hsame htask.epoch
  have hbelief := htask.point
  unfold Task.advance at h
  -- one case for each point of the task, in the order of `Task.advance`
  split at h
  · exact (nomatch h)
  · obtain rfl := Option.some.inj h
    exact hfail
  · rename_i hpoint
    obtain rfl := Option.some.inj h
    exact onWorkspace_sound hsound htask (by rw [hpoint]; rfl) true
  · rename_i hpoint
    obtain rfl := Option.some.inj h
    exact onWorkspace_sound hsound htask (by rw [hpoint]; rfl) false
  · rename_i row hpoint
    obtain rfl := Option.some.inj h
    exact onInspect_sound hsound htask hpoint (hwaiting (by rw [hpoint]; rfl)) true
  · rename_i row hpoint
    obtain rfl := Option.some.inj h
    exact onInspect_sound hsound htask hpoint (hwaiting (by rw [hpoint]; rfl)) false
  · -- The runtime is ended.
    rename_i row hpoint
    split at h
    · obtain rfl := Option.some.inj h
      exact hfail
    · rename_i db' hend
      obtain rfl := Option.some.inj h
      have hrefines : Refines db db' := by
        have htransact := transact_refines hsound.owned
          (.endWorkspaceRuntime row.id task.execution.incarnationId task.now)
        rwa [transact, Transaction.committed, hend] at htransact
      exact finish_sound hsound hrefines htask.epoch fun hhanded => by
        simp [hpoint, TaskPoint.handed] at hhanded
  · rename_i row resend hpoint
    have hidle : task.point.handed ≠ true := by simp [hpoint, TaskPoint.handed]
    rw [hpoint] at hbelief
    split at h
    · obtain rfl := Option.some.inj h
      exact hfail
    · rename_i db' hclaim
      obtain rfl := Option.some.inj h
      exact finish_sound hsound (claim_rewrites hsound.owned hclaim).refines htask.epoch fun hhanded =>
        absurd hhanded hidle
    · rename_i claim db' hclaim
      obtain rfl := Option.some.inj h
      have hrefines := (claim_rewrites hsound.owned hclaim).refines
      -- the claim is what lets an ordinary task send
      obtain ⟨hcurrent, hclaimed, hunsent⟩ :=
        claimed_belief hsound htask hcounted hclaim hbelief.2
      exact goto_sound hsound hrefines htask.epoch
        ⟨hbelief.1.mono (advances_of_refines hrefines hsound), hcurrent,
          fun hlane hsend => ⟨hclaimed, hunsent hlane hsend⟩⟩ fun hhanded => absurd hhanded hidle
  · rename_i row hpoint
    have hidle : task.point.handed ≠ true := by simp [hpoint, TaskPoint.handed]
    rw [hpoint] at hbelief
    split at h
    · obtain rfl := Option.some.inj h
      exact hfail
    · rename_i db' hreconcile
      obtain rfl := Option.some.inj h
      obtain ⟨_, _, -, -, -, rfl⟩ := reconcile_same hreconcile
      exact finish_sound hsound hsame htask.epoch fun hhanded => absurd hhanded hidle
    · -- A reconciled execution is not sent again.
      rename_i claim db' hreconcile
      obtain rfl := Option.some.inj h
      obtain ⟨hexecution, hknown, hfirst, rfl⟩ := reconcile_eq_some hreconcile
      refine goto_sound hsound hsame htask.epoch
        ⟨hbelief, htask.acceptance_eq hsound hknown hexecution, fun _ hsend => ?_⟩ fun hhanded =>
          absurd hhanded hidle
      rw [hfirst] at hsend
      exact absurd hsend (by simp)
  · rename_i row resend claim hpoint
    obtain rfl := Option.some.inj h
    exact onClaimed_sound hsound htask allowed hpoint
  · rename_i row current _ hpoint
    exact onPrepare_sound hsound htask hpoint h
  · rename_i row current hpoint
    exact reclaim_sound hsound htask hcounted hpoint h
  · rename_i row current latest hpoint
    obtain rfl := Option.some.inj h
    exact onReclaimed_sound hsound htask hpoint
  · rename_i purpose row current _ hpoint
    exact onReply_sound hsound htask hpoint h
  · rename_i purpose row current phase outcome hpoint
    exact observe_sound hsound htask hpoint h
  · rename_i purpose row current stage hpoint
    obtain rfl := Option.some.inj h
    exact onAck_sound hsound htask now hpoint
  · -- The outcome is stored as unknown.
    rename_i row current hpoint
    split at h
    · obtain rfl := Option.some.inj h
      exact hfail
    · rename_i hobserve
      obtain rfl := Option.some.inj h
      exact finish_sound hsound (observe_rewrites hsound.owned hobserve).refines htask.epoch
        fun hhanded => by simp [hpoint, TaskPoint.handed] at hhanded
  · rename_i row current status message stage hpoint
    obtain rfl := Option.some.inj h
    exact onRefused_sound hsound htask now hpoint
  · rename_i row current hpoint
    obtain rfl := Option.some.inj h
    rw [hpoint] at hbelief
    exact goto_sound hsound hsame htask.epoch hbelief fun hhanded => by
      simp [hpoint, TaskPoint.handed] at hhanded
  · rename_i row workspace current hpoint
    exact replayRecord_sound hsound htask hpoint h
  · exact (nomatch h)

end Points

end PocketCoder.Dispatcher
