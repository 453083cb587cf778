import PocketCoder.Executions.FiniteProcesses

/-!
The life of one execution record, on its own: `Moves` says what a transaction
can do to a record, and every later fact about records is derived from it.

A record is `WellFormed` when its times agree with its phase. `Evolves`
compares a record with a later one of the same execution: it is what the life
of a record never takes back. It is a preorder, so it holds across whole
runs once every move respects it.
-/

namespace PocketCoder.Executions

open PocketCoder.Foundation

inductive Moves : ExecutionRecord → ExecutionRecord → Prop
  /-- An open execution that failed its checks or lost its runtime. -/
  | lose {record : ExecutionRecord} (time : String) (outcome : JsonValue) :
      executionSettled record = false →
      Moves record { record with phase := .lost, settledAt := some time, outcome }
  | claim {record : ExecutionRecord} (now : Nat) :
      record.cancel = none → executionSettled record = false →
      Moves record (claimedRecord record now)
  /-- A cancel of a claimed execution is an intent. -/
  | intend {record : ExecutionRecord} (intent : CancelIntent) :
      record.cancel = none → executionSettled record = false →
      record.dispatchClaimedAt.isSome = true →
      Moves record { record with cancel := some intent }
  | cancel {record : ExecutionRecord} (cancelId : String) (now : Nat) :
      record.cancel = none → executionSettled record = false → record.dispatchClaimedAt = none →
      Moves record (canceledRecord record cancelId now)
  | observe {record : ExecutionRecord} (phase : ExecutionPhase) (now : Nat) (outcome : JsonValue) :
      executionSettled record = false → record.dispatchClaimedAt.isSome = true →
      Moves record (observedRecord record phase now outcome)
  | acknowledge {record : ExecutionRecord} (now : Nat) :
      executionSettled record = true →
      Moves record { record with
        acknowledgedAt := record.acknowledgedAt.or (some (toISOString now)) }
  | finalize {record : ExecutionRecord} (now : Nat) :
      record.phase = .terminal ∨ record.phase = .canceled → needsAcknowledgment record = false →
      Moves record { record with
        finalizedAt := record.finalizedAt.or (some (toISOString now)) }
  | fact {record : ExecutionRecord} (fact : FiniteProcessFact) :
      fact.conforms = true → acceptsProcessFact (some record) fact = true →
      Moves record (observedProcessExecution record fact)

/-- The times of a record agree with its phase. -/
structure ExecutionRecord.WellFormed (record : ExecutionRecord) : Prop where
  settledAt : record.settledAt.isSome = executionSettled record
  /-- Only a terminal or cancelled record is finalized, and only one that is
  acknowledged or was never claimed. -/
  finalizedAt : record.finalizedAt.isSome = true →
    (record.phase = .terminal ∨ record.phase = .canceled) ∧
      (record.acknowledgedAt.isSome = true ∨ record.dispatchClaimedAt = none)

/-- What the life of a record never takes back. -/
structure ExecutionRecord.Evolves (record later : ExecutionRecord) : Prop where
  acceptance : later.acceptance = record.acceptance
  settled : executionSettled record = true →
    later.phase = record.phase ∧ later.outcome = record.outcome ∧
      later.settledAt = record.settledAt
  dispatchClaimedAt : record.dispatchClaimedAt.isSome = true →
    later.dispatchClaimedAt = record.dispatchClaimedAt
  cancel : record.cancel.isSome = true → later.cancel = record.cancel
  acknowledgedAt : record.acknowledgedAt.isSome = true →
    later.acknowledgedAt = record.acknowledgedAt
  finalizedAt : record.finalizedAt.isSome = true → later.finalizedAt = record.finalizedAt
  unclaimed : record.cancel.isSome = true → record.dispatchClaimedAt = none →
    later.dispatchClaimedAt = none

namespace ExecutionRecord

theorem Evolves.refl (record : ExecutionRecord) : record.Evolves record :=
  ⟨rfl, fun _ => ⟨rfl, rfl, rfl⟩, fun _ => rfl, fun _ => rfl, fun _ => rfl, fun _ => rfl,
    fun _ h => h⟩

theorem Evolves.executionSettled {record later : ExecutionRecord} (h : record.Evolves later)
    (hsettled : executionSettled record = true) : executionSettled later = true := by
  rw [Executions.executionSettled, (h.settled hsettled).1]
  exact hsettled

theorem Evolves.trans {record later last : ExecutionRecord} (h : record.Evolves later)
    (h' : later.Evolves last) : record.Evolves last where
  acceptance := h'.acceptance.trans h.acceptance
  settled hsettled := by
    obtain ⟨hphase, houtcome, htime⟩ := h.settled hsettled
    obtain ⟨hphase', houtcome', htime'⟩ := h'.settled (h.executionSettled hsettled)
    exact ⟨hphase'.trans hphase, houtcome'.trans houtcome, htime'.trans htime⟩
  dispatchClaimedAt hsome :=
    (h'.dispatchClaimedAt (h.dispatchClaimedAt hsome ▸ hsome)).trans (h.dispatchClaimedAt hsome)
  cancel hsome := (h'.cancel (h.cancel hsome ▸ hsome)).trans (h.cancel hsome)
  acknowledgedAt hsome :=
    (h'.acknowledgedAt (h.acknowledgedAt hsome ▸ hsome)).trans (h.acknowledgedAt hsome)
  finalizedAt hsome := (h'.finalizedAt (h.finalizedAt hsome ▸ hsome)).trans (h.finalizedAt hsome)
  unclaimed hcancel hnone :=
    h'.unclaimed (h.cancel hcancel ▸ hcancel) (h.unclaimed hcancel hnone)

end ExecutionRecord

/-! ### The moves keep what they must -/

theorem FiniteProcessFact.endedAt_of_conforms {fact : FiniteProcessFact}
    (h : fact.conforms = true) : fact.endedAt.isSome = fact.ended := by
  simp only [FiniteProcessFact.conforms, Bool.and_eq_true, decide_eq_true_eq] at h
  obtain ⟨⟨⟨⟨-, hended⟩, -⟩, -⟩, -⟩ := h
  exact hended.symm

theorem settled_executionPhase (fact : FiniteProcessFact) :
    fact.phase.executionPhase.settled = fact.ended := by
  unfold FiniteProcessFact.ended
  cases fact.phase <;> rfl

theorem acceptsProcessFact_eq_true {record : ExecutionRecord} {fact : FiniteProcessFact}
    (h : acceptsProcessFact (some record) fact = true) :
    record.dispatchClaimedAt.isSome = true ∧ record.acceptance.fingerprint = fact.fingerprint ∧
      record.acceptance.execution = fact.execution ∧
      (executionSettled record = true →
        fact.phase.executionPhase = record.phase ∧ fact.ended = true ∧
          record.outcome = JsonValue.of fact.toJson) := by
  unfold acceptsProcessFact at h
  dsimp only at h
  split_ifs at h with hguard hsettled
  · simp only [Bool.or_eq_true, not_or, Bool.not_eq_true, Option.isNone_eq_false_iff,
      decide_eq_true_eq, not_not] at hguard
    simp only [Bool.and_eq_true, Bool.or_eq_true, decide_eq_true_eq] at h
    refine ⟨hguard.1.1, hguard.1.2, hguard.2, fun _ => ?_⟩
    obtain ⟨⟨hrecord, hfact⟩ | ⟨hrecord, hfact⟩, houtcome⟩ := h
    · simp [hrecord, hfact, houtcome, FiniteProcessFact.ended, ProcessPhase.executionPhase]
    · simp [hrecord, hfact, houtcome, FiniteProcessFact.ended, ProcessPhase.executionPhase]
  · simp only [Bool.or_eq_true, not_or, Bool.not_eq_true, Option.isNone_eq_false_iff,
      decide_eq_true_eq, not_not] at hguard
    exact ⟨hguard.1.1, hguard.1.2, hguard.2, fun hsettled' => absurd hsettled' hsettled⟩

/-- An open record has nothing to keep but its claim and its cancel. -/
theorem ExecutionRecord.WellFormed.not_finalized {record : ExecutionRecord}
    (h : record.WellFormed) (hopen : executionSettled record = false) :
    record.finalizedAt.isSome = false := by
  cases hfinal : record.finalizedAt.isSome with
  | false => rfl
  | true =>
      rcases (h.finalizedAt hfinal).1 with hphase | hphase
      all_goals simp [executionSettled, hphase, ExecutionPhase.settled] at hopen

theorem Moves.evolves {record later : ExecutionRecord} (h : Moves record later)
    (hwell : record.WellFormed) : record.Evolves later := by
  cases h with
  | lose time outcome hopen =>
      exact ⟨rfl, fun hsettled => by simp [hopen] at hsettled, fun _ => rfl, fun _ => rfl,
        fun _ => rfl, fun _ => rfl, fun _ hnone => hnone⟩
  | claim now hcancel hopen =>
      exact ⟨rfl, fun hsettled => by simp [hopen] at hsettled,
        fun hsome => Option.or_of_isSome hsome, fun _ => rfl, fun _ => rfl, fun _ => rfl,
        fun hsome => by simp [hcancel] at hsome⟩
  | intend intent hcancel hopen hclaimed =>
      exact ⟨rfl, fun _ => ⟨rfl, rfl, rfl⟩, fun _ => rfl, fun hsome => by simp [hcancel] at hsome,
        fun _ => rfl, fun _ => rfl, fun _ hnone => hnone⟩
  | cancel cancelId now hcancel hopen hunclaimed =>
      exact ⟨rfl, fun hsettled => by simp [hopen] at hsettled, fun _ => rfl,
        fun hsome => by simp [hcancel] at hsome, fun _ => rfl,
        fun hsome => by simp [hwell.not_finalized hopen] at hsome, fun _ hnone => hnone⟩
  | observe phase now outcome hopen hclaimed =>
      exact ⟨rfl, fun hsettled => by simp [hopen] at hsettled, fun _ => rfl, fun _ => rfl,
        fun _ => rfl, fun _ => rfl, fun _ hnone => hnone⟩
  | acknowledge now hsettled =>
      exact ⟨rfl, fun _ => ⟨rfl, rfl, rfl⟩, fun _ => rfl, fun _ => rfl,
        fun hsome => Option.or_of_isSome hsome, fun _ => rfl, fun _ hnone => hnone⟩
  | finalize now hphase hack =>
      exact ⟨rfl, fun _ => ⟨rfl, rfl, rfl⟩, fun _ => rfl, fun _ => rfl, fun _ => rfl,
        fun hsome => Option.or_of_isSome hsome, fun _ hnone => hnone⟩
  | fact fact hconforms haccepts =>
      obtain ⟨hclaimed, -, -, hagrees⟩ := acceptsProcessFact_eq_true haccepts
      refine ⟨rfl, fun hsettled => ?_, fun _ => rfl, fun _ => rfl, fun _ => rfl, fun _ => rfl,
        fun _ hnone => hnone⟩
      obtain ⟨hphase, hended, houtcome⟩ := hagrees hsettled
      refine ⟨hphase, houtcome.symm, ?_⟩
      simp only [observedProcessExecution, hended, if_true]
      exact Option.or_of_isSome (hwell.settledAt.trans hsettled)

theorem Moves.wellFormed {record later : ExecutionRecord} (h : Moves record later)
    (hwell : record.WellFormed) : later.WellFormed := by
  cases h with
  | lose time outcome hopen =>
      exact ⟨rfl, fun hsome => by simp [hwell.not_finalized hopen] at hsome⟩
  | claim now hcancel hopen =>
      refine ⟨?_, fun hsome => ?_⟩
      · have hsettledAt := hwell.settledAt
        simp only [executionSettled, claimedRecord] at hopen hsettledAt ⊢
        split
        · rw [hsettledAt, hopen]
          rfl
        · exact hsettledAt
      · rw [claimedRecord, hwell.not_finalized hopen] at hsome
        exact absurd hsome (by simp)
  | intend intent hcancel hopen hclaimed => exact ⟨hwell.settledAt, hwell.finalizedAt⟩
  | cancel cancelId now hcancel hopen hunclaimed =>
      exact ⟨rfl, fun _ => ⟨.inr rfl, .inr hunclaimed⟩⟩
  | observe phase now outcome hopen hclaimed =>
      refine ⟨?_, fun hsome => by simp [observedRecord, hwell.not_finalized hopen] at hsome⟩
      cases hphase : phase.settled with
      | false => simp [executionSettled, observedRecord, hphase]
      | true => simp [executionSettled, observedRecord, hphase]
  | acknowledge now hsettled =>
      refine ⟨hwell.settledAt, fun hsome => ⟨(hwell.finalizedAt hsome).1, .inl ?_⟩⟩
      rw [Option.isSome_or]
      simp
  | finalize now hphase hack =>
      refine ⟨hwell.settledAt, fun _ => ⟨hphase, ?_⟩⟩
      -- A claimed record in one of these phases is finalized only after its acknowledgment.
      cases hclaimed : record.dispatchClaimedAt with
      | none => exact .inr rfl
      | some time =>
          left
          rcases hphase with hphase | hphase
          all_goals
            simpa [needsAcknowledgment, hclaimed, hphase, Option.isSome_iff_ne_none,
              Option.isNone_iff_eq_none] using hack
  | fact fact hconforms haccepts =>
      obtain ⟨hclaimed, -, -, hagrees⟩ := acceptsProcessFact_eq_true haccepts
      have hendedAt := FiniteProcessFact.endedAt_of_conforms hconforms
      refine ⟨?_, fun hsome => ?_⟩
      · rw [executionSettled, observedProcessExecution, settled_executionPhase]
        cases hended : fact.ended with
        | false => rfl
        | true =>
            rw [hended] at hendedAt
            simp [Option.isSome_or, hendedAt]
      · -- Only a settled record is finalized, and the fact agrees with it.
        obtain ⟨hphase, hrest⟩ := hwell.finalizedAt hsome
        have hsettled : executionSettled record = true := by
          rcases hphase with hphase | hphase
          all_goals simp [executionSettled, hphase, ExecutionPhase.settled]
        rw [observedProcessExecution, (hagrees hsettled).1]
        exact ⟨hphase, hrest⟩

theorem acceptedRecord_wellFormed (input : WorkloadAcceptance)
    (identity : Option ConversationRequestIdentity) (now : Nat) :
    (acceptedRecord input identity now).WellFormed :=
  ⟨rfl, fun hsome => by simp [acceptedRecord] at hsome⟩

end PocketCoder.Executions
