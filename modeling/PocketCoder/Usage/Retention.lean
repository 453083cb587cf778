import PocketCoder.Usage.Repository

/-!
What pruning leaves of a later report: every sample of its window, unless a
prune ran at an instant whose cut-off is later than that of the report.
-/

namespace PocketCoder.Usage

open PocketCoder.Foundation PocketCoder.Foundation.Calendar

variable {db : ManagerTables} {row : UsageRow} {now : Int}

/-- A call keeps the rows that it does not prune. -/
theorem ManagerTables.mem_call {call : UsageCall} (h : row ∈ db.usageSamples.rows)
    (hkept : ∀ clock, call = .pruneUsageSamples clock → retainedSince clock ≤ row.sampledAt) :
    row ∈ (db.call call).usageSamples.rows := by
  cases call with
  | recordUsageSample sample =>
      rw [ManagerTables.call, recordUsageSample]
      split
      case isFalse => exact h
      case isTrue =>
        rcases db.usageSamples.rows_insert { sample with bucketAt := sampleBucket sample.sampledAt }
          with hrows | ⟨-, hrows⟩
        · exact hrows ▸ h
        · exact hrows ▸ List.mem_append_left _ h
  | pruneUsageSamples clock =>
      refine List.mem_filter.mpr ⟨h, ?_⟩
      simpa using hkept clock rfl

theorem ManagerTables.mem_calls {calls : List UsageCall} (h : row ∈ db.usageSamples.rows)
    (hkept : ∀ clock, .pruneUsageSamples clock ∈ calls → retainedSince clock ≤ row.sampledAt) :
    row ∈ (db.calls calls).usageSamples.rows := by
  induction calls generalizing db with
  | nil => exact h
  | cons call calls ih =>
      refine ih (db.mem_call h fun clock hcall => hkept clock ?_) fun clock hcall =>
        hkept clock (List.mem_cons_of_mem _ hcall)
      rw [hcall]
      exact List.mem_cons_self

/-- The rows that `getUsage` aggregates, for the account that it finds. -/
def aggregated (db : ManagerTables) (account : Account) (now : Int) : List UsageRow :=
  db.range account.id (max account.createdAt (retainedSince now)) now

/-- Two cut-offs are in order unless the end of a month holds both back; and a
report has every sample that was ever stored in its window when no prune since
then is held back with the report. -/
theorem pruneUsageSamples_keeps (db : ManagerTables) (before after : List UsageCall)
    (account : Account) (now : Int) :
    (∀ {t t' : Int}, t ≤ t' → (retainedSince t ≤ retainedSince t' ↔ ¬HeldBack t t')) ∧
      ((∀ clock, .pruneUsageSamples clock ∈ after → clock ≤ now ∧ ¬HeldBack clock now) →
        ∀ row ∈ (db.calls before).usageSamples.rows, row.accountId = account.id →
          max account.createdAt (retainedSince now) ≤ row.sampledAt → row.sampledAt < now →
          row ∈ aggregated (db.calls (before ++ after)) account now) := by
  refine ⟨retainedSince_le_iff, fun hprunes row hrow haccount hstart hnow => ?_⟩
  have hkept : row ∈ (db.calls (before ++ after)).usageSamples.rows := by
    rw [ManagerTables.calls, List.foldl_append]
    refine ManagerTables.mem_calls hrow fun clock hclock => ?_
    obtain ⟨hle, hheld⟩ := hprunes clock hclock
    exact ((retainedSince_le_iff hle).mpr hheld).trans ((le_max_right _ _).trans hstart)
  refine List.mem_filter.mpr ⟨hkept, ?_⟩
  simp only [Bool.and_eq_true, decide_eq_true_eq]
  exact ⟨⟨haccount, hstart⟩, hnow⟩

/-! ### The end of March -/

namespace MonthEnd

/-- 29 February 2024, 10:00. -/
def sample : UsageSample := ⟨"account", 1709200800000, some 1, some 0, none⟩

def stored : UsageRow := { sample with bucketAt := 1709200800000 }

/-- 30 March 2025, 23:00. -/
def pruned : Int := 1743375600000

/-- 31 March 2025, 01:00. -/
def reported : Int := 1743382800000

def account : Account := ⟨"account", 0⟩

end MonthEnd

/-- A sample of 29 February, pruned on 30 March, is missing from the report of
31 March. -/
theorem pruneUsageSamples_held :
    ¬(∀ {t t' : Int}, t ≤ t' → retainedSince t ≤ retainedSince t') ∧
      ¬∀ {db : ManagerTables} {before after : List UsageCall} {account : Account} {now : Int},
        (∀ clock, .pruneUsageSamples clock ∈ after → clock ≤ now) →
        ∀ row ∈ (db.calls before).usageSamples.rows, row.accountId = account.id →
          max account.createdAt (retainedSince now) ≤ row.sampledAt → row.sampledAt < now →
          row ∈ aggregated (db.calls (before ++ after)) account now := by
  refine ⟨fun h => ?_, fun h => ?_⟩
  · have hle := @h MonthEnd.pruned MonthEnd.reported (by decide)
    exact absurd hle (by decide +kernel)
  · have hmem := @h (accountTables "account" 0) [.recordUsageSample MonthEnd.sample]
      [.pruneUsageSamples MonthEnd.pruned] MonthEnd.account MonthEnd.reported
      (fun clock hclock => by
        rw [List.mem_singleton, UsageCall.pruneUsageSamples.injEq] at hclock
        rw [hclock]
        decide)
      MonthEnd.stored (List.mem_singleton.mpr rfl) rfl (by decide +kernel) (by decide)
    have hnone : aggregated ((accountTables "account" 0).calls
        ([.recordUsageSample MonthEnd.sample] ++ [.pruneUsageSamples MonthEnd.pruned]))
        MonthEnd.account MonthEnd.reported = [] := List.eq_nil_of_length_eq_zero (by decide +kernel)
    rw [hnone] at hmem
    cases hmem

/-- Pruned on 28 March, the same sample is in the report. -/
theorem pruneUsageSamples_keeps_sample :
    retainedSince MonthEnd.pruned ≤ retainedSince (MonthEnd.reported + 86400000) ∧
      MonthEnd.stored ∈ aggregated ((accountTables "account" 0).calls
        ([.recordUsageSample MonthEnd.sample] ++
          [.pruneUsageSamples (MonthEnd.pruned - 172800000)])) MonthEnd.account MonthEnd.reported := by
  obtain ⟨hle, hkeeps⟩ := pruneUsageSamples_keeps (accountTables "account" 0)
    [.recordUsageSample MonthEnd.sample] [.pruneUsageSamples (MonthEnd.pruned - 172800000)]
    MonthEnd.account MonthEnd.reported
  refine ⟨(hle (by decide)).mpr (by decide +kernel), hkeeps ?_ MonthEnd.stored
    (List.mem_singleton.mpr rfl) rfl (by decide +kernel) (by decide)⟩
  intro clock hclock
  rw [List.mem_singleton, UsageCall.pruneUsageSamples.injEq] at hclock
  rw [hclock]
  exact ⟨by decide, by decide +kernel⟩

end PocketCoder.Usage
