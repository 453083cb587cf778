import Mathlib.Algebra.BigOperators.Ring.Finset
import Mathlib.Algebra.Order.BigOperators.Group.Finset
import Mathlib.Algebra.Order.Field.Rat
import Mathlib.Data.Int.ConditionallyCompleteOrder
import Mathlib.Data.Int.Interval
import Mathlib.Data.List.MinMax
import Mathlib.Tactic.NormNum
import Mathlib.Tactic.Positivity
import PocketCoder.Foundation.Doubles
import PocketCoder.Foundation.Table
import PocketCoder.Foundation.Transitions
import PocketCoder.Usage.Window

/-!
Usage samples and the report over them (`manager/src/usage/repository.ts`).

A sample is stored under the minute of its instant, and the first of a minute
stands. The report selects samples by their instants and weighs each with the
part of its minute inside the window; the minutes are disjoint, so their parts
add up to no more than the window. The sums are exact in the database, and the
report has the doubles next to them.
-/

namespace PocketCoder.Usage

open PocketCoder.Foundation

/-! ### Tables -/

structure Account where
  id : String
  createdAt : Int

structure UsageSample where
  accountId : String
  sampledAt : Int
  workspaces : Option Nat
  warm : Option Nat
  volumeBytes : Option Nat

/-- A row of `usage_samples`. -/
structure UsageRow extends UsageSample where
  bucketAt : Int

/-- The primary key. -/
def UsageRow.key (row : UsageRow) : String × Int := (row.accountId, row.bucketAt)

structure ManagerTables where
  accounts : Table Account.id
  usageSamples : Table UsageRow.key

structure ManagerError where
  status : Nat
  code : String
  deriving DecidableEq

/-! ### Writing -/

/-- An insert for no account is refused by the foreign key. -/
def recordUsageSample (db : ManagerTables) (sample : UsageSample) : ManagerTables :=
  if (db.accounts.get? sample.accountId).isSome then
    { db with
      usageSamples :=
        db.usageSamples.insert { sample with bucketAt := sampleBucket sample.sampledAt } }
  else db

def pruneUsageSamples (db : ManagerTables) (now : Int) : ManagerTables :=
  { db with
    usageSamples :=
      { rows := db.usageSamples.rows.filter fun row => !decide (row.sampledAt < retainedSince now)
        nodup := (List.filter_sublist.map _).nodup db.usageSamples.nodup } }

inductive UsageCall where
  | recordUsageSample (sample : UsageSample)
  | pruneUsageSamples (now : Int)

def ManagerTables.call (db : ManagerTables) : UsageCall → ManagerTables
  | .recordUsageSample sample => recordUsageSample db sample
  | .pruneUsageSamples now => pruneUsageSamples db now

def ManagerTables.calls (db : ManagerTables) (calls : List UsageCall) : ManagerTables :=
  calls.foldl ManagerTables.call db

/-! ### The report -/

/-- The seconds are doubles. -/
structure UsageCoverage where
  «from» : Int
  «to» : Int
  sample_interval_seconds : Nat
  expected_samples : Int
  recorded_samples : Nat
  workspace_samples : Nat
  volume_samples : Nat
  workspace_observed_seconds : ℚ
  workspace_gap_seconds : ℚ
  volume_observed_seconds : ℚ
  volume_gap_seconds : ℚ

structure UsageReport where
  account_id : String
  estimated_workspace_seconds : Option ℚ
  observed_peak : Option Nat
  estimated_warm_seconds : Option ℚ
  observed_warm_peak : Option Nat
  volume_bytes : Option Nat
  sampled_at : Option Int
  coverage : UsageCoverage

/-- The rows that a report is about. -/
def ManagerTables.range (db : ManagerTables) (accountId : String) («from» now : Int) :
    List UsageRow :=
  db.usageSamples.rows.filter fun row =>
    row.accountId = accountId && «from» ≤ row.sampledAt && row.sampledAt < now

/-- The milliseconds of a minute inside the window. -/
def clipped («from» now : Int) (row : UsageRow) : Int :=
  max 0 (min (row.bucketAt + 60000) now - max row.bucketAt «from»)

def seconds («from» now : Int) (row : UsageRow) : ℚ := clipped «from» now row / 1000

/-- `sum(value * seconds)`, which is null over no values. -/
def estimated («from» now : Int) (value : UsageRow → Option Nat) (rows : List UsageRow) : Option ℚ :=
  match rows.filterMap fun row => (value row).map fun n => n * seconds «from» now row with
  | [] => none
  | products => some products.sum

/-- `sum(seconds) filter (where value is not null)`. -/
def observed («from» now : Int) (value : UsageRow → Option Nat) (rows : List UsageRow) : ℚ :=
  ((rows.filter fun row => (value row).isSome).map (seconds «from» now)).sum

/-- `max(value)`. -/
def peak (value : UsageRow → Option Nat) (rows : List UsageRow) : Option Nat :=
  (rows.filterMap value).max?

/-- `Math.ceil(t / SAMPLE_INTERVAL_MS)`. -/
def ceilMinutes (t : Int) : Int := -(-t / SAMPLE_INTERVAL_MS)

/-- The row of the last sample, the first among equals. -/
def latestRow (rows : List UsageRow) : Option UsageRow :=
  rows.foldl (fun latest row =>
    match latest with
    | none => some row
    | some other => if other.sampledAt < row.sampledAt then some row else some other) none

/-- What the database aggregates. -/
structure UsageTotals where
  recorded : Nat
  workspaceSamples : Nat
  volumeSamples : Nat
  workspaceSeconds : Option ℚ
  warmSeconds : Option ℚ
  workspaceObserved : ℚ
  volumeObserved : ℚ
  peak : Option Nat
  warmPeak : Option Nat

def usageTotals («from» now : Int) (rows : List UsageRow) : UsageTotals where
  recorded := rows.length
  workspaceSamples := (rows.filterMap (·.workspaces)).length
  volumeSamples := (rows.filterMap (·.volumeBytes)).length
  workspaceSeconds := estimated «from» now (·.workspaces) rows
  warmSeconds := estimated «from» now (·.warm) rows
  workspaceObserved := observed «from» now (·.workspaces) rows
  volumeObserved := observed «from» now (·.volumeBytes) rows
  peak := Usage.peak (·.workspaces) rows
  warmPeak := Usage.peak (·.warm) rows

/-- `Math.max(0, (+now - +from) / 1000)`. -/
def duration («from» now : Int) : ℚ := max 0 (toDouble ((now - «from» : Int) / 1000))

/-- `mapWith(Number)` makes doubles of the sums. -/
def usageReport (accountId : String) («from» now : Int) (totals : UsageTotals)
    (latest : Option UsageRow) : UsageReport where
  account_id := accountId
  estimated_workspace_seconds := totals.workspaceSeconds.map toDouble
  observed_peak := totals.peak
  estimated_warm_seconds := totals.warmSeconds.map toDouble
  observed_warm_peak := totals.warmPeak
  volume_bytes := latest.bind (·.volumeBytes)
  sampled_at := latest.map (·.sampledAt)
  coverage :=
    { «from» := «from»
      «to» := now
      sample_interval_seconds := 60
      expected_samples := max 0 (ceilMinutes now - «from» / SAMPLE_INTERVAL_MS)
      recorded_samples := totals.recorded
      workspace_samples := totals.workspaceSamples
      volume_samples := totals.volumeSamples
      workspace_observed_seconds := toDouble totals.workspaceObserved
      workspace_gap_seconds :=
        toDouble (duration «from» now - toDouble totals.workspaceObserved)
      volume_observed_seconds := toDouble totals.volumeObserved
      volume_gap_seconds := toDouble (duration «from» now - toDouble totals.volumeObserved) }

def ManagerTables.totals (db : ManagerTables) (accountId : String) («from» now : Int) :
    UsageTotals :=
  usageTotals «from» now (db.range accountId «from» now)

def getUsage (db : ManagerTables) (accountId : String) (now : Int) :
    Except ManagerError UsageReport :=
  match db.accounts.get? accountId with
  | none => .error ⟨404, "account_not_found"⟩
  | some account =>
      let «from» := max account.createdAt (retainedSince now)
      .ok (usageReport accountId «from» now (db.totals accountId «from» now)
        (latestRow (db.range accountId «from» now)))

/-! ### The samples of a report -/

/-- Every row is stored under the minute of its instant. -/
def ManagerTables.Bucketed (db : ManagerTables) : Prop :=
  ∀ row ∈ db.usageSamples.rows, row.bucketAt = sampleBucket row.sampledAt

theorem ManagerTables.Bucketed.call {db : ManagerTables} (h : db.Bucketed) (call : UsageCall) :
    (db.call call).Bucketed := by
  cases call with
  | recordUsageSample sample =>
      rw [ManagerTables.call, recordUsageSample]
      split
      case isFalse => exact h
      case isTrue =>
        intro row hrow
        rcases db.usageSamples.rows_insert { sample with bucketAt := sampleBucket sample.sampledAt }
          with hrows | ⟨-, hrows⟩
        · exact h row (hrows ▸ hrow)
        · have hmem := hrows ▸ hrow
          rcases List.mem_append.mp hmem with hold | hnew
          · exact h row hold
          · rw [List.mem_singleton.mp hnew]
  | pruneUsageSamples now => exact fun row hrow => h row (List.mem_filter.mp hrow).1

theorem ManagerTables.Bucketed.calls {db : ManagerTables} (h : db.Bucketed)
    (calls : List UsageCall) : (db.calls calls).Bucketed := by
  induction calls generalizing db with
  | nil => exact h
  | cons call calls ih => exact ih (h.call call)

variable {db : ManagerTables} {accountId : String} {start now : Int} {rows : List UsageRow}

theorem mem_range {row : UsageRow} (h : row ∈ db.range accountId start now) :
    row ∈ db.usageSamples.rows ∧ row.accountId = accountId ∧ start ≤ row.sampledAt ∧
      row.sampledAt < now := by
  obtain ⟨hmem, hrange⟩ := List.mem_filter.mp h
  simp only [Bool.and_eq_true, decide_eq_true_eq] at hrange
  exact ⟨hmem, hrange.1.1, hrange.1.2, hrange.2⟩

/-- The rows of an account have different minutes. -/
theorem nodup_range (db : ManagerTables) (accountId : String) (start now : Int) :
    ((db.range accountId start now).map (·.bucketAt)).Nodup := by
  have hkeys : ((db.range accountId start now).map UsageRow.key).Nodup :=
    (List.filter_sublist.map _).nodup db.usageSamples.nodup
  have hsame : (db.range accountId start now).map UsageRow.key =
      ((db.range accountId start now).map (·.bucketAt)).map (Prod.mk accountId) := by
    rw [List.map_map]
    refine List.map_congr_left fun row hrow => ?_
    rw [UsageRow.key, (mem_range hrow).2.1]
    rfl
  rw [hsame] at hkeys
  exact hkeys.of_map

/-! ### Minutes of a window -/

/-- The milliseconds of a minute in a window, counted. -/
theorem clipped_eq_card {row : UsageRow} (h : row.bucketAt = sampleBucket row.sampledAt) :
    clipped start now row =
      ((Finset.Ico start now).filter fun t => sampleBucket t = row.bucketAt).card := by
  have hwindow : (Finset.Ico start now).filter (fun t => sampleBucket t = row.bucketAt) =
      Finset.Ico (max row.bucketAt start) (min (row.bucketAt + 60000) now) := by
    ext t
    rw [Finset.mem_filter, Finset.mem_Ico, Finset.mem_Ico, h, sampleBucket, sampleBucket,
      SAMPLE_INTERVAL_MS]
    omega
  rw [hwindow, Int.card_Ico, clipped]
  omega

/-- Different minutes of a window are no longer than the window. -/
theorem sum_clipped_le (hbuckets : ∀ row ∈ rows, row.bucketAt = sampleBucket row.sampledAt)
    (hnodup : (rows.map (·.bucketAt)).Nodup) :
    (rows.map (clipped start now)).sum ≤ max 0 (now - start) := by
  have hcounts : rows.map (clipped start now) =
      (rows.map (·.bucketAt)).map fun bucket =>
        (((Finset.Ico start now).filter fun t => sampleBucket t = bucket).card : Int) := by
    rw [List.map_map]
    exact List.map_congr_left fun row hrow => clipped_eq_card (hbuckets row hrow)
  have hfibers := Finset.sum_card_fiberwise_eq_card_filter (Finset.Ico start now)
    (rows.map (·.bucketAt)).toFinset sampleBucket
  rw [hcounts, ← List.sum_toFinset _ hnodup, ← Nat.cast_sum, hfibers]
  have hle := Finset.card_filter_le (Finset.Ico start now)
    fun t => sampleBucket t ∈ (rows.map (·.bucketAt)).toFinset
  rw [Int.card_Ico] at hle
  omega

theorem seconds_nonneg (row : UsageRow) : 0 ≤ seconds start now row := by
  rw [seconds, clipped]
  positivity

theorem sum_seconds (rows : List UsageRow) :
    (rows.map (seconds start now)).sum = (((rows.map (clipped start now)).sum : Int) : ℚ) / 1000 := by
  induction rows with
  | nil => simp
  | cons row rows ih =>
      rw [List.map_cons, List.sum_cons, ih, List.map_cons, List.sum_cons, seconds, Int.cast_add, add_div]

theorem observed_nonneg (value : UsageRow → Option Nat) : 0 ≤ observed start now value rows := by
  rw [observed]
  refine List.sum_nonneg fun s hs => ?_
  obtain ⟨row, -, rfl⟩ := List.mem_map.mp hs
  exact seconds_nonneg row

theorem observed_le (hbuckets : ∀ row ∈ rows, row.bucketAt = sampleBucket row.sampledAt)
    (hnodup : (rows.map (·.bucketAt)).Nodup) (value : UsageRow → Option Nat) :
    observed start now value rows ≤ max 0 (((now - start : Int) : ℚ) / 1000) := by
  have hsum := @sum_clipped_le start now (rows.filter fun row => (value row).isSome)
    (fun row hrow => hbuckets row (List.mem_filter.mp hrow).1)
    ((List.filter_sublist.map _).nodup hnodup)
  have hcast : ((((rows.filter fun row => (value row).isSome).map (clipped start now)).sum : Int) : ℚ) ≤
      ((max 0 (now - start) : Int) : ℚ) := Int.cast_le.mpr hsum
  rw [observed, sum_seconds]
  rw [Int.cast_max, Int.cast_zero] at hcast
  rcases max_cases (0 : ℚ) ((now - start : Int) : ℚ) with ⟨hmax, -⟩ | ⟨hmax, -⟩ <;>
    rw [hmax] at hcast
  · exact le_max_of_le_left (div_nonpos_of_nonpos_of_nonneg hcast (by norm_num))
  · exact le_max_of_le_right (div_le_div_of_nonneg_right hcast (by norm_num))

/-! ### Estimates -/

/-- Weighted values are no more than the largest one over all of their time. -/
theorem sum_products_le {value : UsageRow → Option Nat} {largest : Nat}
    (h : ∀ row ∈ rows, ∀ n, value row = some n → n ≤ largest) :
    (rows.filterMap fun row => (value row).map fun n => (n : ℚ) * seconds start now row).sum ≤
      largest * observed start now value rows := by
  induction rows with
  | nil => simp [observed]
  | cons row rows ih =>
      have htail := ih fun other hother => h other (List.mem_cons_of_mem _ hother)
      rw [observed] at htail ⊢
      cases hvalue : value row with
      | none => simpa [hvalue] using htail
      | some n =>
          have hn : (n : ℚ) ≤ largest := Nat.cast_le.mpr (h row List.mem_cons_self n hvalue)
          rw [List.filterMap_cons, hvalue, List.filter_cons_of_pos (by rw [hvalue]; rfl),
            List.map_cons, List.sum_cons]
          show (n : ℚ) * seconds start now row + _ ≤ _
          rw [mul_add]
          exact add_le_add (mul_le_mul_of_nonneg_right hn (seconds_nonneg row)) htail

/-- An estimate that is not null is over values, which have a largest one. -/
theorem estimated_le {value : UsageRow → Option Nat} {estimate : ℚ}
    (h : estimated start now value rows = some estimate) :
    ∃ largest, peak value rows = some largest ∧
      estimate ≤ largest * observed start now value rows := by
  rw [estimated] at h
  cases hvalues : rows.filterMap value with
  | nil =>
      have hnone : ∀ row ∈ rows, value row = none := List.filterMap_eq_nil_iff.mp hvalues
      have hempty : rows.filterMap (fun row =>
          (value row).map fun n => (n : ℚ) * seconds start now row) = [] :=
        List.filterMap_eq_nil_iff.mpr fun row hrow => by rw [hnone row hrow]; rfl
      rw [hempty] at h
      cases h
  | cons first others =>
      obtain ⟨largest, hlargest⟩ : ∃ largest, peak value rows = some largest :=
        ⟨_, by rw [peak, hvalues]; rfl⟩
      refine ⟨largest, hlargest, ?_⟩
      have hsum : (rows.filterMap fun row =>
          (value row).map fun n => (n : ℚ) * seconds start now row).sum = estimate := by
        split at h
        · cases h
        · exact Option.some.inj h
      rw [← hsum]
      refine sum_products_le fun row hrow n hn => ?_
      rw [peak] at hlargest
      exact (List.max?_eq_some_iff.mp hlargest).2 n (List.mem_filterMap.mpr ⟨row, hrow, hn⟩)

/-! ### Samples -/

/-- A window has at most one row of the account for each minute it touches. -/
theorem length_range_le (hbuckets : db.Bucketed) :
    ((db.range accountId start now).length : Int) ≤
      max 0 (ceilMinutes now - start / SAMPLE_INTERVAL_MS) := by
  have hnodup := nodup_range db accountId start now
  -- no two rows of an account are of the same minute
  have hminutes : ((db.range accountId start now).map fun row =>
      row.sampledAt / SAMPLE_INTERVAL_MS).Nodup := by
    have hsame : (db.range accountId start now).map (·.bucketAt) =
        ((db.range accountId start now).map fun row => row.sampledAt / SAMPLE_INTERVAL_MS).map
          (· * SAMPLE_INTERVAL_MS) := by
      rw [List.map_map]
      exact List.map_congr_left fun row hrow => hbuckets row (mem_range hrow).1
    rw [hsame] at hnodup
    exact hnodup.of_map
  have hcard := Finset.card_le_card (t := Finset.Ico (start / SAMPLE_INTERVAL_MS) (ceilMinutes now))
    (s := ((db.range accountId start now).map fun row =>
      row.sampledAt / SAMPLE_INTERVAL_MS).toFinset) (by
    intro minute hminute
    obtain ⟨row, hrow, rfl⟩ := List.mem_map.mp (List.mem_toFinset.mp hminute)
    obtain ⟨-, -, hstart, hnow⟩ := mem_range hrow
    rw [Finset.mem_Ico, ceilMinutes, SAMPLE_INTERVAL_MS]
    omega)
  rw [List.toFinset_card_of_nodup hminutes, List.length_map, Int.card_Ico] at hcard
  omega

/-- The doubles of the observed seconds are between zero and the duration. -/
theorem observed_bounds (hbuckets : ∀ row ∈ rows, row.bucketAt = sampleBucket row.sampledAt)
    (hnodup : (rows.map (·.bucketAt)).Nodup) (value : UsageRow → Option Nat) :
    0 ≤ toDouble (observed start now value rows) ∧
      toDouble (observed start now value rows) ≤ duration start now := by
  have hnonneg := @observed_nonneg start now rows value
  refine ⟨toDouble_nonneg hnonneg, ?_⟩
  rcases le_max_iff.mp (observed_le hbuckets hnodup value) with hzero | hle
  · rw [le_antisymm hzero hnonneg, toDouble_zero]
    exact le_max_left _ _
  · exact (toDouble_mono hnonneg hle).trans (le_max_right _ _)

/-- What adds up in a report and the sums that it is made of. -/
structure AddsUp (totals : UsageTotals) (report : UsageReport) : Prop where
  recorded : (report.coverage.recorded_samples : Int) ≤ report.coverage.expected_samples
  workspaces : report.coverage.workspace_samples ≤ report.coverage.recorded_samples
  volumes : report.coverage.volume_samples ≤ report.coverage.recorded_samples
  workspaceObserved : 0 ≤ report.coverage.workspace_observed_seconds ∧
    report.coverage.workspace_observed_seconds ≤
      duration report.coverage.«from» report.coverage.«to»
  volumeObserved : 0 ≤ report.coverage.volume_observed_seconds ∧
    report.coverage.volume_observed_seconds ≤
      duration report.coverage.«from» report.coverage.«to»
  workspaceGap : 0 ≤ report.coverage.workspace_gap_seconds
  volumeGap : 0 ≤ report.coverage.volume_gap_seconds
  /-- The exact sums keep to the peak; the report has the doubles next to them. -/
  estimate : ∀ estimate, totals.workspaceSeconds = some estimate →
    ∃ largest, report.observed_peak = some largest ∧
      estimate ≤ largest * totals.workspaceObserved
  estimated : report.estimated_workspace_seconds = totals.workspaceSeconds.map toDouble
  observed : report.coverage.workspace_observed_seconds = toDouble totals.workspaceObserved

/-- Every report over recorded and pruned samples adds up. -/
theorem getUsage_addsUp {init : ManagerTables} (hinit : init.usageSamples.rows = [])
    {calls : List UsageCall} {accountId : String} {now : Int} {report : UsageReport}
    (h : getUsage (init.calls calls) accountId now = .ok report) :
    AddsUp ((init.calls calls).totals accountId report.coverage.«from» now) report := by
  have hbuckets : (init.calls calls).Bucketed :=
    ManagerTables.Bucketed.calls (fun row hrow => by rw [hinit] at hrow; cases hrow) calls
  rw [getUsage] at h
  split at h
  · cases h
  · rename_i account _
    obtain rfl := Except.ok.inj h
    generalize max account.createdAt (retainedSince now) = start
    have hrows : ∀ row ∈ (init.calls calls).range accountId start now,
        row.bucketAt = sampleBucket row.sampledAt := fun row hrow => hbuckets row (mem_range hrow).1
    have hobserved : ∀ value, _ :=
      @observed_bounds start now _ hrows (nodup_range _ accountId start now)
    exact
      { recorded := length_range_le hbuckets
        workspaces := List.length_filterMap_le _ _
        volumes := List.length_filterMap_le _ _
        workspaceObserved := hobserved _
        volumeObserved := hobserved _
        workspaceGap := toDouble_nonneg (sub_nonneg.mpr (hobserved _).2)
        volumeGap := toDouble_nonneg (sub_nonneg.mpr (hobserved _).2)
        estimate := fun estimate hestimate => estimated_le hestimate
        estimated := rfl
        observed := rfl }

/-! ### One account -/

/-- The tables of an account without samples. -/
def accountTables (id : String) (createdAt : Int) : ManagerTables where
  accounts := ⟨[⟨id, createdAt⟩], List.nodup_singleton _⟩
  usageSamples := .empty

/-- Two workspaces in the first minute, and nothing in the second. -/
theorem getUsage_addsUp_minute :
    ∃ report, getUsage ((accountTables "account" 0).calls
        [.recordUsageSample ⟨"account", 1000, some 2, some 0, none⟩]) "account" 90000 = .ok report ∧
      AddsUp (((accountTables "account" 0).calls
        [.recordUsageSample ⟨"account", 1000, some 2, some 0, none⟩]).totals "account"
          report.coverage.«from» 90000) report ∧
      report.coverage.recorded_samples = 1 ∧ report.coverage.expected_samples = 2 :=
  ⟨_, rfl, @getUsage_addsUp (accountTables "account" 0) rfl
    [.recordUsageSample ⟨"account", 1000, some 2, some 0, none⟩] "account" 90000 _ rfl, by decide +kernel,
    by decide +kernel⟩

/-- The double next to 0.027 is greater than three times the one next to 0.009,
also when that product is rounded. -/
theorem toDouble_products :
    3 * toDouble (9 / 1000) < toDouble (27 / 1000) ∧
      toDouble (3 * toDouble (9 / 1000)) < toDouble (27 / 1000) := by
  have hseconds : toDouble (9 / 1000) = 5188146770730811 * 2 ^ (-59 : ℤ) := by
    rw [toDouble_eq (e := -59) (by decide) (by norm_num) (by norm_num),
      roundEven_of_lt (k := 5188146770730811) (by norm_num) (by norm_num)]
    norm_num
  have hestimate : toDouble (27 / 1000) = 7782220156096217 * 2 ^ (-58 : ℤ) := by
    rw [toDouble_eq (e := -58) (by decide) (by norm_num) (by norm_num),
      roundEven_of_lt (k := 7782220156096217) (by norm_num) (by norm_num)]
    norm_num
  have hproduct : toDouble (3 * toDouble (9 / 1000)) = 7782220156096216 * 2 ^ (-58 : ℤ) := by
    have hhalf := @roundEven_half 7782220156096216 (by decide)
    have hscaled : (3 * toDouble (9 / 1000)) / 2 ^ (-58 : ℤ) =
        ((7782220156096216 : ℤ) : ℚ) + 1 / 2 := by
      rw [hseconds]
      norm_num
    rw [toDouble_eq (e := -58) (by decide) (by rw [hseconds]; norm_num)
      (by rw [hseconds]; norm_num), hscaled, hhalf]
    norm_num
  rw [hproduct, hestimate, hseconds]
  constructor <;> norm_num

/-- Three workspaces in a window of nine milliseconds: the estimate of the report
is more than the peak times the observed seconds of the report. -/
theorem getUsage_rounds :
    ¬∀ {init : ManagerTables} {calls : List UsageCall} {accountId : String} {now : Int}
        {report : UsageReport}, init.usageSamples.rows = [] →
      getUsage (init.calls calls) accountId now = .ok report →
      ∀ estimate, report.estimated_workspace_seconds = some estimate →
        ∃ largest, report.observed_peak = some largest ∧
          (estimate ≤ largest * report.coverage.workspace_observed_seconds ∨
            estimate ≤ toDouble (largest * report.coverage.workspace_observed_seconds)) := by
  intro h
  let tables := (accountTables "account" 0).calls
    [.recordUsageSample ⟨"account", 1, some 3, none, none⟩]
  -- the exact sums keep to the bound, with equality
  have htotals : (tables.totals "account" 0 9).workspaceSeconds = some (27 / 1000) ∧
      (tables.totals "account" 0 9).workspaceObserved = 9 / 1000 ∧
      (tables.totals "account" 0 9).peak = some 3 := by
    decide +kernel
  obtain ⟨hseconds, hobserved, hpeak⟩ := htotals
  let report := usageReport "account" 0 9 (tables.totals "account" 0 9)
    (latestRow (tables.range "account" 0 9))
  have hreport : getUsage tables "account" 9 = .ok report := rfl
  have hestimate : report.estimated_workspace_seconds = some (toDouble (27 / 1000)) :=
    congrArg (Option.map toDouble) hseconds
  have hreported : report.coverage.workspace_observed_seconds = toDouble (9 / 1000) :=
    congrArg toDouble hobserved
  obtain ⟨largest, hlargest, hle⟩ := @h (accountTables "account" 0) _ "account" 9 report rfl hreport
    _ hestimate
  obtain rfl : 3 = largest := Option.some.inj (hpeak.symm.trans hlargest)
  rw [hreported] at hle
  obtain ⟨hexact, hrounded⟩ := toDouble_products
  rcases hle with hle | hle
  · exact absurd (by exact_mod_cast hle) (not_le.mpr hexact)
  · exact absurd (by exact_mod_cast hle) (not_le.mpr hrounded)

end PocketCoder.Usage
