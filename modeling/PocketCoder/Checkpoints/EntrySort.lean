import Mathlib.Data.List.Nodup
import PocketCoder.Checkpoints.EntryRecord

/-!
The sorter of checkpoint entries (`db/src/checkpoints/entry-sort.ts`,
`offset-merge.ts`). Records are appended to one file and their offsets to
another; sealing sorts the offsets, with passes that each read one file of
offsets and write the next.

A file of offsets stands for the list of the records at those offsets. On
such files a pass is a pass of the merge sort over lists, and the search and
the two generators read the sorted list.
-/

namespace PocketCoder.Checkpoints

open PocketCoder.Foundation

/-! ### The merge -/

structure MergeHead where
  offset : Bytes
  entry : CheckpointArchiveEntry

def takeLeft (first second : Option MergeHead) : Except String Bool :=
  match first, second with
  | none, _ => .ok false
  | some _, none => .ok true
  | some first, some second =>
      match compareCheckpointPaths first.entry.key second.entry.key with
      | .eq => .error "Checkpoint sort contains a duplicate mount and path."
      | .lt => .ok true
      | .gt => .ok false

structure MergeOptions where
  records : Bytes
  recordBytes : Nat
  source : Bytes
  count : Nat
  width : Nat

/-- The variables of the loop that merges two runs. -/
structure MergeCursor where
  left : Nat
  right : Nat
  first : Option MergeHead
  second : Option MergeHead
  written : Nat
  target : Bytes

/-- What the loop has written. -/
def MergeCursor.output (cursor : MergeCursor) : Nat × Bytes := (cursor.written, cursor.target)

namespace MergeOptions

variable (node : NodeRuntime) (options : MergeOptions)

def head (index limit : Nat) : Except String (Option MergeHead) :=
  if index = limit then .ok none
  else do
    let offset ← readIndexBytes options.source 8 (index * 8)
    let entry ← readCheckpointIndexEntry node options.records options.recordBytes
      (readUIntBE offset)
    .ok (some { offset, entry })

/-- The body of `while (first || second)`. -/
def mergeRound (leftEnd rightEnd : Nat) (cursor : MergeCursor) : Except String MergeCursor := do
  let takeFirst ← takeLeft cursor.first cursor.second
  let target :=
    match takeFirst, cursor.first, cursor.second with
    | true, some first, _ => writeIndexBytes cursor.target first.offset (cursor.written * 8)
    | _, _, some second => writeIndexBytes cursor.target second.offset (cursor.written * 8)
    | _, _, none => cursor.target
  if takeFirst then do
    let first ← options.head node (cursor.left + 1) leftEnd
    .ok { cursor with left := cursor.left + 1, first, written := cursor.written + 1, target }
  else do
    let second ← options.head node (cursor.right + 1) rightEnd
    .ok { cursor with right := cursor.right + 1, second, written := cursor.written + 1, target }

/-- `while (first || second)`, for at most `rounds` rounds. -/
def mergeRounds (leftEnd rightEnd : Nat) : Nat → MergeCursor → Except String MergeCursor
  | 0, cursor => .ok cursor
  | rounds + 1, cursor =>
      if cursor.first.isNone && cursor.second.isNone then .ok cursor
      else do mergeRounds leftEnd rightEnd rounds (← options.mergeRound node leftEnd rightEnd cursor)

/-- The loop over the pairs of runs, from `start` on. -/
def mergeFrom (start written : Nat) (target : Bytes) : Except String Bytes :=
  if start < options.count ∧ 0 < options.width then do
    let leftEnd := min (start + options.width) options.count
    let rightEnd := min (start + options.width * 2) options.count
    let first ← options.head node start leftEnd
    let second ← options.head node leftEnd rightEnd
    let cursor ← options.mergeRounds node leftEnd rightEnd (options.width * 2)
      { left := start, right := leftEnd, first, second, written, target }
    mergeFrom (start + options.width * 2) cursor.written cursor.target
  else .ok target
termination_by options.count - start

/-- `mergeCheckpointOffsets`: the file of offsets that it writes. -/
def mergeCheckpointOffsets : Except String Bytes := options.mergeFrom node 0 0 []

end MergeOptions

/-! ### The sorter -/

inductive SortState where
  | writing
  | ready

structure EntrySorter where
  maxBytes : Nat
  records : Bytes
  order : Bytes
  recordBytes : Nat
  count : Nat
  state : SortState

def createCheckpointEntrySorter (maxBytes : Nat) : Except String EntrySorter :=
  if maxBytes > MAX_SAFE_INTEGER then .error "Invalid checkpoint sort reservation."
  else .ok { maxBytes, records := [], order := [], recordBytes := 0, count := 0, state := .writing }

/-- The bytes of the offsets, with room for the file of the next merge. -/
def offsetReserve (count : Nat) : Nat := count * if count > 1 then 16 else 8

/-- `!Number.isSafeInteger(bytes) || bytes > maxBytes`. -/
def exceeds (bytes maxBytes : Nat) : Bool := bytes > MAX_SAFE_INTEGER || bytes > maxBytes

namespace EntrySorter

variable (node : NodeRuntime) (sorter : EntrySorter)

def append (value : SourceRecord) : Except String EntrySorter := do
  let record ← checkpointSortRecord node value.entry value.custody
  match sorter.state with
  | .ready => .error "Checkpoint sort is sealed."
  | .writing =>
      let next := sorter.recordBytes + record.size
      let nextCount := sorter.count + 1
      if exceeds (next + offsetReserve nextCount) sorter.maxBytes then
        .error "Checkpoint sort exceeds its physical byte reservation."
      else
        let files := writeCheckpointSortRecord sorter.records sorter.order sorter.recordBytes
          sorter.count record
        .ok { sorter with
          records := files.1, order := files.2, recordBytes := next, count := nextCount }

/-- The passes of `seal`, from a width on. -/
def sortPasses (width : Nat) (order : Bytes) : Except String Bytes :=
  if width < sorter.count ∧ 0 < width then do
    let target ← MergeOptions.mergeCheckpointOffsets node
      { records := sorter.records, recordBytes := sorter.recordBytes, source := order
        count := sorter.count, width }
    sortPasses (width * 2) target
  else .ok order
termination_by sorter.count - width

/-- `seal`. -/
def sealSorter : Except String EntrySorter :=
  match sorter.state with
  | .ready => .ok sorter
  | .writing => do
      let order ← sorter.sortPasses node 1 sorter.order
      .ok { sorter with order, state := .ready }

/-- The offset of the record at an index. -/
def offsetAt (index : Nat) : Except String Nat :=
  return readUIntBE (← readIndexBytes sorter.order 8 (index * 8))

def recordAt (index : Nat) : Except String SourceRecord := do
  readCheckpointSourceRecord node sorter.records sorter.recordBytes (← sorter.offsetAt index)

def entryAt (index : Nat) : Except String CheckpointArchiveEntry := do
  readCheckpointIndexEntry node sorter.records sorter.recordBytes (← sorter.offsetAt index)

def requireReady : Except String Unit :=
  match sorter.state with
  | .writing => .error "Checkpoint sort is not sealed."
  | .ready => .ok ()

def find (mount : Nat) (path : String) : Except String (Option (CheckpointArchiveEntry × Nat)) := do
  sorter.requireReady
  search (sorter.entryAt node) (fun entry => compareCheckpointPaths entry.key (mount, path)) 0
    sorter.count

def lookup (mount : Nat) (path : String) : Except String (Option CheckpointArchiveEntry) :=
  return (← sorter.find node mount path).map Prod.fst

def lookupRecord (mount : Nat) (path : String) : Except String (Option SourceRecord) := do
  match ← sorter.find node mount path with
  | none => return none
  | some found => return some (← sorter.recordAt node found.2)

/-- `records()`: what the generator yields. -/
def sourceRecords : Except String (List SourceRecord) := do
  sorter.requireReady
  (List.range sorter.count).mapM (sorter.recordAt node)

def entries : Except String (List CheckpointArchiveEntry) := do
  sorter.requireReady
  (List.range sorter.count).mapM (sorter.entryAt node)

/-- Appends, one after the other. -/
def appendAll (records : List SourceRecord) : Except String EntrySorter :=
  records.foldlM (fun sorter record => sorter.append node record) sorter

end EntrySorter

/-! ### Files as lists -/

/-- A record that can be read at its offset. -/
structure ReadsBack (node : NodeRuntime) (records : Bytes) (bytes : Nat) (placed : Placed) : Prop where
  small : placed.1 < 2 ^ 64
  entry : readCheckpointIndexEntry node records bytes placed.1 = .ok placed.2.entry
  record : readCheckpointSourceRecord node records bytes placed.1 = .ok placed.2

/-- The place of a record in the order. -/
def Placed.order (placed : Placed) : Nat ×ₗ List Nat := pathOrder placed.2.entry.key

/-! ### A pass over lists -/

def duplicateMessage : String := "Checkpoint sort contains a duplicate mount and path."

/-- The head of a run. -/
def headOf (run : List Placed) : Option MergeHead :=
  run.head?.map fun record => { offset := uint64BE record.1, entry := record.2.entry }

theorem takeLeft_eq (x y : Placed) (xs ys : List Placed) :
    takeLeft (headOf (x :: xs)) (headOf (y :: ys)) =
      match comparison x.order y.order with
      | .eq => .error duplicateMessage
      | .lt => .ok true
      | .gt => .ok false := by
  have hcompare := compareCheckpointPaths_eq x.2.entry.key y.2.entry.key
  rw [Placed.order, Placed.order, ← hcompare]
  rfl

theorem joinRuns_nil (xs : List Placed) : joinRuns Placed.order duplicateMessage xs [] = .ok xs := by
  cases xs <;> rw [joinRuns]

/-- The rest of a run. -/
theorem take_drop_succ {placed xs : List Placed} {x : Placed} {index limit : Nat}
    (h : (placed.drop index).take (limit - index) = x :: xs) :
    index < limit ∧ (placed.drop (index + 1)).take (limit - (index + 1)) = xs := by
  obtain ⟨n, hn⟩ : ∃ n, limit - index = n + 1 := by
    refine ⟨limit - index - 1, ?_⟩
    by_contra hzero
    have : limit - index = 0 := by omega
    rw [this, List.take_zero] at h
    cases h
  refine ⟨by omega, ?_⟩
  have htail := congrArg List.tail h
  rw [hn, List.tail_cons, ← List.drop_one, List.drop_take, List.drop_drop] at htail
  rw [← htail]
  congr 1
  omega

/-- The runs of a pair, as the loop cuts them. -/
theorem runs_eq {placed : List Placed} {width start : Nat} (hstart : start < placed.length) :
    (placed.drop start).take (min (start + width) placed.length - start) =
      (placed.drop start).take width ∧
    (placed.drop (min (start + width) placed.length)).take
        (min (start + width * 2) placed.length - min (start + width) placed.length) =
      ((placed.drop start).drop width).take width := by
  constructor
  · rw [List.take_eq_take_iff, List.length_drop]
    omega
  · rw [List.drop_drop]
    by_cases hfull : start + width ≤ placed.length
    · rw [Nat.min_eq_left hfull, List.take_eq_take_iff, List.length_drop]
      omega
    · have hend : min (start + width) placed.length = placed.length := by omega
      rw [hend, List.drop_length, List.drop_of_length_le (by omega), List.take_nil, List.take_nil]

/-- What the loop has written says how it ended. -/
theorem mergeRounds_cases {result : Except String MergeCursor} {merged : Except String (List Placed)}
    {output : List Placed → Nat × Bytes} (h : result.map MergeCursor.output = merged.map output) :
    (∃ e, merged = .error e ∧ result = .error e) ∨
      ∃ records cursor, merged = .ok records ∧ result = .ok cursor ∧ cursor.output = output records := by
  cases result with
  | error e =>
      cases merged with
      | error e' =>
          cases h
          exact .inl ⟨e, rfl, rfl⟩
      | ok records => cases h
  | ok cursor =>
      cases merged with
      | error e' => cases h
      | ok records => exact .inr ⟨records, cursor, rfl, rfl, Except.ok.inj h⟩

section
variable {node : NodeRuntime} {options : MergeOptions} {placed : List Placed}
variable (hsource : options.source = offsetFile placed)
  (hreads : ∀ record ∈ placed, ReadsBack node options.records options.recordBytes record)

include hsource hreads

theorem head_eq {index limit : Nat} (hindex : index ≤ limit) (hlimit : limit ≤ placed.length) :
    options.head node index limit = .ok (headOf ((placed.drop index).take (limit - index))) := by
  rw [MergeOptions.head]
  split
  · rename_i heq
    rw [heq, Nat.sub_self, List.take_zero]
    rfl
  · rename_i hne
    have hlt : index < placed.length := by omega
    have hread := hreads _ (List.getElem_mem hlt)
    rw [hsource, readIndexBytes_offsetFile hlt]
    dsimp only [bind, Except.bind]
    rw [readUIntBE_uint64BE hread.small, hread.entry]
    obtain ⟨n, hn⟩ : ∃ n, limit - index = n + 1 := ⟨limit - index - 1, by omega⟩
    rw [hn, List.drop_eq_getElem_cons hlt, List.take_succ_cons]
    rfl

/-- A round that takes the head of the first run. -/
theorem mergeRound_first {leftEnd rightEnd : Nat} {cursor : MergeCursor} {x : Placed}
    {xs : List Placed} (hend : leftEnd ≤ placed.length)
    (hrun : (placed.drop cursor.left).take (leftEnd - cursor.left) = x :: xs)
    (hfirst : cursor.first = headOf (x :: xs)) (htarget : cursor.target.length = cursor.written * 8)
    (htake : takeLeft cursor.first cursor.second = .ok true) :
    options.mergeRound node leftEnd rightEnd cursor = .ok { cursor with
      left := cursor.left + 1, first := headOf xs, written := cursor.written + 1
      target := cursor.target ++ uint64BE x.1 } := by
  obtain ⟨hlt, htail⟩ := take_drop_succ hrun
  rw [MergeOptions.mergeRound, htake]
  dsimp only [bind, Except.bind]
  rw [if_pos rfl, head_eq hsource hreads hlt hend, htail, hfirst]
  dsimp only [headOf, List.head?_cons, Option.map_some]
  rw [← htarget, writeIndexBytes_length]

theorem mergeRound_second {leftEnd rightEnd : Nat} {cursor : MergeCursor} {y : Placed}
    {ys : List Placed} (hend : rightEnd ≤ placed.length)
    (hrun : (placed.drop cursor.right).take (rightEnd - cursor.right) = y :: ys)
    (hsecond : cursor.second = headOf (y :: ys))
    (htarget : cursor.target.length = cursor.written * 8)
    (htake : takeLeft cursor.first cursor.second = .ok false) :
    options.mergeRound node leftEnd rightEnd cursor = .ok { cursor with
      right := cursor.right + 1, second := headOf ys, written := cursor.written + 1
      target := cursor.target ++ uint64BE y.1 } := by
  obtain ⟨hlt, htail⟩ := take_drop_succ hrun
  rw [MergeOptions.mergeRound, htake]
  dsimp only [bind, Except.bind]
  rw [if_neg Bool.false_ne_true, head_eq hsource hreads hlt hend, htail, hsecond]
  dsimp only [headOf, List.head?_cons, Option.map_some]
  rw [← htarget, writeIndexBytes_length]

/-- The loop merges the two runs: the induction is on the rounds, which are
enough for the records of both. -/
theorem mergeRounds_eq {leftEnd rightEnd rounds : Nat} {cursor : MergeCursor} {xs ys : List Placed}
    (hleftEnd : leftEnd ≤ placed.length) (hrightEnd : rightEnd ≤ placed.length)
    (hxs : (placed.drop cursor.left).take (leftEnd - cursor.left) = xs)
    (hys : (placed.drop cursor.right).take (rightEnd - cursor.right) = ys)
    (hfirst : cursor.first = headOf xs) (hsecond : cursor.second = headOf ys)
    (htarget : cursor.target.length = cursor.written * 8)
    (hrounds : xs.length + ys.length ≤ rounds) :
    (options.mergeRounds node leftEnd rightEnd rounds cursor).map MergeCursor.output =
      (joinRuns Placed.order duplicateMessage xs ys).map fun merged =>
        (cursor.written + merged.length, cursor.target ++ offsetFile merged) := by
  induction rounds generalizing cursor xs ys with
  | zero =>
      obtain ⟨rfl, rfl⟩ : xs = [] ∧ ys = [] :=
        ⟨List.eq_nil_of_length_eq_zero (by omega), List.eq_nil_of_length_eq_zero (by omega)⟩
      rw [joinRuns_nil]
      exact congrArg _ (congrArg (Prod.mk cursor.written) (List.append_nil _).symm)
  | succ rounds ih =>
      -- what is left to do after a round that takes a head
      have hleft : ∀ x xs', xs = x :: xs' → takeLeft cursor.first cursor.second = .ok true →
          (options.mergeRounds node leftEnd rightEnd (rounds + 1) cursor).map MergeCursor.output =
            (joinRuns Placed.order duplicateMessage xs' ys).map fun merged =>
              (cursor.written + (x :: merged).length, cursor.target ++ offsetFile (x :: merged)) := by
        rintro x xs' rfl htake
        rw [MergeOptions.mergeRounds, hfirst, if_neg (by simp [headOf]),
          mergeRound_first hsource hreads hleftEnd hxs hfirst htarget htake]
        refine (@ih _ xs' ys ?_ ?_ ?_ ?_ ?_ ?_).trans ?_
        · exact (take_drop_succ hxs).2
        · exact hys
        · rfl
        · exact hsecond
        · dsimp only
          rw [List.length_append, length_uint64BE, htarget]
          omega
        · rw [List.length_cons] at hrounds
          omega
        · dsimp only [List.length_cons]
          simp only [List.append_assoc, Nat.add_right_comm]
          rfl
      -- and of one that takes the head of the other run
      have hright : ∀ y ys', ys = y :: ys' → takeLeft cursor.first cursor.second = .ok false →
          (options.mergeRounds node leftEnd rightEnd (rounds + 1) cursor).map MergeCursor.output =
            (joinRuns Placed.order duplicateMessage xs ys').map fun merged =>
              (cursor.written + (y :: merged).length, cursor.target ++ offsetFile (y :: merged)) := by
        rintro y ys' rfl htake
        rw [MergeOptions.mergeRounds, hsecond, if_neg (by simp [headOf]),
          mergeRound_second hsource hreads hrightEnd hys hsecond htarget htake]
        refine (@ih _ xs ys' ?_ ?_ ?_ ?_ ?_ ?_).trans ?_
        · exact hxs
        · exact (take_drop_succ hys).2
        · exact hfirst
        · rfl
        · dsimp only
          rw [List.length_append, length_uint64BE, htarget]
          omega
        · rw [List.length_cons] at hrounds
          omega
        · dsimp only [List.length_cons]
          simp only [List.append_assoc, Nat.add_right_comm]
          rfl
      -- an empty run leaves the other one to be copied; two heads are compared
      cases hxs' : xs with
      | nil =>
          cases hys' : ys with
          | nil =>
              rw [MergeOptions.mergeRounds, hfirst, hsecond, hxs', hys', joinRuns_nil]
              exact congrArg _ (congrArg (Prod.mk cursor.written) (List.append_nil _).symm)
          | cons y ys' =>
              rw [hright y ys' hys' (by rw [hfirst, hxs']; rfl), hxs', joinRuns, joinRuns]
              rfl
      | cons x xs' =>
          cases hys' : ys with
          | nil =>
              rw [hleft x xs' hxs' (by rw [hfirst, hsecond, hxs', hys']; rfl), hys', joinRuns_nil,
                joinRuns_nil]
              rfl
          | cons y ys' =>
              have htake := takeLeft_eq x y xs' ys'
              rw [← hxs', ← hfirst, ← hys', ← hsecond] at htake
              rw [joinRuns]
              cases hcompare : comparison x.order y.order with
              | eq =>
                  rw [hcompare] at htake
                  rw [MergeOptions.mergeRounds, hfirst, hxs', if_neg (by simp [headOf]),
                    MergeOptions.mergeRound, htake]
                  rfl
              | lt =>
                  rw [hcompare] at htake
                  rw [hleft x xs' hxs' htake, hys']
                  cases joinRuns Placed.order duplicateMessage xs' (y :: ys') <;> rfl
              | gt =>
                  rw [hcompare] at htake
                  rw [hright y ys' hys' htake, hxs']
                  cases joinRuns Placed.order duplicateMessage (x :: xs') ys' <;> rfl

/-- A pass over files is a pass over lists. -/
theorem mergeFrom_eq (hcount : options.count = placed.length) (hwidth : 0 < options.width)
    {start written : Nat} {target : Bytes} (htarget : target.length = written * 8) :
    options.mergeFrom node start written target =
      (mergePass Placed.order duplicateMessage options.width (placed.drop start)).map fun merged =>
        target ++ offsetFile merged := by
  induction hn : placed.length - start using Nat.strong_induction_on generalizing start written target with
  | _ n ih =>
      rw [MergeOptions.mergeFrom, hcount]
      by_cases hstart : start < placed.length
      · obtain ⟨hfirst, hsecond⟩ := @runs_eq placed options.width start hstart
        have hne : ¬(placed.drop start = [] ∨ options.width = 0) := by
          rw [List.drop_eq_nil_iff]
          omega
        -- the rounds of one pair of runs, which are enough for both
        have hloop := mergeRounds_cases (@mergeRounds_eq node options placed hsource hreads
          (min (start + options.width) placed.length) (min (start + options.width * 2) placed.length)
          (options.width * 2) ⟨start, min (start + options.width) placed.length,
            headOf ((placed.drop start).take options.width),
            headOf (((placed.drop start).drop options.width).take options.width), written, target⟩
          _ _ (by omega) (by omega) hfirst hsecond rfl rfl htarget (by
            rw [List.length_take, List.length_take]
            omega))
        rw [if_pos ⟨hstart, hwidth⟩, mergePass, dif_neg hne]
        dsimp only
        rw [head_eq hsource hreads (by omega) (by omega), head_eq hsource hreads (by omega) (by omega),
          hfirst, hsecond]
        dsimp only [bind, Except.bind]
        rcases hloop with ⟨e, hjoin, hrounds⟩ | ⟨merged, cursor, hjoin, hrounds, houtput⟩
        · rw [hjoin, hrounds]
          rfl
        · obtain ⟨hwritten, hbytes⟩ := Prod.mk.inj houtput
          rw [hjoin, hrounds]
          dsimp only
          -- the rest of the pass starts two runs further on
          rw [ih (placed.length - (start + options.width * 2)) (by omega) ?_ rfl, hbytes,
            ← List.drop_drop]
          · cases mergePass Placed.order duplicateMessage options.width
                ((placed.drop start).drop (options.width * 2)) with
            | error e => rfl
            | ok rest =>
                dsimp only [Except.map]
                rw [offsetFile_append, List.append_assoc]
          · rw [hbytes, hwritten, List.length_append, length_offsetFile, htarget]
            dsimp only
            omega
      · rw [if_neg (by omega), List.drop_of_length_le (by omega), mergePass, dif_pos (.inl rfl)]
        exact congrArg _ (List.append_nil _).symm

end

/-! ### Appends -/

variable {node : NodeRuntime}

/-- The sorter that has taken a list of records. -/
def EntrySorter.holding (node : NodeRuntime) (maxBytes : Nat) (records : List SourceRecord) :
    EntrySorter where
  maxBytes := maxBytes
  records := recordFile node records
  order := offsetFile (place node 0 records)
  recordBytes := (recordFile node records).length
  count := records.length
  state := .writing

/-- What a list of records needs of the reservation. -/
def reserve (node : NodeRuntime) (records : List SourceRecord) : Nat :=
  (recordFile node records).length + offsetReserve records.length

theorem reserve_mono (node : NodeRuntime) (before after : List SourceRecord) :
    reserve node before ≤ reserve node (before ++ after) := by
  rw [reserve, reserve, recordFile_append, List.length_append, List.length_append, offsetReserve,
    offsetReserve]
  split <;> split <;> omega

theorem writeCheckpointSortRecord_eq (records : List SourceRecord) (record : SourceRecord) :
    writeCheckpointSortRecord (recordFile node records) (offsetFile (place node 0 records))
        (recordFile node records).length records.length
        { document := entryDocument node record.entry
          privateBytes := record.custody
          length := uint32BE (framedLength (entryDocument node record.entry) record.custody)
          size := (record.bytes node).length } =
      (recordFile node (records ++ [record]), offsetFile (place node 0 (records ++ [record]))) := by
  have hframe : ∀ file bytes : Bytes, ∀ n, n = file.length →
      writeIndexBytes file bytes n = file ++ bytes := by
    rintro file bytes n rfl
    exact writeIndexBytes_length file bytes
  have hnew : recordFile node (records ++ [record]) = recordFile node records ++
      (uint32BE (framedLength (entryDocument node record.entry) record.custody) ++
        entryDocument node record.entry ++ record.custody.getD []) := by
    rw [recordFile_append, recordFile, recordFile, List.flatMap_singleton]
    rfl
  rw [writeCheckpointSortRecord]
  refine Prod.ext ?_ ?_
  · dsimp only
    rw [writeIndexBytes_length, hframe _ _ _ (by rw [List.length_append, length_uint32BE]), hnew]
    cases record.custody with
    | none => simp
    | some custody =>
        dsimp only [Option.getD_some]
        rw [hframe _ _ _ (by rw [List.length_append, List.length_append, length_uint32BE])]
        simp only [List.append_assoc]
  · dsimp only
    rw [hframe _ _ _ (by rw [length_offsetFile, length_place]), place_append, offsetFile_append,
      Nat.zero_add]
    rfl

theorem exceeds_eq_false {bytes maxBytes : Nat} (hmax : maxBytes ≤ MAX_SAFE_INTEGER) :
    exceeds bytes maxBytes = false ↔ bytes ≤ maxBytes := by
  rw [exceeds, Bool.or_eq_false_iff, decide_eq_false_iff_not, decide_eq_false_iff_not]
  omega

theorem append_holding {maxBytes : Nat} {records : List SourceRecord} {record : SourceRecord} :
    (EntrySorter.holding node maxBytes records).append node record =
      (checkpointSortRecord node record.entry record.custody >>= fun written =>
        let files := writeCheckpointSortRecord (recordFile node records)
          (offsetFile (place node 0 records)) (recordFile node records).length records.length written
        if exceeds ((recordFile node records).length + written.size +
            offsetReserve (records.length + 1)) maxBytes then
          .error "Checkpoint sort exceeds its physical byte reservation."
        else
          .ok { EntrySorter.holding node maxBytes records with
            records := files.1, order := files.2
            recordBytes := (recordFile node records).length + written.size
            count := records.length + 1 }) := rfl

/-- An append succeeds where the record fits and its room is reserved. -/
theorem append_eq_ok {maxBytes : Nat} (hmax : maxBytes ≤ MAX_SAFE_INTEGER) {next : EntrySorter}
    {records : List SourceRecord} {record : SourceRecord} :
    (EntrySorter.holding node maxBytes records).append node record = .ok next ↔
      record.Fits node ∧ reserve node (records ++ [record]) ≤ maxBytes ∧
        next = .holding node maxBytes (records ++ [record]) := by
  have hreserve : (recordFile node records).length + (record.bytes node).length +
      offsetReserve (records.length + 1) = reserve node (records ++ [record]) := by
    rw [reserve, recordFile_append, List.length_append, List.length_append, recordFile, recordFile,
      List.flatMap_singleton]
    rfl
  have hlength : (recordFile node (records ++ [record])).length =
      (recordFile node records).length + (record.bytes node).length := by
    rw [recordFile_append, List.length_append, recordFile, recordFile, List.flatMap_singleton]
  have hholding : { EntrySorter.holding node maxBytes records with
      records := recordFile node (records ++ [record])
      order := offsetFile (place node 0 (records ++ [record]))
      recordBytes := (recordFile node records).length + (record.bytes node).length
      count := records.length + 1 } = EntrySorter.holding node maxBytes (records ++ [record]) := by
    rw [EntrySorter.holding, EntrySorter.holding, hlength, List.length_append]
    rfl
  rw [append_holding]
  constructor
  · intro h
    obtain ⟨written, hwritten, h⟩ := Except.bind_eq_ok.mp h
    obtain ⟨hfits, rfl⟩ := checkpointSortRecord_eq_ok.mp hwritten
    dsimp only at h
    rw [writeCheckpointSortRecord_eq, hreserve] at h
    split_ifs at h with hroom
    rw [Bool.not_eq_true] at hroom
    exact ⟨hfits, (exceeds_eq_false hmax).mp hroom, (hholding.symm.trans (Except.ok.inj h)).symm⟩
  · rintro ⟨hfits, hroom, rfl⟩
    refine Except.bind_eq_ok.mpr ⟨_, checkpointSortRecord_eq_ok.mpr ⟨hfits, rfl⟩, ?_⟩
    dsimp only
    rw [writeCheckpointSortRecord_eq, hreserve, (exceeds_eq_false hmax).mpr hroom,
      if_neg Bool.false_ne_true, ← hholding]

/-- Appends succeed where every record fits and the room of all is reserved. -/
theorem appendAll_eq_ok {maxBytes : Nat} (hmax : maxBytes ≤ MAX_SAFE_INTEGER) {next : EntrySorter}
    {records : List SourceRecord} (before : List SourceRecord)
    (hbefore : reserve node before ≤ maxBytes) :
    (EntrySorter.holding node maxBytes before).appendAll node records = .ok next ↔
      (∀ record ∈ records, record.Fits node) ∧ reserve node (before ++ records) ≤ maxBytes ∧
        next = .holding node maxBytes (before ++ records) := by
  induction records generalizing before with
  | nil =>
      rw [List.append_nil]
      constructor
      · intro h
        exact ⟨fun _ hmem => (nomatch hmem), hbefore, (Except.ok.inj h).symm⟩
      · rintro ⟨-, -, rfl⟩
        rfl
  | cons record records ih =>
      have hsplit : before ++ record :: records = (before ++ [record]) ++ records := by
        rw [List.append_assoc]
        rfl
      have happend : (EntrySorter.holding node maxBytes before).appendAll node (record :: records) =
          ((EntrySorter.holding node maxBytes before).append node record >>= fun sorter =>
            sorter.appendAll node records) := rfl
      rw [happend, hsplit]
      constructor
      · intro h
        obtain ⟨sorter, hsorter, h⟩ := Except.bind_eq_ok.mp h
        obtain ⟨hfits, hroom, rfl⟩ := (append_eq_ok hmax).mp hsorter
        obtain ⟨hrest, hall, hnext⟩ := (ih (before ++ [record]) hroom).mp h
        refine ⟨fun other hmem => ?_, hall, hnext⟩
        rcases List.mem_cons.mp hmem with rfl | hmem
        · exact hfits
        · exact hrest other hmem
      · rintro ⟨hfits, hall, hnext⟩
        have hroom := (reserve_mono node (before ++ [record]) records).trans hall
        exact Except.bind_eq_ok.mpr ⟨_,
          (append_eq_ok hmax).mpr ⟨hfits record List.mem_cons_self, hroom, rfl⟩,
          (ih (before ++ [record]) hroom).mpr
            ⟨fun other hmem => hfits other (List.mem_cons_of_mem _ hmem), hall, hnext⟩⟩

/-! ### Sealing -/

/-- Every record is read back at its offset. -/
theorem readsBack_place {records : List SourceRecord}
    (hfits : ∀ record ∈ records, record.Fits node)
    (hsafe : (recordFile node records).length ≤ MAX_SAFE_INTEGER) :
    ∀ placed ∈ place node 0 records,
      ReadsBack node (recordFile node records) (recordFile node records).length placed := by
  intro placed hplaced
  obtain ⟨before, after, hsplit, hoffset⟩ := mem_place hplaced
  rw [Nat.zero_add] at hoffset
  have hfile : recordFile node records =
      recordFile node before ++ placed.2.bytes node ++ recordFile node after := by
    rw [hsplit, recordFile_append, List.append_assoc]
    rfl
  have hmem : placed.2 ∈ records := by
    rw [hsplit]
    exact List.mem_append_right _ List.mem_cons_self
  have hfit := hfits _ hmem
  have hlength := congrArg List.length hfile
  rw [List.length_append, List.length_append] at hlength
  have hlimit : MAX_SAFE_INTEGER = 2 ^ 53 - 1 := rfl
  refine ⟨by omega, ?_, ?_⟩
  · rw [hoffset, hfile]
    exact readCheckpointIndexEntry_append hfit (by rw [← hfile]; omega) (by omega)
  · rw [hoffset, hfile]
    exact readCheckpointSourceRecord_append hfit (by rw [← hfile]; omega) (by omega)

/-- The passes over files are the passes over lists. -/
theorem sortPasses_eq {sorter : EntrySorter} {placed : List Placed} {width : Nat}
    (hcount : sorter.count = placed.length) (hwidth : 0 < width)
    (hreads : ∀ record ∈ placed, ReadsBack node sorter.records sorter.recordBytes record)
    (hruns : RunsIncreasing Placed.order width placed) :
    sorter.sortPasses node width (offsetFile placed) =
      (mergePasses Placed.order duplicateMessage placed.length width placed).map offsetFile := by
  induction hn : placed.length - width using Nat.strong_induction_on generalizing width placed with
  | _ n ih =>
      rw [EntrySorter.sortPasses, mergePasses, hcount]
      by_cases hlt : width < placed.length
      · have hpass : MergeOptions.mergeCheckpointOffsets node
            { records := sorter.records, recordBytes := sorter.recordBytes
              source := offsetFile placed, count := sorter.count, width } =
            (mergePass Placed.order duplicateMessage width placed).map offsetFile :=
          mergeFrom_eq rfl hreads hcount hwidth rfl
        rw [hcount] at hpass
        rw [if_pos ⟨hlt, hwidth⟩, if_pos ⟨hlt, hwidth⟩, hpass]
        rcases mergePass_spec hwidth hruns duplicateMessage with
          ⟨herror, -⟩ | ⟨merged, hmerged, hperm, hruns'⟩
        · rw [herror]
          rfl
        · rw [hmerged]
          have hlength := hperm.length_eq
          have hrest := ih (merged.length - width * 2) (by omega) (hcount.trans hlength.symm)
            (by omega) (fun record hmem => hreads record (hperm.mem_iff.mp hmem)) hruns' rfl
          rw [hlength] at hrest
          exact hrest
      · rw [if_neg (by omega), if_neg (by omega)]
        rfl

theorem mapM_range_eq {α : Type} {f : Nat → Except String α} {items : List α}
    (h : ∀ i (hi : i < items.length), f i = .ok items[i]) :
    (List.range items.length).mapM f = .ok items := by
  have hfirstPart : ∀ n, n ≤ items.length → (List.range n).mapM f = .ok (items.take n) := by
    intro n hn
    induction n with
    | zero => rfl
    | succ n ih =>
        rw [List.range_succ, List.mapM_append, ih (by omega), List.mapM_cons, h n (by omega),
          List.take_succ_eq_append_getElem (by omega)]
        rfl
  rw [hfirstPart items.length (Nat.le_refl _), List.take_length]

/-- The sorter after its passes. -/
def EntrySorter.sorted (node : NodeRuntime) (maxBytes : Nat) (records : List SourceRecord)
    (placed : List Placed) : EntrySorter :=
  { EntrySorter.holding node maxBytes records with order := offsetFile placed, state := .ready }

theorem count_sorted (maxBytes : Nat) {records : List SourceRecord} {placed : List Placed}
    (hperm : placed.Perm (place node 0 records)) :
    (EntrySorter.sorted node maxBytes records placed).count = placed.length := by
  rw [hperm.length_eq, length_place]
  rfl

section
variable {maxBytes : Nat} {records : List SourceRecord} {placed : List Placed}
variable (hperm : placed.Perm (place node 0 records))
  (hreads : ∀ record ∈ place node 0 records,
    ReadsBack node (recordFile node records) (recordFile node records).length record)

include hperm hreads

theorem offsetAt_sorted {i : Nat} (hi : i < placed.length) :
    (EntrySorter.sorted node maxBytes records placed).offsetAt i = .ok placed[i].1 := by
  have hread := hreads _ (hperm.mem_iff.mp (List.getElem_mem hi))
  have hoffset : readIndexBytes (EntrySorter.sorted node maxBytes records placed).order 8 (i * 8) =
      .ok (uint64BE placed[i].1) := readIndexBytes_offsetFile hi
  rw [EntrySorter.offsetAt, hoffset]
  exact congrArg Except.ok (readUIntBE_uint64BE hread.small)

theorem recordAt_sorted {i : Nat} (hi : i < placed.length) :
    (EntrySorter.sorted node maxBytes records placed).recordAt node i = .ok placed[i].2 := by
  rw [EntrySorter.recordAt, offsetAt_sorted hperm hreads hi]
  exact (hreads _ (hperm.mem_iff.mp (List.getElem_mem hi))).record

theorem entryAt_sorted {i : Nat} (hi : i < placed.length) :
    (EntrySorter.sorted node maxBytes records placed).entryAt node i = .ok placed[i].2.entry := by
  rw [EntrySorter.entryAt, offsetAt_sorted hperm hreads hi]
  exact (hreads _ (hperm.mem_iff.mp (List.getElem_mem hi))).entry

/-- The two generators yield the sorted list. -/
theorem generators_sorted :
    (EntrySorter.sorted node maxBytes records placed).entries node =
      .ok (placed.map fun record => record.2.entry) ∧
    (EntrySorter.sorted node maxBytes records placed).sourceRecords node =
      .ok (placed.map Prod.snd) := by
  constructor
  · have hentries := @mapM_range_eq _ ((EntrySorter.sorted node maxBytes records placed).entryAt node)
      (placed.map fun record => record.2.entry) fun i hi => by
        rw [List.length_map] at hi
        rw [entryAt_sorted hperm hreads hi, List.getElem_map]
    rw [List.length_map, ← count_sorted maxBytes hperm] at hentries
    exact hentries
  · have hrecords := @mapM_range_eq _ ((EntrySorter.sorted node maxBytes records placed).recordAt node)
      (placed.map Prod.snd) fun i hi => by
        rw [List.length_map] at hi
        rw [recordAt_sorted hperm hreads hi, List.getElem_map]
    rw [List.length_map, ← count_sorted maxBytes hperm] at hrecords
    exact hrecords

/-- What `find` answers. -/
theorem find_sorted (hsorted : Increasing Placed.order placed) (mount : Nat) (path : String) :
    (∃ i, ∃ hi : i < placed.length, placed[i].2.entry.key = (mount, path) ∧
      (EntrySorter.sorted node maxBytes records placed).find node mount path =
        .ok (some (placed[i].2.entry, i))) ∨
    ((∀ record ∈ placed, record.2.entry.key ≠ (mount, path)) ∧
      (EntrySorter.sorted node maxBytes records placed).find node mount path = .ok none) := by
  have hfind : (EntrySorter.sorted node maxBytes records placed).find node mount path =
      search ((EntrySorter.sorted node maxBytes records placed).entryAt node)
        (fun entry => compareCheckpointPaths entry.key (mount, path)) 0
        (placed.map fun record => record.2.entry).length := by
    rw [List.length_map, ← count_sorted maxBytes hperm]
    rfl
  have hincreasing : Increasing (fun entry : CheckpointArchiveEntry => pathOrder entry.key)
      (placed.map fun record => record.2.entry) := List.pairwise_map.mpr hsorted
  have hread : ∀ i (hi : i < (placed.map fun record => record.2.entry).length),
      (EntrySorter.sorted node maxBytes records placed).entryAt node i =
        .ok (placed.map fun record => record.2.entry)[i] := by
    intro i hi
    rw [List.length_map] at hi
    rw [entryAt_sorted hperm hreads hi, List.getElem_map]
  rw [hfind]
  rcases search_spec hincreasing hread (fun entry => compareCheckpointPaths_eq entry.key (mount, path))
    (Nat.le_refl _) (fun i hi _ => ⟨Nat.zero_le i, hi⟩) with ⟨i, hi, hok, hkey⟩ | ⟨hok, hnone⟩
  · rw [List.getElem_map] at hkey hok
    rw [List.length_map] at hi
    exact .inl ⟨i, hi, pathOrder_injective hkey, hok⟩
  · refine .inr ⟨fun record hmem hkey => ?_, hok⟩
    exact hnone record.2.entry (List.mem_map_of_mem hmem) (congrArg pathOrder hkey)

end

/-- Sealing sorts the records by merge sort. -/
theorem sealSorter_eq {maxBytes : Nat} {records : List SourceRecord}
    (hreads : ∀ record ∈ place node 0 records,
      ReadsBack node (recordFile node records) (recordFile node records).length record) :
    (EntrySorter.holding node maxBytes records).sealSorter node =
      (mergePasses Placed.order duplicateMessage (place node 0 records).length 1
        (place node 0 records)).map (EntrySorter.sorted node maxBytes records) := by
  have hpasses : (EntrySorter.holding node maxBytes records).sortPasses node 1
      (offsetFile (place node 0 records)) =
        (mergePasses Placed.order duplicateMessage (place node 0 records).length 1
          (place node 0 records)).map offsetFile :=
    sortPasses_eq (length_place node 0 records).symm Nat.one_pos hreads (runsIncreasing_one _)
  have hseal : (EntrySorter.holding node maxBytes records).sealSorter node =
      ((EntrySorter.holding node maxBytes records).sortPasses node 1
        (offsetFile (place node 0 records)) >>= fun order =>
          .ok { EntrySorter.holding node maxBytes records with order, state := .ready }) := rfl
  rw [hseal, hpasses]
  cases mergePasses Placed.order duplicateMessage (place node 0 records).length 1
    (place node 0 records) <;> rfl

theorem nodup_order_iff {records : List SourceRecord} :
    ((place node 0 records).map Placed.order).Nodup ↔
      (records.map fun record => record.entry.key).Nodup := by
  have hmap : (place node 0 records).map Placed.order =
      (records.map fun record => record.entry.key).map pathOrder := by
    conv_rhs => rw [← map_snd_place node 0 records]
    rw [List.map_map, List.map_map]
    rfl
  rw [hmap, List.nodup_map_iff pathOrder_injective]

/-- **The sorter sorts.** Appends succeed exactly when every entry is valid,
its document and its custody have the right size, and the reservation covers
all records. Sealing then succeeds exactly when the keys are distinct, and
the sealed sorter yields the appended records, each once and with its own
custody, in the order of mount and path, and finds exactly them. -/
theorem checkpointEntrySorter_sorts (node : NodeRuntime) (maxBytes : Nat)
    (records : List SourceRecord) :
    ((∃ sorter, (createCheckpointEntrySorter maxBytes >>= fun sorter =>
        sorter.appendAll node records) = .ok sorter) ↔
      maxBytes ≤ MAX_SAFE_INTEGER ∧ (∀ record ∈ records, record.Fits node) ∧
        reserve node records ≤ maxBytes) ∧
    ∀ sorter, (createCheckpointEntrySorter maxBytes >>= fun sorter =>
        sorter.appendAll node records) = .ok sorter →
      ((∃ sorted, sorter.sealSorter node = .ok sorted) ↔
        (records.map fun record => (record.entry.mount, record.entry.path)).Nodup) ∧
      ∀ sealedSorter, sorter.sealSorter node = .ok sealedSorter →
        ∃ sorted : List SourceRecord, sorted.Perm records ∧
          sorted.Pairwise (fun a b => pathOrder a.entry.key < pathOrder b.entry.key) ∧
          sealedSorter.entries node = .ok (sorted.map SourceRecord.entry) ∧
          sealedSorter.sourceRecords node = .ok sorted ∧
          ∀ mount path,
            (∀ record ∈ records, record.entry.mount = mount → record.entry.path = path →
              sealedSorter.lookup node mount path = .ok (some record.entry) ∧
              sealedSorter.lookupRecord node mount path = .ok (some record)) ∧
            ((∀ record ∈ records, ¬(record.entry.mount = mount ∧ record.entry.path = path)) →
              sealedSorter.lookup node mount path = .ok none ∧
              sealedSorter.lookupRecord node mount path = .ok none) := by
  -- the sorter that was created and filled is the one that holds the records
  have hcreated : ∀ sorter, (createCheckpointEntrySorter maxBytes >>= fun sorter =>
        sorter.appendAll node records) = .ok sorter ↔
      maxBytes ≤ MAX_SAFE_INTEGER ∧ (∀ record ∈ records, record.Fits node) ∧
        reserve node records ≤ maxBytes ∧ sorter = .holding node maxBytes records := by
    intro sorter
    rw [createCheckpointEntrySorter]
    by_cases hmax : maxBytes ≤ MAX_SAFE_INTEGER
    · rw [if_neg (Nat.not_lt.mpr hmax)]
      have happended := @appendAll_eq_ok node maxBytes hmax sorter records [] (Nat.zero_le _)
      rw [List.nil_append] at happended
      exact happended.trans ⟨fun h => ⟨hmax, h⟩, fun h => h.2⟩
    · rw [if_pos (Nat.lt_of_not_le hmax)]
      exact ⟨fun h => (nomatch h), fun h => absurd h.1 hmax⟩
  constructor
  · constructor
    · rintro ⟨sorter, h⟩
      obtain ⟨hmax, hfits, hroom, -⟩ := (hcreated sorter).mp h
      exact ⟨hmax, hfits, hroom⟩
    · rintro ⟨hmax, hfits, hroom⟩
      exact ⟨_, (hcreated _).mpr ⟨hmax, hfits, hroom, rfl⟩⟩
  intro sorter h
  obtain ⟨hmax, hfits, hroom, rfl⟩ := (hcreated sorter).mp h
  have hlength : (recordFile node records).length ≤ reserve node records := Nat.le_add_right _ _
  have hreads := readsBack_place hfits (hlength.trans (hroom.trans hmax))
  rw [sealSorter_eq hreads]
  -- sealing is the merge sort of the placed records, which fails on a repeated key only
  have hsorts := mergeSort_sorts duplicateMessage Placed.order (place node 0 records)
  constructor
  · refine Iff.trans ?_ (hsorts.ok_iff.trans nodup_order_iff)
    cases mergePasses Placed.order duplicateMessage (place node 0 records).length 1
        (place node 0 records) with
    | error e => exact ⟨fun ⟨_, hok⟩ => (nomatch hok), fun ⟨_, hok⟩ => (nomatch hok)⟩
    | ok placed => exact ⟨fun _ => ⟨placed, rfl⟩, fun _ => ⟨_, rfl⟩⟩
  intro sealedSorter hsealed
  rcases hsorts with ⟨herror, -⟩ | ⟨placed, hok, hperm, hsorted⟩
  · rw [herror] at hsealed
    cases hsealed
  rw [hok] at hsealed
  obtain rfl : EntrySorter.sorted node maxBytes records placed = sealedSorter := Except.ok.inj hsealed
  obtain ⟨hentries, hrecords⟩ := @generators_sorted node maxBytes records placed hperm hreads
  have hmem : ∀ record, record ∈ placed.map Prod.snd ↔ record ∈ records := by
    intro record
    rw [(hperm.map Prod.snd).mem_iff, map_snd_place]
  refine ⟨placed.map Prod.snd, ?_, List.pairwise_map.mpr hsorted, ?_, hrecords, fun mount path => ?_⟩
  · have hperm' := hperm.map Prod.snd
    rwa [map_snd_place] at hperm'
  · rw [hentries, List.map_map]
    rfl
  -- lookup: the binary search finds the key, or no record has it
  rcases @find_sorted node maxBytes records placed hperm hreads hsorted mount path with
    ⟨i, hi, hkey, hfind⟩ | ⟨hnone, hfind⟩
  · have hfound : placed[i].2 ∈ records :=
      (hmem _).mp (List.mem_map_of_mem (List.getElem_mem hi))
    refine ⟨fun record hrecord hmount hpath => ?_, fun habsent => ?_⟩
    · -- keys are distinct, so this is the record that was found
      have hsame : placed[i].2 = record := by
        obtain ⟨other, hother, rfl⟩ := List.mem_map.mp ((hmem record).mpr hrecord)
        obtain ⟨j, hj, rfl⟩ := List.getElem_of_mem hother
        have hkeys : placed[i].order = placed[j].order := by
          rw [Placed.order, Placed.order, hkey]
          exact congrArg pathOrder (Prod.ext hmount.symm hpath.symm)
        obtain rfl := hsorted.getElem_inj hi hj hkeys
        rfl
      rw [EntrySorter.lookup, EntrySorter.lookupRecord, hfind]
      dsimp only [bind, Except.bind]
      rw [recordAt_sorted hperm hreads hi, hsame]
      exact ⟨rfl, rfl⟩
    · exact absurd ⟨congrArg Prod.fst hkey, congrArg Prod.snd hkey⟩ (habsent _ hfound)
  · refine ⟨fun record hrecord hmount hpath => ?_, fun _ => ?_⟩
    · obtain ⟨other, hother, rfl⟩ := List.mem_map.mp ((hmem record).mpr hrecord)
      exact absurd (Prod.ext hmount hpath) (hnone other hother)
    · rw [EntrySorter.lookup, EntrySorter.lookupRecord, hfind]
      exact ⟨rfl, rfl⟩

end PocketCoder.Checkpoints
