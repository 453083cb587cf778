import Mathlib.Algebra.BigOperators.Group.Finset.Basic
import Mathlib.Algebra.Order.BigOperators.Group.Finset
import Mathlib.Algebra.Order.Ring.Nat
import PocketCoder.Foundation.FileTree
import PocketCoder.Foundation.Table
import PocketCoder.Foundation.Transitions

/-!
The bounded filesystem of a database that is staged for a backup
(`db/src/backup/bounded-filesystem.ts`): the calls that create or extend files are
charged before they reach the file system, and refused where the charge would exceed
the budget.

A charge belongs to an entry. The entry of a file is found by its path, and by its
descriptor while it is open, also after the file was renamed or removed. Both tables
have the file that the file system has there (`Tracks`), so every charge reaches the
entry of the file that grows (`installBudget_bounds`).
-/

namespace PocketCoder.Backup

open Foundation FileTree

/-! ### The source -/

structure DatabaseBudget where
  bytes : Nat
  files : Nat

/-- What a call comes to: `refused` is error 51, `failed` the error of the underlying
call, `missing` the read of an entry that is not there. -/
inductive Outcome where
  | done
  | refused
  | failed
  | missing
  deriving DecidableEq

/-- The file system with the tables of `installBudget`. The entries are numbered in
the order of their creation. -/
structure System where
  files : Files
  sizes : JsMap Path Nat
  entries : List Nat
  descriptors : JsMap Nat (Option Nat)
  bytes : Nat
  fileCount : Nat

section

variable (block : Nat) (budget : DatabaseBudget)

def allocation (bytes : Nat) : Nat := (bytes + block - 1) / block * block + block

/-- The underlying call returns other files, or fails. -/
def charge (growth inodes : Nat) (result : Option Files) (sys : System) : Outcome × System :=
  if budget.bytes < sys.bytes + growth ∨ budget.files < sys.fileCount + inodes then (.refused, sys)
  else
    match result with
    | none => (.failed, sys)
    | some files =>
        (.done,
          { sys with files, bytes := sys.bytes + growth, fileCount := sys.fileCount + inodes })

def resize (entry : Option Nat) (size : Nat) (result : Option Files) (sys : System) :
    Outcome × System :=
  match entry with
  | none => (.missing, sys)
  | some ref =>
      let before := sys.entries.getD ref 0
      let next := max before size
      match charge budget (next - before) 0 result sys with
      | (.done, sys') => (.done, { sys' with entries := sys'.entries.set ref next })
      | other => other

def mknod (parent : Path) (name : String) (directory : Bool) (result : Option Files)
    (sys : System) : Outcome × System :=
  let size := if directory then 2 * block else block
  match charge budget size 1 result sys with
  | (.done, sys') =>
      (.done,
        { sys' with
          sizes := sys'.sizes.set (parent ++ [name]) sys'.entries.length
          entries := sys'.entries ++ [size] })
  | other => other

/-- A call that is not charged. -/
def uncharged (result : Option Files) (update : Files → System → System) (sys : System) :
    Outcome × System :=
  match result with
  | none => (.failed, sys)
  | some files => (.done, update files { sys with files })

def setattr (path : Path) (size : Option Nat) (result : Option Files) (sys : System) :
    Outcome × System :=
  match size with
  | none => uncharged result (fun _ sys => sys) sys
  | some size => resize budget (sys.sizes.get path) (allocation block size) result sys

def openStream (path : Path) (nfd : Option Nat) (result : Option Files) (sys : System) :
    Outcome × System :=
  uncharged result
    (fun _ sys =>
      match nfd with
      | none => sys
      | some nfd => { sys with descriptors := sys.descriptors.set nfd (sys.sizes.get path) })
    sys

/-- The descriptor of a stream is forgotten with the last stream that shares it. -/
def close (nfd : Nat) (result : Option Files) (sys : System) : Outcome × System :=
  uncharged result
    (fun files sys =>
      if (files.descriptors nfd).isNone then { sys with descriptors := sys.descriptors.delete nfd }
      else sys)
    sys

def write (nfd position length : Nat) (result : Option Files) (sys : System) : Outcome × System :=
  resize budget (sys.descriptors.get nfd).join (allocation block (position + length)) result sys

/-- `unlink` and `rmdir`. -/
def remove (parent : Path) (name : String) (result : Option Files) (sys : System) :
    Outcome × System :=
  uncharged result (fun _ sys => { sys with sizes := sys.sizes.delete (parent ++ [name]) }) sys

/-- The entries at a path and below it are found again under the new path. -/
def movedSizes (origin target : Path) (sizes : JsMap Path Nat) : JsMap Path Nat :=
  let moving := sizes.entries.rows.filter fun entry => origin.isPrefixOf entry.1
  moving.foldl (fun sizes entry => sizes.set (target ++ entry.1.drop origin.length) entry.2)
    (moving.foldl (fun sizes entry => sizes.delete entry.1) sizes)

def rename (origin parent : Path) (name : String) (result : Option Files) (sys : System) :
    Outcome × System :=
  uncharged result
    (fun _ sys => { sys with sizes := movedSizes origin (parent ++ [name]) sys.sizes }) sys

def perform (call : Call) (result : Option Files) (sys : System) : Outcome × System :=
  match call with
  | .mknod parent name directory => mknod block budget parent name directory result sys
  | .setattr path size => setattr block budget path size result sys
  | .open path nfd => openStream path nfd result sys
  | .dup _ => uncharged result (fun _ sys => sys) sys
  | .close nfd => close nfd result sys
  | .write nfd position length => write block budget nfd position length result sys
  | .unlink parent name => remove parent name result sys
  | .rmdir parent name => remove parent name result sys
  | .rename origin parent name => rename origin parent name result sys

/-- A call, where the underlying one succeeds or fails without an effect. -/
inductive Performs : System → Call × Outcome → System → Prop
  | call {sys sys' : System} {call : Call} {outcome : Outcome} (result : Option Files)
      (hresult : ∀ files, result = some files → Does call sys.files files)
      (hperform : perform block budget call result sys = (outcome, sys')) :
      Performs sys (call, outcome) sys'

/-! ### The start -/

/-- The directory that a database is staged in. -/
inductive Tree where
  | file (size : Nat)
  | directory (size : Nat) (children : List (String × Tree))
  | other (size : Nat)

/-- What `lstatSync` says of an entry. -/
inductive Info where
  | file (size : Nat)
  | directory (size : Nat)
  | other (size : Nat)

namespace Info

def size : Info → Nat
  | file size | directory size | other size => size

def regular : Info → Bool
  | file _ | directory _ => true
  | other _ => false

def node : Info → Node
  | file size | other size => .file size
  | directory _ => .directory

end Info

namespace Tree

mutual

/-- The entries that `collect` visits, in their order. -/
def walk (path : Path) : Tree → List (Path × Info)
  | file size => [(path, .file size)]
  | directory size children => (path, .directory size) :: walkAll path children
  | other size => [(path, .other size)]

def walkAll (path : Path) : List (String × Tree) → List (Path × Info)
  | [] => []
  | (name, child) :: children => walk (path ++ [name]) child ++ walkAll path children

end

mutual

/-- The names in a directory are distinct. -/
def Distinct : Tree → Prop
  | file _ | other _ => True
  | directory _ children => (children.map Prod.fst).Nodup ∧ DistinctAll children

def DistinctAll : List (String × Tree) → Prop
  | [] => True
  | (_, child) :: children => Distinct child ∧ DistinctAll children

end

/-- The number of the entry at a path. -/
def number {α : Type} (visited : List (Path × α)) (path : Path) : Option Nat :=
  (visited.zipIdx.find? fun entry => entry.1.1 = path).map Prod.snd

/-- The file system with the directory. -/
def files (tree : Tree) : Files where
  tree := number (tree.walk [])
  nodes := (tree.walk []).map fun entry => entry.2.node
  descriptors _ := none

end Tree

/-- The entries of `collect`, or none where it throws. -/
def collect (tree : Tree) : Option (List (Path × Nat)) :=
  if (tree.walk []).all fun entry => entry.2.regular then
    some ((tree.walk []).map fun entry => (entry.1, allocation block entry.2.size))
  else none

/-- The tables at the start, unless the directory exceeds the budget. -/
def installBudget (tree : Tree) : Option System :=
  match collect block tree with
  | none => none
  | some collected =>
      let sizes := collected.zipIdx.foldl (fun sizes entry => sizes.set entry.1.1 entry.2) JsMap.empty
      let entries := collected.map Prod.snd
      let bytes := (sizes.entries.rows.map fun entry => entries.getD entry.2 0).sum
      if budget.bytes < bytes ∨ budget.files < sizes.size then none
      else
        some
          { files := tree.files, sizes, entries, descriptors := JsMap.empty, bytes
            fileCount := sizes.size }

end

/-! ### What the tables have -/

theorem allocation_mono (block : Nat) {size size' : Nat} (h : size ≤ size') :
    allocation block size ≤ allocation block size' :=
  Nat.add_le_add_right (Nat.mul_le_mul_right _ (Nat.div_le_div_right (by omega))) _

theorem allocation_zero (block : Nat) : allocation block 0 = block := by
  rcases Nat.eq_zero_or_pos block with rfl | hpos
  · rfl
  · rw [allocation, Nat.div_eq_of_lt (by omega), Nat.zero_mul, Nat.zero_add]

/-- What is charged at least for a file; the files before `first` were there at the start. -/
def owed (block first i : Nat) : Node → Nat
  | .file size => allocation block size
  | .directory => if first ≤ i then 2 * block else 0

/-- Both tables have the file that the file system has there. -/
structure Tracks (block : Nat) (budget : DatabaseBudget) (first : Nat) (sys : System) : Prop where
  proper : sys.files.Proper
  sizes : ∀ path, sys.sizes.get path = sys.files.tree path
  descriptors : ∀ nfd, sys.descriptors.get nfd = (sys.files.descriptors nfd).map fun d => some d.1
  length : sys.entries.length = sys.files.nodes.length
  first_le : first ≤ sys.files.nodes.length
  covers : ∀ {i node}, sys.files.nodes[i]? = some node → owed block first i node ≤ sys.entries.getD i 0
  bytes : sys.bytes = sys.entries.sum
  bytes_le : sys.bytes ≤ budget.bytes
  files_le : sys.fileCount ≤ budget.files

section

variable {block first : Nat} {budget : DatabaseBudget} {sys sys' : System} {result : Option Files}
  {outcome : Outcome}

/-- A charge leaves everything as it was, or the underlying call succeeded within the budget. -/
theorem charge_eq {growth inodes : Nat}
    (h : charge budget growth inodes result sys = (outcome, sys')) :
    outcome ≠ .done ∧ outcome ≠ .missing ∧ sys' = sys ∨
      outcome = .done ∧ ∃ files, result = some files ∧ sys.bytes + growth ≤ budget.bytes ∧
        sys.fileCount + inodes ≤ budget.files ∧
        sys' = { sys with
          files, bytes := sys.bytes + growth, fileCount := sys.fileCount + inodes } := by
  unfold charge at h
  split_ifs at h with hover
  · cases h
    exact Or.inl ⟨by decide, by decide, rfl⟩
  · rw [not_or, not_lt, not_lt] at hover
    cases result with
    | none =>
        cases h
        exact Or.inl ⟨by decide, by decide, rfl⟩
    | some files =>
        cases h
        exact Or.inr ⟨rfl, files, rfl, hover.1, hover.2, rfl⟩

theorem resize_eq {ref size : Nat} (h : resize budget (some ref) size result sys = (outcome, sys')) :
    outcome ≠ .done ∧ outcome ≠ .missing ∧ sys' = sys ∨
      outcome = .done ∧ ∃ files, result = some files ∧
        sys.bytes + (max (sys.entries.getD ref 0) size - sys.entries.getD ref 0) ≤ budget.bytes ∧
        sys.fileCount ≤ budget.files ∧
        sys' = { sys with
          files
          bytes := sys.bytes + (max (sys.entries.getD ref 0) size - sys.entries.getD ref 0)
          entries := sys.entries.set ref (max (sys.entries.getD ref 0) size) } := by
  unfold resize at h
  dsimp only at h
  cases hcharge : charge budget (max (sys.entries.getD ref 0) size - sys.entries.getD ref 0) 0 result
    sys with
  | mk charged after =>
      rw [hcharge] at h
      rcases charge_eq hcharge with ⟨hdone, hmissing, rfl⟩ | ⟨rfl, files, hfiles, hbytes, hcount, rfl⟩
      · refine Or.inl ?_
        cases charged with
        | done => exact absurd rfl hdone
        | missing => exact absurd rfl hmissing
        | refused =>
            cases h
            exact ⟨hdone, hmissing, rfl⟩
        | failed =>
            cases h
            exact ⟨hdone, hmissing, rfl⟩
      · cases h
        exact Or.inr ⟨rfl, files, hfiles, hbytes, hcount, rfl⟩

theorem uncharged_eq {update : Files → System → System}
    (h : uncharged result update sys = (outcome, sys')) :
    outcome = .failed ∧ sys' = sys ∨
      outcome = .done ∧ ∃ files, result = some files ∧ sys' = update files { sys with files } := by
  unfold uncharged at h
  cases result with
  | none =>
      cases h
      exact Or.inl ⟨rfl, rfl⟩
  | some files =>
      cases h
      exact Or.inr ⟨rfl, files, rfl, rfl⟩

/-! ### Charges -/

theorem sum_set_getD {l : List Nat} {i a : Nat} (hi : i < l.length) :
    (l.set i a).sum + l.getD i 0 = l.sum + a := by
  induction l generalizing i with
  | nil => exact absurd hi (Nat.not_lt_zero i)
  | cons b l ih =>
      cases i with
      | zero =>
          rw [List.set_cons_zero, List.sum_cons, List.sum_cons, List.getD_cons_zero]
          omega
      | succ i =>
          have hrest := ih (Nat.lt_of_succ_lt_succ hi)
          rw [List.set_cons_succ, List.sum_cons, List.sum_cons, List.getD_cons_succ]
          omega

/-- The entry of a file grows with the file. -/
theorem Tracks.resize (h : Tracks block budget first sys) {files : Files} {ref size charged : Nat}
    (href : ref < sys.entries.length) (hproper : files.Proper)
    (htree : files.tree = sys.files.tree) (hdescriptors : files.descriptors = sys.files.descriptors)
    (hnodes : files.nodes = sys.files.nodes.set ref (.file size))
    (hsize : allocation block size ≤ max (sys.entries.getD ref 0) charged)
    (hbytes : sys.bytes + (max (sys.entries.getD ref 0) charged - sys.entries.getD ref 0) ≤
      budget.bytes) :
    Tracks block budget first { sys with
      files
      bytes := sys.bytes + (max (sys.entries.getD ref 0) charged - sys.entries.getD ref 0)
      entries := sys.entries.set ref (max (sys.entries.getD ref 0) charged) } where
  proper := hproper
  sizes path := by rw [htree, h.sizes]
  descriptors nfd := by rw [hdescriptors, h.descriptors]
  length := by rw [List.length_set, hnodes, List.length_set, h.length]
  first_le := by
    rw [hnodes, List.length_set]
    exact h.first_le
  covers {i node} hnode := by
    rw [hnodes] at hnode
    -- only the resized file has a new size, which its entry covers
    by_cases hi : ref = i
    · subst hi
      rw [List.getElem?_set_self (h.length ▸ href), Option.some.injEq] at hnode
      rw [← hnode, List.getD_eq_getElem?_getD, List.getElem?_set_self href]
      exact hsize
    · rw [List.getElem?_set_ne hi] at hnode
      rw [List.getD_eq_getElem?_getD, List.getElem?_set_ne hi, ← List.getD_eq_getElem?_getD]
      exact h.covers hnode
  bytes := by
    have hsum := @sum_set_getD _ _ (max (sys.entries.getD ref 0) charged) href
    have hbefore := h.bytes
    show sys.bytes + _ = (sys.entries.set ref _).sum
    omega
  bytes_le := hbytes
  files_le := h.files_le

/-- Other tables of the same files. -/
theorem Tracks.other (h : Tracks block budget first sys) {files : Files} {sizes : JsMap Path Nat}
    {descriptors : JsMap Nat (Option Nat)} (hproper : files.Proper)
    (hnodes : files.nodes = sys.files.nodes) (hsizes : ∀ path, sizes.get path = files.tree path)
    (hdescriptors : ∀ nfd, descriptors.get nfd = (files.descriptors nfd).map fun d => some d.1) :
    Tracks block budget first { sys with files, sizes, descriptors } where
  proper := hproper
  sizes := hsizes
  descriptors := hdescriptors
  length := by rw [hnodes, h.length]
  first_le := hnodes ▸ h.first_le
  covers hnode := h.covers (hnodes ▸ hnode)
  bytes := h.bytes
  bytes_le := h.bytes_le
  files_le := h.files_le

/-- A new file has an entry of its own. -/
theorem Tracks.create (h : Tracks block budget first sys) {files : Files} {path : Path}
    {directory : Bool} {size : Nat} (hproper : files.Proper)
    (htree : files.tree = Function.update sys.files.tree path (some sys.files.nodes.length))
    (hdescriptors : files.descriptors = sys.files.descriptors)
    (hnodes : files.nodes = sys.files.nodes ++ [if directory then .directory else .file 0])
    (hsize : size = if directory then 2 * block else block)
    (hbytes : sys.bytes + size ≤ budget.bytes) (hcount : sys.fileCount + 1 ≤ budget.files) :
    Tracks block budget first { sys with
      files
      sizes := sys.sizes.set path sys.entries.length
      entries := sys.entries ++ [size]
      bytes := sys.bytes + size
      fileCount := sys.fileCount + 1 } where
  proper := hproper
  sizes path' := by
    rw [JsMap.get_set, htree, Function.update_apply, h.sizes, h.length]
  descriptors nfd := by rw [hdescriptors, h.descriptors]
  length := by rw [List.length_append, hnodes, List.length_append, h.length, List.length_singleton,
    List.length_singleton]
  first_le := by
    rw [hnodes, List.length_append]
    exact Nat.le_add_right_of_le h.first_le
  covers {i node} hnode := by
    rw [hnodes] at hnode
    rw [List.getD_eq_getElem?_getD]
    -- an older node keeps its entry; the new one is charged for what it is
    rcases Nat.lt_or_ge i sys.files.nodes.length with hi | hi
    · rw [List.getElem?_append_left hi] at hnode
      rw [List.getElem?_append_left (h.length ▸ hi), ← List.getD_eq_getElem?_getD]
      exact h.covers hnode
    · have hfirst := h.first_le.trans hi
      rw [List.getElem?_append_right hi, List.getElem?_singleton,
        Option.ite_none_right_eq_some] at hnode
      obtain ⟨hlast, hnode⟩ := hnode
      rw [List.getElem?_append_right (h.length ▸ hi), h.length, hlast, ← Option.some.inj hnode, hsize]
      cases directory with
      | true => exact (if_pos hfirst).le
      | false => exact (allocation_zero block).le
  bytes := by rw [List.sum_append, List.sum_singleton, h.bytes]
  bytes_le := hbytes
  files_le := hcount

/-! ### Renames -/

/-- The entries that a rename moves. -/
theorem mem_moving {sizes : JsMap Path Nat} {origin : Path} {entry : Path × Nat} :
    entry ∈ sizes.entries.rows.filter (fun entry => origin.isPrefixOf entry.1) ↔
      origin <+: entry.1 ∧ sizes.get entry.1 = some entry.2 := by
  rw [List.mem_filter, List.isPrefixOf_iff_prefix]
  exact ⟨fun h => ⟨h.2, JsMap.get_of_mem h.1⟩, fun h => ⟨JsMap.mem_of_get h.2, h.1⟩⟩

/-- The table after a rename has what the file system has. -/
theorem get_movedSizes {sizes : JsMap Path Nat} {files : Files} {origin target : Path} {i : Nat}
    (hsizes : ∀ path, sizes.get path = files.tree path) (hproper : files.Proper)
    (horigin : files.tree origin = some i) (hreplaces : files.Replaces origin target) (path : Path) :
    (movedSizes origin target sizes).get path = files.moved origin target path := by
  have hkey : ∀ {entry : Path × Nat}, origin <+: entry.1 →
      origin ++ entry.1.drop origin.length = entry.1 :=
    fun hstart => List.prefix_iff_eq_append.mp hstart
  -- distinct origins have distinct targets: what follows the origin tells them apart
  have hnodup : ((sizes.entries.rows.filter fun entry => origin.isPrefixOf entry.1).map fun entry =>
      target ++ entry.1.drop origin.length).Nodup := by
    have hkeys := (List.filter_sublist (p := fun entry : Path × Nat => origin.isPrefixOf entry.1)
      (l := sizes.entries.rows)).map Prod.fst |>.nodup sizes.entries.nodup
    refine List.Nodup.of_map (origin ++ ·.drop target.length) ?_
    rw [List.map_map]
    refine Eq.mpr (congrArg List.Nodup (List.map_congr_left fun entry hentry => ?_)) hkeys
    rw [Function.comp_apply, List.drop_left, hkey (mem_moving.mp hentry).1]
  -- an entry under the origin is found under the target
  have hmoved : ∀ {rest e}, files.tree (origin ++ rest) = some e →
      (movedSizes origin target sizes).get (target ++ rest) = some e := by
    intro rest e hlive
    have hmem : (origin ++ rest, e) ∈ sizes.entries.rows.filter fun entry =>
        origin.isPrefixOf entry.1 :=
      mem_moving.mpr ⟨List.prefix_append origin rest, (hsizes _).trans hlive⟩
    have hget := @JsMap.get_foldl_set_of_mem Path Nat _ _ _ Prod.snd _ hnodup _ hmem
      ((sizes.entries.rows.filter fun entry => origin.isPrefixOf entry.1).foldl
        (fun sizes entry => sizes.delete entry.1) sizes)
    rwa [List.drop_left] at hget
  -- elsewhere the origin is gone, and everything else is as it was
  have hkept : (∀ rest, path = target ++ rest → files.tree (origin ++ rest) = none) →
      (movedSizes origin target sizes).get path =
        if origin <+: path then none else files.tree path := by
    intro hnone
    rw [movedSizes, JsMap.get_foldl_set_of_notMem, JsMap.get_foldl_delete, hsizes]
    · by_cases hstart : origin <+: path
      · rw [if_pos hstart]
        split_ifs with hmem
        · rfl
        · by_contra hlive
          obtain ⟨e, he⟩ := Option.ne_none_iff_exists'.mp hlive
          exact hmem (List.mem_map.mpr ⟨(path, e),
            mem_moving.mpr ⟨hstart, (hsizes path).trans he⟩, rfl⟩)
      · rw [if_neg hstart, if_neg]
        rintro hmem
        obtain ⟨entry, hentry, rfl⟩ := List.mem_map.mp hmem
        exact hstart (mem_moving.mp hentry).1
    · rintro hmem
      obtain ⟨entry, hentry, hpath⟩ := List.mem_map.mp hmem
      obtain ⟨hstart, hget⟩ := mem_moving.mp hentry
      have hdead := hnone _ hpath.symm
      rw [hkey hstart, ← hsizes, hget] at hdead
      cases hdead
  by_cases htarget : target <+: path
  · obtain ⟨rest, rfl⟩ := htarget
    rw [moved_below]
    cases hlive : files.tree (origin ++ rest) with
    | some e => exact hmoved hlive
    | none =>
        rw [hkept fun rest' heq => List.append_cancel_left heq ▸ hlive]
        split_ifs with hstart
        · rfl
        -- below the target only what was moved is live, since the target was replaced
        · by_cases hsame : origin = target
          · exact hsame ▸ hlive
          · refine hproper.below_replaced hreplaces hsame ?_
            rintro rfl
            rw [List.append_nil, horigin] at hlive
            cases hlive
  · rw [hkept fun rest heq => absurd (heq ▸ List.prefix_append target rest) htarget, Files.moved,
      if_neg htarget]

/-! ### Calls -/

theorem Tracks.ref_lt (h : Tracks block budget first sys) {path : Path} {i : Nat}
    (hpath : sys.files.tree path = some i) : i < sys.entries.length :=
  h.length ▸ h.proper.bound hpath

/-- A call that is not charged and changes no file. -/
theorem Tracks.uncharged (h : Tracks block budget first sys) {call : Call}
    {update : Files → System → System} (hresult : ∀ files, result = some files → Does call sys.files files)
    (hrun : uncharged result update sys = (outcome, sys'))
    (hupdate : ∀ files, Does call sys.files files →
      Tracks block budget first (update files { sys with files })) :
    Tracks block budget first sys' ∧ outcome ≠ .missing := by
  rcases uncharged_eq hrun with ⟨rfl, rfl⟩ | ⟨rfl, files, hfiles, rfl⟩
  · exact ⟨h, by decide⟩
  · exact ⟨hupdate files (hresult files hfiles), by decide⟩

/-- A call that extends a file is charged to its entry. -/
theorem Tracks.extend (h : Tracks block budget first sys) {call : Call} {ref charged : Nat}
    (href : ref < sys.entries.length)
    (hresult : ∀ files, result = some files → Does call sys.files files)
    (hrun : Backup.resize budget (some ref) charged result sys = (outcome, sys'))
    (hcall : ∀ files, Does call sys.files files → ∃ size before,
      sys.files.nodes[ref]? = some (.file before) ∧
      files = { sys.files with nodes := sys.files.nodes.set ref (.file size) } ∧
      (allocation block size ≤ charged ∨ size ≤ before)) :
    Tracks block budget first sys' ∧ outcome ≠ .missing := by
  rcases resize_eq hrun with ⟨-, hmissing, rfl⟩ | ⟨rfl, files, hfiles, hbytes, -, rfl⟩
  · exact ⟨h, hmissing⟩
  · have hdoes := hresult files hfiles
    obtain ⟨size, before, hfile, rfl, hsize⟩ := hcall files hdoes
    refine ⟨h.resize href (hdoes.proper h.proper) rfl rfl rfl ?_ hbytes, by decide⟩
    rcases hsize with hsize | hsize
    · exact hsize.trans (le_max_right _ _)
    · exact (allocation_mono block hsize).trans ((h.covers hfile).trans (le_max_left _ _))

/-- A call on a file that is there. -/
def Targets (files : Files) : Call → Prop
  | .setattr path _ => (files.tree path).isSome = true
  | .open path _ => (files.tree path).isSome = true
  | .write nfd _ _ => (files.descriptors nfd).isSome = true
  | .mknod _ _ _ | .dup _ | .close _ | .unlink _ _ | .rmdir _ _ | .rename _ _ _ => True

theorem Tracks.mknod (h : Tracks block budget first sys) {parent : Path} {name : String}
    {directory : Bool}
    (hresult : ∀ files, result = some files → Does (.mknod parent name directory) sys.files files)
    (hrun : Backup.mknod block budget parent name directory result sys = (outcome, sys')) :
    Tracks block budget first sys' ∧ outcome ≠ .missing := by
  unfold Backup.mknod at hrun
  dsimp only at hrun
  cases hcharge : charge budget (if directory then 2 * block else block) 1 result sys with
  | mk charged after =>
      rw [hcharge] at hrun
      rcases charge_eq hcharge with ⟨hdone, hmissing, rfl⟩ | ⟨rfl, files, hfiles, hbytes, hcount, rfl⟩
      · cases charged with
        | done => exact absurd rfl hdone
        | missing => exact absurd rfl hmissing
        | refused =>
            cases hrun
            exact ⟨h, hmissing⟩
        | failed =>
            cases hrun
            exact ⟨h, hmissing⟩
      · cases hrun
        have hdoes := hresult files hfiles
        have hproper := hdoes.proper h.proper
        cases hdoes with
        | mknod _ hparent hnew =>
            exact ⟨h.create hproper rfl rfl rfl rfl hbytes hcount, by decide⟩

/-- A path is removed from the table with its file. -/
theorem Tracks.remove (h : Tracks block budget first sys) {path : Path}
    (hproper : Files.Proper
      { sys.files with tree := Function.update sys.files.tree path none }) :
    Tracks block budget first { sys with
      files := { sys.files with tree := Function.update sys.files.tree path none }
      sizes := sys.sizes.delete path } :=
  h.other hproper rfl
    (fun path' => by
      rw [JsMap.get_delete, h.sizes]
      exact (Function.update_apply ..).symm)
    h.descriptors

/-- A descriptor is opened, shared or closed. -/
theorem Tracks.describe (h : Tracks block budget first sys) {nfd : Nat}
    {descriptor : Option (Nat × Nat)} {descriptors : JsMap Nat (Option Nat)}
    (hproper : Files.Proper
      { sys.files with descriptors := Function.update sys.files.descriptors nfd descriptor })
    (hdescriptors : ∀ nfd', descriptors.get nfd' =
      if nfd' = nfd then descriptor.map fun d => some d.1 else sys.descriptors.get nfd') :
    Tracks block budget first { sys with
      files :=
        { sys.files with descriptors := Function.update sys.files.descriptors nfd descriptor }
      descriptors } :=
  h.other hproper rfl h.sizes fun nfd' => by
    rw [hdescriptors, h.descriptors]
    refine Eq.trans ?_ (congrArg (Option.map _) (Function.update_apply ..).symm)
    split_ifs <;> rfl

/-- Every call keeps the tables. -/
theorem Tracks.setattr (h : Tracks block budget first sys) {path : Path} {size : Option Nat}
    (hresult : ∀ files, result = some files → Does (.setattr path size) sys.files files)
    (hrun : Backup.setattr block budget path size result sys = (outcome, sys')) :
    Tracks block budget first sys' ∧
      ((sys.files.tree path).isSome = true → outcome ≠ .missing) := by
  rw [setattr.eq_def] at hrun
  cases size with
  | none =>
      refine (h.uncharged hresult hrun fun files hdoes => ?_).imp_right fun hne _ => hne
      cases hdoes with
      | setattr hpath => exact h
  | some size =>
      dsimp only at hrun
      cases hpath : sys.files.tree path with
      | none =>
          rw [h.sizes, hpath] at hrun
          cases hrun
          exact ⟨h, fun htarget => by cases htarget⟩
      | some i =>
          rw [h.sizes, hpath] at hrun
          refine (h.extend (h.ref_lt hpath) hresult hrun fun files hdoes => ?_).imp_right
            fun hne _ => hne
          cases hdoes with
          | truncate _ hpath' hfile =>
              rw [hpath, Option.some.injEq] at hpath'
              subst hpath'
              exact ⟨size, _, hfile, rfl, Or.inl le_rfl⟩

theorem Tracks.close (h : Tracks block budget first sys) {nfd : Nat}
    (hresult : ∀ files, result = some files → Does (.close nfd) sys.files files)
    (hrun : Backup.close nfd result sys = (outcome, sys')) :
    Tracks block budget first sys' ∧ outcome ≠ .missing := by
  rw [Backup.close] at hrun
  refine h.uncharged hresult hrun fun files hdoes => ?_
  have hproper := hdoes.proper h.proper
  cases hdoes with
  | @close _ _ i streams hnfd =>
      dsimp only
      by_cases hzero : streams = 0
      · -- the last stream: the descriptor goes
        rw [if_pos]
        · refine h.describe hproper fun nfd' => ?_
          rw [JsMap.get_delete, if_pos hzero]
          rfl
        · rw [Function.update_self, if_pos hzero]
          rfl
      · rw [if_neg]
        · refine h.describe hproper fun nfd' => ?_
          rw [if_neg hzero]
          split_ifs with hsame
          · rw [hsame, h.descriptors, hnfd]
            rfl
          · rfl
        · rw [Function.update_self, if_neg hzero]
          exact Bool.false_ne_true

theorem Tracks.write (h : Tracks block budget first sys) {nfd position length : Nat}
    (hresult : ∀ files, result = some files → Does (.write nfd position length) sys.files files)
    (hrun : Backup.write block budget nfd position length result sys = (outcome, sys')) :
    Tracks block budget first sys' ∧
      ((sys.files.descriptors nfd).isSome = true → outcome ≠ .missing) := by
  rw [Backup.write] at hrun
  cases hnfd : sys.files.descriptors nfd with
  | none =>
      rw [h.descriptors, hnfd] at hrun
      cases hrun
      exact ⟨h, fun htarget => by cases htarget⟩
  | some descriptor =>
      rw [h.descriptors, hnfd] at hrun
      have href : descriptor.1 < sys.entries.length := h.length ▸ (h.proper.descriptor hnfd).1
      refine (h.extend href hresult hrun fun files hdoes => ?_).imp_right fun hne _ => hne
      cases hdoes with
      | write written hnfd' hfile hwritten =>
          rw [hnfd, Option.some.injEq] at hnfd'
          subst hnfd'
          refine ⟨_, _, hfile, rfl, ?_⟩
          -- fewer bytes may be written than were charged for
          split_ifs with hzero
          · exact Or.inr le_rfl
          · rcases le_total _ (position + written) with hle | hle
            · rw [max_eq_right hle]
              exact Or.inl (allocation_mono block (Nat.add_le_add_left hwritten position))
            · rw [max_eq_left hle]
              exact Or.inr le_rfl

theorem Tracks.performs (h : Tracks block budget first sys) {call : Call}
    (hcall : Performs block budget sys (call, outcome) sys') :
    Tracks block budget first sys' ∧ (Targets sys.files call → outcome ≠ .missing) := by
  obtain ⟨result, hresult, hperform⟩ := hcall
  -- only `setattr` of an unlinked path finds no entry
  cases call with
  | mknod parent name directory => exact (h.mknod hresult hperform).imp_right fun hne _ => hne
  | setattr path size => exact h.setattr hresult hperform
  | «open» path nfd =>
      rw [perform, openStream] at hperform
      refine (h.uncharged hresult hperform fun files hdoes => ?_).imp_right fun hne _ => hne
      have hproper := hdoes.proper h.proper
      cases hdoes with
      | «open» hpath hnfd =>
          refine h.describe hproper fun nfd' => ?_
          rw [JsMap.get_set, h.sizes, hpath]
          rfl
      | openDirectory hpath => exact h
  | dup nfd =>
      rw [perform] at hperform
      refine (h.uncharged hresult hperform fun files hdoes => ?_).imp_right fun hne _ => hne
      have hproper := hdoes.proper h.proper
      cases hdoes with
      | dup hnfd =>
          refine h.describe hproper fun nfd' => ?_
          split_ifs with hsame
          · rw [hsame, h.descriptors, hnfd]
            rfl
          · rfl
  | close nfd => exact (h.close hresult hperform).imp_right fun hne _ => hne
  | write nfd position length => exact h.write hresult hperform
  | unlink parent name =>
      rw [perform, Backup.remove] at hperform
      refine (h.uncharged hresult hperform fun files hdoes => ?_).imp_right fun hne _ => hne
      have hproper := hdoes.proper h.proper
      cases hdoes with
      | unlink hpath hfile => exact h.remove hproper
  | rmdir parent name =>
      rw [perform, Backup.remove] at hperform
      refine (h.uncharged hresult hperform fun files hdoes => ?_).imp_right fun hne _ => hne
      have hproper := hdoes.proper h.proper
      cases hdoes with
      | rmdir hpath hbare => exact h.remove hproper
  | rename origin parent name =>
      rw [perform, Backup.rename] at hperform
      refine (h.uncharged hresult hperform fun files hdoes => ?_).imp_right fun hne _ => hne
      have hproper := hdoes.proper h.proper
      cases hdoes with
      | rename horigin hparent hinside hreplaces =>
          exact h.other hproper rfl (get_movedSizes h.sizes h.proper horigin hreplaces) h.descriptors

end

/-! ### The tables at the start -/

namespace Tree

mutual

theorem prefix_of_mem_walk (path : Path) (tree : Tree) {entry : Path × Info}
    (h : entry ∈ walk path tree) : path <+: entry.1 := by
  cases tree with
  | file size =>
      rw [walk, List.mem_singleton] at h
      rw [h]
  | other size =>
      rw [walk, List.mem_singleton] at h
      rw [h]
  | directory size children =>
      rw [walk, List.mem_cons] at h
      rcases h with rfl | h
      · exact List.prefix_rfl
      · obtain ⟨name, -, hname⟩ := prefix_of_mem_walkAll path children h
        exact (List.prefix_append path [name]).trans hname

theorem prefix_of_mem_walkAll (path : Path) (children : List (String × Tree)) {entry : Path × Info}
    (h : entry ∈ walkAll path children) :
    ∃ name ∈ children.map Prod.fst, path ++ [name] <+: entry.1 := by
  cases children with
  | nil => exact absurd h List.not_mem_nil
  | cons first children =>
      obtain ⟨name, child⟩ := first
      rw [walkAll, List.mem_append] at h
      rcases h with h | h
      · exact ⟨name, List.mem_cons_self, prefix_of_mem_walk _ child h⟩
      · obtain ⟨other, hother, hname⟩ := prefix_of_mem_walkAll path children h
        exact ⟨other, List.mem_cons_of_mem _ hother, hname⟩

end

mutual

theorem nodup_walk (path : Path) (tree : Tree) (h : tree.Distinct) :
    ((walk path tree).map Prod.fst).Nodup := by
  cases tree with
  | file size => exact List.nodup_singleton _
  | other size => exact List.nodup_singleton _
  | directory size children =>
      rw [Distinct] at h
      rw [walk, List.map_cons, List.nodup_cons]
      refine ⟨fun hmem => ?_, nodup_walkAll path children h.1 h.2⟩
      obtain ⟨entry, hentry, hpath⟩ := List.mem_map.mp hmem
      obtain ⟨name, -, hname⟩ := prefix_of_mem_walkAll path children hentry
      have hpath' : entry.1 = path := hpath
      have hlength := hname.length_le
      rw [hpath', List.length_append, List.length_singleton] at hlength
      omega

theorem nodup_walkAll (path : Path) (children : List (String × Tree))
    (hnames : (children.map Prod.fst).Nodup) (h : DistinctAll children) :
    ((walkAll path children).map Prod.fst).Nodup := by
  cases children with
  | nil => exact List.nodup_nil
  | cons first children =>
      obtain ⟨name, child⟩ := first
      rw [DistinctAll] at h
      rw [List.map_cons, List.nodup_cons] at hnames
      rw [walkAll, List.map_append, List.nodup_append]
      refine ⟨nodup_walk _ child h.1, nodup_walkAll path children hnames.2 h.2, ?_⟩
      intro first hfirst other hother heq
      obtain ⟨entry, hentry, rfl⟩ := List.mem_map.mp hfirst
      obtain ⟨entry', hentry', rfl⟩ := List.mem_map.mp hother
      have hname := prefix_of_mem_walk _ child hentry
      obtain ⟨name', hmem, hname'⟩ := prefix_of_mem_walkAll path children hentry'
      rw [heq] at hname
      have hsame := List.prefix_of_prefix_length_le hname hname' (by
        rw [List.length_append, List.length_append]
        exact le_rfl)
      obtain ⟨-, hlast⟩ := List.append_inj' (hsame.eq_of_length (by
        rw [List.length_append, List.length_append]
        rfl)) rfl
      exact hnames.1 (List.singleton_inj.mp hlast ▸ hmem)

end

mutual

theorem parent_of_mem_walk (path : Path) (tree : Tree) {parent : Path} {name : String} {info : Info}
    (h : (parent ++ [name], info) ∈ walk path tree) :
    parent ++ [name] = path ∨ ∃ size, (parent, Info.directory size) ∈ walk path tree := by
  cases tree with
  | file size =>
      rw [walk, List.mem_singleton] at h
      exact Or.inl (Prod.mk.inj h).1
  | other size =>
      rw [walk, List.mem_singleton] at h
      exact Or.inl (Prod.mk.inj h).1
  | directory size children =>
      rw [walk, List.mem_cons] at h
      rcases h with h | h
      · exact Or.inl (Prod.mk.inj h).1
      · refine Or.inr ?_
        rw [walk]
        rcases parent_of_mem_walkAll path children h with rfl | ⟨size', hsize⟩
        · exact ⟨size, List.mem_cons_self⟩
        · exact ⟨size', List.mem_cons_of_mem _ hsize⟩

theorem parent_of_mem_walkAll (path : Path) (children : List (String × Tree)) {parent : Path}
    {name : String} {info : Info} (h : (parent ++ [name], info) ∈ walkAll path children) :
    parent = path ∨ ∃ size, (parent, Info.directory size) ∈ walkAll path children := by
  cases children with
  | nil => exact absurd h List.not_mem_nil
  | cons first children =>
      obtain ⟨other, child⟩ := first
      rw [walkAll, List.mem_append] at h
      rw [walkAll]
      rcases h with h | h
      · rcases parent_of_mem_walk _ child h with heq | ⟨size, hsize⟩
        · exact Or.inl (List.append_inj' heq rfl).1
        · exact Or.inr ⟨size, List.mem_append_left _ hsize⟩
      · rcases parent_of_mem_walkAll path children h with rfl | ⟨size, hsize⟩
        · exact Or.inl rfl
        · exact Or.inr ⟨size, List.mem_append_right _ hsize⟩

end

section

variable {α β : Type} {visited : List (Path × α)} {path : Path} {i : Nat}

theorem getElem?_of_number (h : number visited path = some i) :
    ∃ a, visited[i]? = some (path, a) := by
  obtain ⟨⟨⟨path', a⟩, j⟩, hfind, rfl⟩ := Option.map_eq_some_iff.mp h
  have hpath := List.find?_some hfind
  rw [decide_eq_true_eq] at hpath
  obtain rfl := hpath
  exact ⟨a, List.mem_zipIdx_iff_getElem?.mp (List.mem_of_find?_eq_some hfind)⟩

theorem number_of_getElem? (hnodup : (visited.map Prod.fst).Nodup) {a : α}
    (h : visited[i]? = some (path, a)) : number visited path = some i := by
  have hmem : ((path, a), i) ∈ visited.zipIdx := List.mem_zipIdx_iff_getElem?.mpr h
  cases hnumber : number visited path with
  | none =>
      have hnone := List.find?_eq_none.mp (Option.map_eq_none_iff.mp hnumber) _ hmem
      exact absurd (decide_eq_true rfl) hnone
  | some j =>
      obtain ⟨b, hb⟩ := getElem?_of_number hnumber
      have hpaths : ∀ {k c}, visited[k]? = some (path, c) →
          ∃ hk : k < (visited.map Prod.fst).length, (visited.map Prod.fst)[k] = path := by
        intro k c hk
        obtain ⟨hlt, hget⟩ := List.getElem?_eq_some_iff.mp hk
        refine ⟨by rwa [List.length_map], ?_⟩
        rw [List.getElem_map, hget]
      obtain ⟨hi, hpi⟩ := hpaths h
      obtain ⟨hj, hpj⟩ := hpaths hb
      rw [hnodup.getElem_inj_iff.mp (hpj.trans hpi.symm)]

end

theorem number_map (f : α → β) (visited : List (Path × α)) (path : Path) :
    number (visited.map fun entry => (entry.1, f entry.2)) path = number visited path := by
  rw [number, List.zipIdx_map, List.find?_map, Option.map_map, number]
  rfl

/-- The files of a directory are a proper tree. -/
theorem files_proper (tree : Tree) (h : tree.Distinct) : tree.files.Proper where
  bound {path i} hpath := by
    obtain ⟨info, hinfo⟩ := getElem?_of_number hpath
    show i < ((tree.walk []).map _).length
    rw [List.length_map]
    exact (List.getElem?_eq_some_iff.mp hinfo).1
  inj {path path' i} hpath hpath' := by
    obtain ⟨info, hinfo⟩ := getElem?_of_number hpath
    obtain ⟨info', hinfo'⟩ := getElem?_of_number hpath'
    rw [hinfo] at hinfo'
    exact (Prod.mk.inj (Option.some.inj hinfo')).1
  parent {path name i} hpath := by
    obtain ⟨info, hinfo⟩ := getElem?_of_number hpath
    rcases parent_of_mem_walk [] tree (List.mem_of_getElem? hinfo) with hnil | ⟨size, hsize⟩
    · exact absurd hnil (List.append_ne_nil_of_right_ne_nil _ (List.cons_ne_nil _ _))
    · obtain ⟨j, hj⟩ := List.mem_iff_getElem?.mp hsize
      refine ⟨j, number_of_getElem? (nodup_walk [] tree h) hj, ?_⟩
      show ((tree.walk []).map _)[j]? = _
      rw [List.getElem?_map, hj]
      rfl
  descriptor hnfd := nomatch hnfd

end Tree

/-- The rows of the table at the start. -/
theorem rows_collected {collected : List (Path × Nat)} (h : (collected.map Prod.fst).Nodup) :
    (collected.zipIdx.foldl (fun sizes entry => sizes.set entry.1.1 entry.2)
      (JsMap.empty : JsMap Path Nat)).entries.rows =
      collected.zipIdx.map fun entry => (entry.1.1, entry.2) := by
  have hkeys : (collected.zipIdx.map fun entry => entry.1.1) = collected.map Prod.fst := by
    conv_rhs => rw [← List.zipIdx_map_fst 0 collected]
    rw [List.map_map]
    rfl
  rw [JsMap.rows_foldl_set (hkeys ▸ h) fun _ _ => rfl]
  rfl

theorem get_collected {collected : List (Path × Nat)} (h : (collected.map Prod.fst).Nodup)
    (path : Path) :
    (collected.zipIdx.foldl (fun sizes entry => sizes.set entry.1.1 entry.2)
      (JsMap.empty : JsMap Path Nat)).get path = Tree.number collected path := by
  rw [JsMap.get, Table.get?, rows_collected h, List.find?_map, Option.map_map, Tree.number]
  rfl

theorem sum_collected (collected : List (Path × Nat)) :
    ((collected.zipIdx.map fun entry => (entry.1.1, entry.2)).map fun entry =>
      (collected.map Prod.snd).getD entry.2 0).sum = (collected.map Prod.snd).sum := by
  congr 1
  rw [List.map_map]
  refine List.ext_getElem (by simp) fun i hi hi' => ?_
  rw [List.getElem_map, List.getElem_zipIdx, List.getElem_map]
  simp only [Function.comp_apply, Nat.zero_add]
  rw [List.getD_eq_getElem?_getD, List.getElem?_eq_getElem hi', Option.getD_some, List.getElem_map]

theorem installBudget_tracks {block : Nat} {budget : DatabaseBudget} {tree : Tree} {sys : System}
    (hdistinct : tree.Distinct) (h : installBudget block budget tree = some sys) :
    Tracks block budget (tree.walk []).length sys := by
  have hnodup : (((tree.walk []).map fun entry =>
      (entry.1, allocation block entry.2.size)).map Prod.fst).Nodup := by
    rw [List.map_map]
    exact Tree.nodup_walk [] tree hdistinct
  unfold installBudget collect at h
  split_ifs at h with hregular
  dsimp only at h
  split_ifs at h with hover
  rw [not_or, not_lt, not_lt] at hover
  obtain rfl := Option.some.inj h
  refine ⟨Tree.files_proper tree hdistinct, fun path => ?_, fun nfd => rfl, ?_, ?_, ?_, ?_, hover.1,
    hover.2⟩
  · exact (get_collected hnodup path).trans
      (Tree.number_map (fun info : Info => allocation block info.size) (tree.walk []) path)
  · show (((tree.walk []).map _).map _).length = ((tree.walk []).map _).length
    rw [List.length_map, List.length_map, List.length_map]
  · show _ ≤ ((tree.walk []).map _).length
    rw [List.length_map]
  · intro i node hnode
    replace hnode : ((tree.walk []).map fun entry => entry.2.node)[i]? = some node := hnode
    rw [List.getElem?_map, Option.map_eq_some_iff] at hnode
    obtain ⟨⟨path, info⟩, hentry, rfl⟩ := hnode
    have hlt := (List.getElem?_eq_some_iff.mp hentry).1
    rw [List.getD_eq_getElem?_getD, List.getElem?_map, List.getElem?_map, hentry]
    cases info with
    | file size => exact le_rfl
    | other size => exact le_rfl
    | directory size => exact (if_neg (not_le.mpr hlt)).le.trans (Nat.zero_le _)
  · show ((JsMap.entries _).rows.map _).sum = _
    rw [rows_collected hnodup, sum_collected]

/-! ### The budget -/

/-- The files at a path or behind a descriptor. -/
def Live (files : Files) (i : Nat) : Prop :=
  (∃ path, files.tree path = some i) ∨ ∃ nfd streams, files.descriptors nfd = some (i, streams)

/-- What a regular file takes. -/
def fileBytes (block : Nat) (files : Files) (i : Nat) : Nat :=
  match files.nodes[i]? with
  | some (.file size) => allocation block size
  | _ => 0

open Classical in
/-- The sum over the live regular files. -/
noncomputable def liveBytes (block : Nat) (files : Files) : Nat :=
  ∑ i ∈ (Finset.range files.nodes.length).filter (Live files), fileBytes block files i

open Classical in
/-- The number of directories that were created after the start. -/
noncomputable def createdDirectories (first : Nat) (files : Files) : Nat :=
  ((Finset.range files.nodes.length).filter fun i =>
    first ≤ i ∧ files.nodes[i]? = some .directory).card

theorem sum_getD (l : List Nat) : ∑ i ∈ Finset.range l.length, l.getD i 0 = l.sum := by
  induction l with
  | nil => rfl
  | cons a l ih =>
      rw [List.length_cons, Finset.sum_range_succ', List.getD_cons_zero, List.sum_cons, ← ih,
        Nat.add_comm]
      simp only [List.getD_cons_succ]

theorem Tracks.charged {block first : Nat} {budget : DatabaseBudget} {sys : System}
    (h : Tracks block budget first sys) :
    liveBytes block sys.files + 2 * block * createdDirectories first sys.files ≤ sys.bytes := by
  classical
  have hsum : ∑ i ∈ Finset.range sys.files.nodes.length, fileBytes block sys.files i +
      ∑ i ∈ Finset.range sys.files.nodes.length,
        (if first ≤ i ∧ sys.files.nodes[i]? = some .directory then 2 * block else 0) ≤ sys.bytes := by
    rw [h.bytes, ← sum_getD, h.length, ← Finset.sum_add_distrib]
    refine Finset.sum_le_sum fun i hi => ?_
    obtain ⟨node, hnode⟩ : ∃ node, sys.files.nodes[i]? = some node :=
      ⟨_, List.getElem?_eq_getElem (Finset.mem_range.mp hi)⟩
    have hcovers := h.covers hnode
    rw [fileBytes, hnode]
    cases node with
    | file size => simpa [owed] using hcovers
    | directory => simpa [owed] using hcovers
  have hlive : liveBytes block sys.files ≤
      ∑ i ∈ Finset.range sys.files.nodes.length, fileBytes block sys.files i :=
    Finset.sum_le_sum_of_subset (Finset.filter_subset _ _)
  have hdirectories : 2 * block * createdDirectories first sys.files =
      ∑ i ∈ Finset.range sys.files.nodes.length,
        (if first ≤ i ∧ sys.files.nodes[i]? = some .directory then 2 * block else 0) := by
    rw [createdDirectories, ← Finset.sum_filter, Finset.sum_const_nat fun _ _ => rfl, mul_comm]
  omega

/-- What the tables promise while the filesystem is used. -/
structure Bounded (block : Nat) (budget : DatabaseBudget) (first : Nat) (sys : System) : Prop where
  bytes_le : sys.bytes ≤ budget.bytes
  files_le : sys.fileCount ≤ budget.files
  charged : liveBytes block sys.files + 2 * block * createdDirectories first sys.files ≤ sys.bytes
  /-- Every live path has an entry. -/
  entry : ∀ {path}, (sys.files.tree path).isSome = true → ∃ ref < sys.entries.length,
    sys.sizes.get path = some ref
  /-- No other live path has this entry. -/
  own : ∀ {path path' ref}, (sys.files.tree path).isSome = true →
    (sys.files.tree path').isSome = true → sys.sizes.get path = some ref →
    sys.sizes.get path' = some ref → path = path'
  /-- Every open descriptor has an entry. -/
  described : ∀ {nfd}, (sys.files.descriptors nfd).isSome = true → ∃ ref < sys.entries.length,
    sys.descriptors.get nfd = some (some ref)
  /-- No call on a file that is there misses its entry. -/
  found : ∀ {call outcome sys'}, Performs block budget sys (call, outcome) sys' →
    Targets sys.files call → outcome ≠ .missing

theorem Tracks.bounded {block first : Nat} {budget : DatabaseBudget} {sys : System}
    (h : Tracks block budget first sys) : Bounded block budget first sys where
  bytes_le := h.bytes_le
  files_le := h.files_le
  charged := h.charged
  entry {path} hlive := by
    obtain ⟨ref, href⟩ := Option.isSome_iff_exists.mp hlive
    exact ⟨ref, h.ref_lt href, (h.sizes path).trans href⟩
  own _ _ href href' := h.proper.inj ((h.sizes _).symm.trans href) ((h.sizes _).symm.trans href')
  described {nfd} hopen := by
    obtain ⟨descriptor, hdescriptor⟩ := Option.isSome_iff_exists.mp hopen
    refine ⟨descriptor.1, h.length ▸ (h.proper.descriptor hdescriptor).1, ?_⟩
    rw [h.descriptors, hdescriptor]
    rfl
  found hcall htarget := (h.performs hcall).2 htarget

/-- The filesystem keeps to its budget in every run of calls. -/
theorem installBudget_bounds {block : Nat} {budget : DatabaseBudget} {tree : Tree} {sys sys' : System}
    {calls : List (Call × Outcome)} (hdistinct : tree.Distinct)
    (hstart : installBudget block budget tree = some sys)
    (hrun : Run (Performs block budget) sys calls sys') :
    Bounded block budget (tree.walk []).length sys' := by
  have htracks : Tracks block budget (tree.walk []).length sys' := by
    refine hrun.invariant (fun {_ label _} hcall h => ?_) (installBudget_tracks hdistinct hstart)
    obtain ⟨call, outcome⟩ := label
    exact (h.performs hcall).1
  exact htracks.bounded

/-! ### A file that is removed while it is open -/

/-- An empty directory of one block. -/
def staged : System where
  files := Tree.files (.directory 0 [])
  sizes := JsMap.empty.set [] 0
  entries := [4]
  descriptors := JsMap.empty
  bytes := 4
  fileCount := 1

def createdFiles : Files :=
  { staged.files with
    tree := Function.update staged.files.tree ["wal"] (some 1)
    nodes := [.directory, .file 0] }

def openedFiles : Files :=
  { createdFiles with
    descriptors := Function.update createdFiles.descriptors 3 (some (1, 1)) }

def removedFiles : Files :=
  { openedFiles with tree := Function.update openedFiles.tree ["wal"] none }

def writtenFiles : Files := { removedFiles with nodes := [.directory, .file 5] }

/-- After the file was created, opened and removed. -/
def removed : System where
  files := removedFiles
  sizes := ((JsMap.empty.set [] 0).set ["wal"] 1).delete ["wal"]
  entries := [4, 4]
  descriptors := JsMap.empty.set 3 (some 1)
  bytes := 8
  fileCount := 2

theorem removed_run : Run (Performs 4 ⟨100, 10⟩) staged
    [(.mknod [] "wal" false, .done), (.open ["wal"] (some 3), .done), (.unlink [] "wal", .done)]
    removed := by
  have hcreate : Does (.mknod [] "wal" false) staged.files createdFiles :=
    .mknod false ⟨0, rfl, rfl⟩ rfl
  have hopen : Does (.open ["wal"] (some 3)) createdFiles openedFiles := .open rfl rfl
  have hremove : Does (.unlink [] "wal") openedFiles removedFiles :=
    @Does.unlink openedFiles [] "wal" 1 0 rfl rfl
  exact .cons (.call (some createdFiles) (fun _ heq => Option.some.inj heq ▸ hcreate) rfl)
    (.cons (.call (some openedFiles) (fun _ heq => Option.some.inj heq ▸ hopen) rfl)
      (.single (.call (some removedFiles) (fun _ heq => Option.some.inj heq ▸ hremove) rfl)))

/-- A file is written to after it was removed: its bytes stay charged. -/
theorem installBudget_bounds_removed : ∃ sys',
    Run (Performs 4 ⟨100, 10⟩) staged
      [(.mknod [] "wal" false, .done), (.open ["wal"] (some 3), .done), (.unlink [] "wal", .done),
        (.write 3 0 5, .done)] sys' ∧
      sys'.bytes = 16 ∧ Bounded 4 ⟨100, 10⟩ 1 sys' := by
  have hwrite : Does (.write 3 0 5) removedFiles writtenFiles :=
    @Does.write removedFiles 3 1 1 0 0 5 5 rfl rfl le_rfl
  have hrun : ∃ sys', Run (Performs 4 ⟨100, 10⟩) staged
      [(.mknod [] "wal" false, .done), (.open ["wal"] (some 3), .done), (.unlink [] "wal", .done),
        (.write 3 0 5, .done)] sys' ∧ sys'.bytes = 16 :=
    ⟨_, removed_run.append
      (.single (.call (some writtenFiles) (fun _ heq => Option.some.inj heq ▸ hwrite) rfl)), rfl⟩
  obtain ⟨sys', hrun, hbytes⟩ := hrun
  have hdistinct : Tree.Distinct (.directory 0 []) := ⟨List.nodup_nil, trivial⟩
  exact ⟨sys', hrun, hbytes, installBudget_bounds hdistinct rfl hrun⟩

/-- The file is truncated through its descriptor after it was removed: `setattr`
looks for the entry under the path of the node, where there is none. -/
theorem installBudget_misses :
    ¬∀ {block : Nat} {budget : DatabaseBudget} {tree : Tree} {sys sys' sys'' : System}
        {calls : List (Call × Outcome)} {path : Path} {nfd : Nat} {size : Option Nat}
        {outcome : Outcome},
      tree.Distinct → installBudget block budget tree = some sys →
      Run (Performs block budget) sys calls sys' → (.open path (some nfd), .done) ∈ calls →
      (sys'.files.descriptors nfd).isSome = true →
      Performs block budget sys' (.setattr path size, outcome) sys'' → outcome ≠ .missing := by
  intro h
  have hdistinct : Tree.Distinct (.directory 0 []) := ⟨List.nodup_nil, trivial⟩
  have hmissing : Performs 4 ⟨100, 10⟩ removed (.setattr ["wal"] (some 5), .missing) removed :=
    .call none (fun _ heq => (by cases heq)) rfl
  exact h hdistinct (rfl : installBudget 4 ⟨100, 10⟩ (.directory 0 []) = some staged) removed_run
    (List.mem_cons_of_mem _ List.mem_cons_self) rfl hmissing rfl

end PocketCoder.Backup
