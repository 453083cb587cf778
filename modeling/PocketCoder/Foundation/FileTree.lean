import Mathlib.Data.List.Basic
import Mathlib.Data.List.Induction
import Mathlib.Logic.Function.Basic

/-!
A tree of regular files and directories with open descriptors, and the calls of
POSIX that change it.

A path is the list of its names below the root, so the paths below a directory are
those with its path as a prefix. Files are numbered in the order of their creation,
and a number is not used again. `Does` says what each call does where it succeeds.
A tree stays `Proper`: every path has its own file, and the path above it is a
directory (`Does.proper`).
-/

namespace PocketCoder.Foundation.FileTree

abbrev Path := List String

inductive Node where
  | file (size : Nat)
  | directory
  deriving DecidableEq

structure Files where
  /-- The number of the file at a path. -/
  tree : Path → Option Nat
  /-- Every file that was created, also after it was removed. -/
  nodes : List Node
  /-- The file of an open descriptor, and how many streams share it. -/
  descriptors : Nat → Option (Nat × Nat)

inductive Call where
  | mknod (parent : Path) (name : String) (directory : Bool)
  | setattr (path : Path) (size : Option Nat)
  /-- A descriptor is opened, or none where the file is a directory. -/
  | «open» (path : Path) (nfd : Option Nat)
  | dup (nfd : Nat)
  | close (nfd : Nat)
  | write (nfd position length : Nat)
  | unlink (parent : Path) (name : String)
  | rmdir (parent : Path) (name : String)
  | rename (origin parent : Path) (name : String)

namespace Files

def IsDirectory (files : Files) (path : Path) : Prop :=
  ∃ i, files.tree path = some i ∧ files.nodes[i]? = some .directory

/-- A directory has no entries. -/
def Bare (files : Files) (path : Path) : Prop := ∀ name, files.tree (path ++ [name]) = none

/-- The tree after a rename. -/
def moved (files : Files) (origin target path : Path) : Option Nat :=
  if target <+: path then files.tree (origin ++ path.drop target.length)
  else if origin <+: path then none
  else files.tree path

/-- What a rename may replace: nothing, a file by a file, or a bare directory by a directory. -/
def Replaces (files : Files) (origin target : Path) : Prop :=
  ∀ j, files.tree target = some j → origin = target ∨
    (∃ size, files.nodes[j]? = some (.file size)) ∨
    files.nodes[j]? = some .directory ∧ files.Bare target

end Files

/-- A call succeeds. -/
inductive Does : Call → Files → Files → Prop
  | mknod {files : Files} {parent : Path} {name : String} (directory : Bool)
      (hparent : files.IsDirectory parent) (hnew : files.tree (parent ++ [name]) = none) :
      Does (.mknod parent name directory) files
        { files with
          tree := Function.update files.tree (parent ++ [name]) (some files.nodes.length)
          nodes := files.nodes ++ [if directory then .directory else .file 0] }
  | truncate {files : Files} {path : Path} {i before : Nat} (size : Nat)
      (hpath : files.tree path = some i) (hfile : files.nodes[i]? = some (.file before)) :
      Does (.setattr path (some size)) files
        { files with nodes := files.nodes.set i (.file size) }
  | setattr {files : Files} {path : Path} {i : Nat} (hpath : files.tree path = some i) :
      Does (.setattr path none) files files
  | open {files : Files} {path : Path} {i nfd : Nat} (hpath : files.tree path = some i)
      (hnfd : files.descriptors nfd = none) :
      Does (.open path (some nfd)) files
        { files with descriptors := Function.update files.descriptors nfd (some (i, 1)) }
  | openDirectory {files : Files} {path : Path} (hpath : files.IsDirectory path) :
      Does (.open path none) files files
  | dup {files : Files} {nfd i streams : Nat} (hnfd : files.descriptors nfd = some (i, streams)) :
      Does (.dup nfd) files
        { files with
          descriptors := Function.update files.descriptors nfd (some (i, streams + 1)) }
  | close {files : Files} {nfd i streams : Nat}
      (hnfd : files.descriptors nfd = some (i, streams + 1)) :
      Does (.close nfd) files
        { files with
          descriptors := Function.update files.descriptors nfd
            (if streams = 0 then none else some (i, streams)) }
  | write {files : Files} {nfd i streams size position length : Nat} (written : Nat)
      (hnfd : files.descriptors nfd = some (i, streams))
      (hfile : files.nodes[i]? = some (.file size)) (hwritten : written ≤ length) :
      Does (.write nfd position length) files
        { files with
          nodes := files.nodes.set i
            (.file (if written = 0 then size else max size (position + written))) }
  | unlink {files : Files} {parent : Path} {name : String} {i size : Nat}
      (hpath : files.tree (parent ++ [name]) = some i)
      (hfile : files.nodes[i]? = some (.file size)) :
      Does (.unlink parent name) files
        { files with tree := Function.update files.tree (parent ++ [name]) none }
  | rmdir {files : Files} {parent : Path} {name : String}
      (hpath : files.IsDirectory (parent ++ [name])) (hbare : files.Bare (parent ++ [name])) :
      Does (.rmdir parent name) files
        { files with tree := Function.update files.tree (parent ++ [name]) none }
  | rename {files : Files} {origin parent : Path} {name : String} {i : Nat}
      (horigin : files.tree origin = some i) (hparent : files.IsDirectory parent)
      (hinside : origin <+: parent ++ [name] → origin = parent ++ [name])
      (hreplaces : files.Replaces origin (parent ++ [name])) :
      Does (.rename origin parent name) files
        { files with tree := files.moved origin (parent ++ [name]) }

/-! ### Proper trees -/

/-- Every path has its own file, below a directory, and open descriptors have a file. -/
structure Files.Proper (files : Files) : Prop where
  bound : ∀ {path i}, files.tree path = some i → i < files.nodes.length
  inj : ∀ {path path' i}, files.tree path = some i → files.tree path' = some i → path = path'
  parent : ∀ {path name i}, files.tree (path ++ [name]) = some i → files.IsDirectory path
  descriptor : ∀ {nfd i streams}, files.descriptors nfd = some (i, streams) →
    i < files.nodes.length ∧ 0 < streams

section

variable {files files' : Files} {path : Path} {name : String} {rest : Path} {i : Nat}

/-- What is below a path is below a directory with an entry. -/
theorem Files.Proper.above (h : files.Proper) (hrest : rest ≠ [])
    (hlive : (files.tree (path ++ rest)).isSome = true) :
    files.IsDirectory path ∧ ¬files.Bare path := by
  induction rest using List.reverseRecOn with
  | nil => exact absurd rfl hrest
  | append_singleton rest name ih =>
      obtain ⟨i, hi⟩ := Option.isSome_iff_exists.mp hlive
      rw [← List.append_assoc] at hi
      by_cases hnil : rest = []
      · rw [hnil, List.append_nil] at hi
        exact ⟨h.parent hi, fun hbare => by rw [hbare name] at hi; cases hi⟩
      · obtain ⟨j, hj, -⟩ := h.parent hi
        exact ih hnil (Option.isSome_iff_exists.mpr ⟨j, hj⟩)

/-- Nothing is below what a rename may replace. -/
theorem Files.Proper.below_replaced (h : files.Proper) {origin target : Path}
    (hreplaces : files.Replaces origin target) (hother : origin ≠ target) (hrest : rest ≠ []) :
    files.tree (target ++ rest) = none := by
  by_contra hlive
  obtain ⟨⟨j, hj, hdirectory⟩, hbare⟩ := h.above hrest (Option.isSome_iff_ne_none.mpr hlive)
  rcases hreplaces j hj with heq | ⟨size, hfile⟩ | ⟨-, hempty⟩
  · exact hother heq
  · rw [hdirectory] at hfile
    cases hfile
  · exact hbare hempty

/-- Another size of a file. -/
theorem Files.Proper.resize (h : files.Proper) {before : Nat}
    (hfile : files.nodes[i]? = some (.file before)) (size : Nat) :
    Files.Proper { files with nodes := files.nodes.set i (.file size) } where
  bound hpath := by
    rw [List.length_set]
    exact h.bound hpath
  inj := h.inj
  parent hpath := by
    obtain ⟨j, hj, hdirectory⟩ := h.parent hpath
    refine ⟨j, hj, ?_⟩
    have hne : i ≠ j := by
      rintro rfl
      rw [hdirectory] at hfile
      cases hfile
    rw [List.getElem?_set_ne hne, hdirectory]
  descriptor hnfd := by
    rw [List.length_set]
    exact h.descriptor hnfd

/-- A path without entries is removed. -/
theorem Files.Proper.remove (h : files.Proper) (hbare : files.Bare path) :
    Files.Proper { files with tree := Function.update files.tree path none } := by
  have hold : ∀ {path' i}, Function.update files.tree path none path' = some i →
      path' ≠ path ∧ files.tree path' = some i := by
    intro path' i hpath
    rw [Function.update_apply] at hpath
    split_ifs at hpath with heq
    exact ⟨heq, hpath⟩
  refine ⟨fun hpath => h.bound (hold hpath).2, fun hpath hpath' =>
    h.inj (hold hpath).2 (hold hpath').2, fun {path' name i} hpath => ?_, h.descriptor⟩
  obtain ⟨j, hj, hdirectory⟩ := h.parent (hold hpath).2
  refine ⟨j, ?_, hdirectory⟩
  show Function.update files.tree path none path' = some j
  rw [Function.update_of_ne, hj]
  rintro rfl
  have hlive := (hold hpath).2
  rw [hbare name] at hlive
  cases hlive

theorem Files.Proper.bare_of_file (h : files.Proper) {size : Nat} (hpath : files.tree path = some i)
    (hfile : files.nodes[i]? = some (.file size)) : files.Bare path := by
  intro name
  by_contra hlive
  obtain ⟨k, hk⟩ := Option.ne_none_iff_exists'.mp hlive
  obtain ⟨j, hj, hdirectory⟩ := h.parent hk
  rw [hpath, Option.some.injEq] at hj
  rw [← hj, hfile] at hdirectory
  cases hdirectory

/-- A new file. -/
theorem Files.Proper.create (h : files.Proper) (hparent : files.IsDirectory path)
    (hnew : files.tree (path ++ [name]) = none) (node : Node) :
    Files.Proper
      { files with
        tree := Function.update files.tree (path ++ [name]) (some files.nodes.length)
        nodes := files.nodes ++ [node] } := by
  have hcases : ∀ {path' i}, Function.update files.tree (path ++ [name]) (some files.nodes.length)
      path' = some i → path' = path ++ [name] ∧ i = files.nodes.length ∨
        path' ≠ path ++ [name] ∧ files.tree path' = some i := by
    intro path' i hpath
    rw [Function.update_apply] at hpath
    split_ifs at hpath with heq
    · exact Or.inl ⟨heq, (Option.some.inj hpath).symm⟩
    · exact Or.inr ⟨heq, hpath⟩
  -- what was a directory is one still
  have hdirectories : ∀ {path'}, files.IsDirectory path' → Files.IsDirectory
      { files with
        tree := Function.update files.tree (path ++ [name]) (some files.nodes.length)
        nodes := files.nodes ++ [node] } path' := by
    rintro path' ⟨j, hj, hdirectory⟩
    refine ⟨j, ?_, ?_⟩
    · show Function.update files.tree (path ++ [name]) (some files.nodes.length) path' = some j
      rw [Function.update_of_ne, hj]
      rintro rfl
      rw [hnew] at hj
      cases hj
    · show (files.nodes ++ [node])[j]? = _
      rw [List.getElem?_append_left (h.bound hj), hdirectory]
  refine ⟨fun {path' i} hpath => ?_, fun {path' path'' i} hpath hpath' => ?_,
    fun {path' name' i} hpath => ?_, fun hnfd => ?_⟩
  · show i < (files.nodes ++ [node]).length
    rw [List.length_append, List.length_singleton]
    rcases hcases hpath with ⟨-, rfl⟩ | ⟨-, hold⟩
    · omega
    · have := h.bound hold
      omega
  · rcases hcases hpath with ⟨rfl, rfl⟩ | ⟨-, hold⟩ <;>
      rcases hcases hpath' with ⟨rfl, hi⟩ | ⟨-, hold'⟩
    · rfl
    · exact absurd (h.bound hold') (Nat.lt_irrefl _)
    · rw [hi] at hold
      exact absurd (h.bound hold) (Nat.lt_irrefl _)
    · exact h.inj hold hold'
  · rcases hcases hpath with ⟨heq, -⟩ | ⟨-, hold⟩
    · rw [(List.append_inj' heq rfl).1]
      exact hdirectories hparent
    · exact hdirectories (h.parent hold)
  · obtain ⟨hlt, hstreams⟩ := h.descriptor hnfd
    refine ⟨?_, hstreams⟩
    show _ < (files.nodes ++ [node]).length
    rw [List.length_append]
    omega

/-- Other descriptors of the same files. -/
theorem Files.Proper.describe (h : files.Proper) {nfd : Nat} {descriptor : Option (Nat × Nat)}
    (hdescriptor : ∀ {i streams}, descriptor = some (i, streams) →
      i < files.nodes.length ∧ 0 < streams) :
    Files.Proper
      { files with descriptors := Function.update files.descriptors nfd descriptor } := by
  refine ⟨h.bound, h.inj, h.parent, fun {nfd' i streams} hnfd => ?_⟩
  replace hnfd : Function.update files.descriptors nfd descriptor nfd' = some (i, streams) := hnfd
  rw [Function.update_apply] at hnfd
  split_ifs at hnfd
  · exact hdescriptor hnfd
  · exact h.descriptor hnfd

/-! ### Renames -/

variable {origin target : Path}

theorem moved_below (files : Files) (origin target rest : Path) :
    files.moved origin target (target ++ rest) = files.tree (origin ++ rest) := by
  rw [Files.moved, if_pos (List.prefix_append target rest), List.drop_left]

/-- What is where after a rename. -/
theorem moved_eq_some (h : files.moved origin target path = some i) :
    (∃ rest, path = target ++ rest ∧ files.tree (origin ++ rest) = some i) ∨
      ¬target <+: path ∧ ¬origin <+: path ∧ files.tree path = some i := by
  rw [Files.moved] at h
  split_ifs at h with htarget horigin
  · obtain ⟨rest, rfl⟩ := htarget
    rw [List.drop_left] at h
    exact Or.inl ⟨rest, rfl, h⟩
  · exact Or.inr ⟨htarget, horigin, h⟩

theorem not_prefix_of_snoc {path other : Path} {name : String} (h : ¬other <+: path ++ [name]) :
    ¬other <+: path :=
  fun hstart => h (hstart.trans (List.prefix_append path [name]))

theorem Files.Proper.rename (h : files.Proper) (hparent : files.IsDirectory path)
    (hinside : origin <+: path ++ [name] → origin = path ++ [name]) :
    Files.Proper { files with tree := files.moved origin (path ++ [name]) } := by
  refine ⟨fun {other i} hpath => ?_, fun {other other' i} hpath hpath' => ?_,
    fun {other name' i} hpath => ?_, h.descriptor⟩
  · rcases moved_eq_some hpath with ⟨rest, -, hold⟩ | ⟨-, -, hold⟩ <;> exact h.bound hold
  · rcases moved_eq_some hpath with ⟨rest, rfl, hold⟩ | ⟨htarget, horigin, hold⟩ <;>
      rcases moved_eq_some hpath' with ⟨rest', rfl, hold'⟩ | ⟨htarget', horigin', hold'⟩
    · rw [List.append_cancel_left (h.inj hold hold')]
    · exact absurd (h.inj hold hold' ▸ List.prefix_append origin rest) horigin'
    · exact absurd (h.inj hold' hold ▸ List.prefix_append origin rest') horigin
    · exact h.inj hold hold'
  · rcases moved_eq_some hpath with ⟨rest, heq, hold⟩ | ⟨htarget, horigin, hold⟩
    -- the moved entry itself hangs below the new parent, what is under it moves along
    · induction rest using List.reverseRecOn with
      | nil =>
          rw [List.append_nil] at heq
          obtain rfl := (List.append_inj' heq rfl).1
          obtain ⟨j, hj, hdirectory⟩ := hparent
          -- the new parent is not moved, since it would have to be inside the origin
          have hshort : ¬other ++ [name] <+: other := fun hstart => by
            have := hstart.length_le
            rw [List.length_append, List.length_singleton] at this
            omega
          refine ⟨j, ?_, hdirectory⟩
          show files.moved origin (other ++ [name]) other = some j
          rw [Files.moved, if_neg hshort, if_neg, hj]
          intro hstart
          exact hshort (hinside (hstart.trans (List.prefix_append _ _)) ▸ hstart)
      | append_singleton rest last _ =>
          rw [← List.append_assoc] at heq hold
          obtain ⟨rfl, -⟩ := List.append_inj' heq rfl
          obtain ⟨j, hj, hdirectory⟩ := h.parent hold
          exact ⟨j, (moved_below files origin _ rest).trans hj, hdirectory⟩
    · obtain ⟨j, hj, hdirectory⟩ := h.parent hold
      refine ⟨j, ?_, hdirectory⟩
      show files.moved origin (path ++ [name]) other = some j
      rw [Files.moved, if_neg (not_prefix_of_snoc htarget), if_neg (not_prefix_of_snoc horigin), hj]

/-- Every call keeps a tree proper. -/
theorem Does.proper {call : Call} (hdoes : Does call files files') (h : files.Proper) :
    files'.Proper := by
  cases hdoes with
  | mknod directory hparent hnew => exact h.create hparent hnew _
  | truncate size hpath hfile => exact h.resize hfile size
  | setattr hpath => exact h
  | «open» hpath hnfd =>
      exact h.describe fun hsome => by
        cases hsome
        exact ⟨h.bound hpath, Nat.one_pos⟩
  | openDirectory hpath => exact h
  | dup hnfd =>
      exact h.describe fun hsome => by
        cases hsome
        exact ⟨(h.descriptor hnfd).1, Nat.succ_pos _⟩
  | close hnfd =>
      exact h.describe fun hsome => by
        split_ifs at hsome with hzero
        cases hsome
        exact ⟨(h.descriptor hnfd).1, Nat.pos_of_ne_zero hzero⟩
  | write written hnfd hfile hwritten => exact h.resize hfile _
  | unlink hpath hfile => exact h.remove (h.bare_of_file hpath hfile)
  | rmdir hpath hbare => exact h.remove hbare
  | rename horigin hparent hinside hreplaces => exact h.rename hparent hinside

end

end PocketCoder.Foundation.FileTree
