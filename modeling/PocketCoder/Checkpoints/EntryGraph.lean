import Mathlib.Data.List.Nodup
import Mathlib.Data.Prod.Lex
import Mathlib.Logic.Relation
import Mathlib.Order.WellFounded
import PocketCoder.Foundation.Generator
import PocketCoder.Checkpoints.Format

/-!
The graph of checkpoint entries (`contracts/src/checkpoints/entry-graph.ts`):
parents are directories, and links stay inside their mount.

The validator follows a link by name, component by component, and does not
stop at names the checkpoint does not have. A file system does stop there, so
its walk over the same tree is a prefix of the validator's: `Walk` is that
walk, and `walk_contained` carries the verdict of the validator over to it.
-/

namespace PocketCoder.Checkpoints

open PocketCoder.Foundation PosixPath

abbrev EntryLookup := Nat → String → Option CheckpointArchiveEntry

/-! ### The validator -/

def CheckpointArchiveEntry.isDirectory (entry : CheckpointArchiveEntry) : Bool :=
  match entry.kind with
  | .directory => true
  | _ => false

/-- The path and the target of a symlink. -/
def CheckpointArchiveEntry.link? (entry : CheckpointArchiveEntry) : Option (String × String) :=
  match entry.kind with
  | .symlink _ target => some (entry.path, target)
  | _ => none

/-- The loop of `validateParents`: `parent` has been checked. -/
def checkParents (lookup : EntryLookup) (mount : Nat) (parent : String) :
    List String → Except String Unit
  | [] => .ok ()
  | part :: parts =>
      let parent := if parent = "" then part else parent ++ "/" ++ part
      if (lookup mount parent).any CheckpointArchiveEntry.isDirectory then
        checkParents lookup mount parent parts
      else .error "Checkpoint entry parent is missing or is not a directory."

def validateParents (entry : CheckpointArchiveEntry) (lookup : EntryLookup) : Except String Unit :=
  checkParents lookup entry.mount "" (split entry.path).dropLast

def checkLink (path target : String) : Except String Unit :=
  if safeCheckpointLink path target then .ok () else .error "Checkpoint link escapes its mount."

/-- The variables of `validateLinkChain`. -/
structure Chain where
  resolved : List String
  pending : List String
  links : Nat

/-- One round of `while (pending.length)`; `none` when nothing is pending. -/
def Chain.step (lookup : EntryLookup) (mount : Nat) (chain : Chain) :
    Except String (Option Chain) :=
  match chain.pending with
  | [] => .ok none
  | part :: pending =>
      if part = "" ∨ part = "." then .ok (some { chain with pending })
      else if part = ".." then
        if chain.resolved = [] then .error "Checkpoint link chain escapes its mount."
        else .ok (some { chain with resolved := chain.resolved.dropLast, pending })
      else
        match (lookup mount (joinParts (chain.resolved ++ [part]))).bind
            CheckpointArchiveEntry.link? with
        | some (path, target) =>
            if chain.links + 1 > 64 then
              .error "Checkpoint link cycle or chain exceeds 64 hops."
            else do
              checkLink path target
              .ok (some { chain with pending := split target ++ pending, links := chain.links + 1 })
        -- what is no link is resolved as it stands, also when it is missing
        | none => .ok (some { chain with resolved := chain.resolved ++ [part], pending })

/-- A round that does not throw is the last one, or uses up a component, or
expands a link. -/
theorem Chain.step_eq_ok {lookup : EntryLookup} {mount : Nat} {chain : Chain}
    {result : Option Chain} (h : chain.step lookup mount = .ok result) :
    (result = none ∧ chain.pending = []) ∨ ∃ next, result = some next ∧
      ((next.links = chain.links ∧ next.pending.length < chain.pending.length) ∨
        (next.links = chain.links + 1 ∧ next.links ≤ 64)) := by
  unfold Chain.step at h
  split at h
  · rename_i hpending
    exact .inl ⟨(Except.ok.inj h).symm, hpending⟩
  · rename_i part pending hpending
    have hshorter : pending.length < chain.pending.length := by
      rw [hpending]
      exact Nat.lt_succ_self _
    refine .inr ?_
    split at h
    · exact ⟨_, (Except.ok.inj h).symm, .inl ⟨rfl, hshorter⟩⟩
    · split at h
      · split at h
        · exact nomatch h
        · exact ⟨_, (Except.ok.inj h).symm, .inl ⟨rfl, hshorter⟩⟩
      · split at h
        · split at h
          · exact nomatch h
          · rename_i hlinks
            obtain ⟨_, -, hnext⟩ := Except.bind_eq_ok.mp h
            exact ⟨_, (Except.ok.inj hnext).symm, .inr ⟨rfl, Nat.le_of_not_lt hlinks⟩⟩
        · exact ⟨_, (Except.ok.inj h).symm, .inl ⟨rfl, hshorter⟩⟩

/-- Links are bounded, and between two links the pending list shrinks. -/
def Chain.rank (chain : Chain) : Nat ×ₗ Nat := toLex (65 - chain.links, chain.pending.length)

theorem Chain.rank_lt {lookup : EntryLookup} {mount : Nat} {chain next : Chain}
    (h : chain.step lookup mount = .ok (some next)) : next.rank < chain.rank := by
  rw [rank, rank, Prod.Lex.toLex_lt_toLex]
  rcases Chain.step_eq_ok h with ⟨hnone, -⟩ | ⟨_, hsome, ⟨hlinks, hpending⟩ | ⟨hlinks, hbound⟩⟩
  · exact nomatch hnone
  · obtain rfl := Option.some.inj hsome
    exact .inr ⟨by rw [hlinks], hpending⟩
  · obtain rfl := Option.some.inj hsome
    exact .inl (by dsimp only; omega)

/-- `while (pending.length) { ... }`. -/
def Chain.run (lookup : EntryLookup) (mount : Nat) (chain : Chain) : Except String Unit :=
  match _h : chain.step lookup mount with
  | .error e => .error e
  | .ok none => .ok ()
  | .ok (some next) => next.run lookup mount
termination_by chain.rank
decreasing_by exact Chain.rank_lt _h

theorem Chain.run_eq_ok {lookup : EntryLookup} {mount : Nat} {chain : Chain} :
    chain.run lookup mount = .ok () ↔ chain.step lookup mount = .ok none ∨
      ∃ next, chain.step lookup mount = .ok (some next) ∧ next.run lookup mount = .ok () := by
  rw [Chain.run]
  split <;> simp_all

def validateLinkChain (entry : CheckpointArchiveEntry) (target : String) (lookup : EntryLookup) :
    Except String Unit := do
  checkLink entry.path target
  let parent := dirname entry.path
  Chain.run lookup entry.mount
    { resolved := if parent = "." then [] else split parent, pending := split target, links := 0 }

def validateCheckpointEntryGraph (entry : CheckpointArchiveEntry) (lookup : EntryLookup) :
    Except String Unit := do
  validateParents entry lookup
  match entry.kind with
  | .symlink _ target => validateLinkChain entry target lookup
  | _ => .ok ()

/-! ### The walk of a file system -/

/-- A finite set of checkpoint entries with unique keys. -/
structure CheckpointTree (node : NodeRuntime) where
  entries : List CheckpointArchiveEntry
  conforms : ∀ entry ∈ entries, entry.conforms node = true
  unique : (entries.map fun entry => (entry.mount, entry.path)).Nodup

/-- How a lookup of a path ends. -/
inductive Outcome where
  | found (path : List String)
  | noEntry
  | notDirectory

/-- A path lookup in progress: the directory reached, as the names from the
mount root, the components still to be looked up, and how many links have
been expanded. -/
inductive Walk where
  | walking (directory pending : List String) (expansions : Nat)
  | ended (outcome : Outcome) (expansions : Nat)
  /-- Above the mount root. -/
  | escaped

namespace CheckpointTree

variable {node : NodeRuntime} (tree : CheckpointTree node)

def lookup : EntryLookup := fun mount path =>
  tree.entries.find? fun entry => entry.mount = mount ∧ entry.path = path

/-- The entry with the given names from the mount root. -/
def child (mount : Nat) (names : List String) : Option CheckpointArchiveEntry :=
  tree.entries.find? fun entry => entry.mount = mount ∧ split entry.path = names

/-- One component of a path lookup, as POSIX resolves it: a link is expanded
where it stands, before any later component. -/
def walkStep (mount : Nat) : Walk → Option Walk
  | .walking directory [] expansions => some (.ended (.found directory) expansions)
  | .walking directory (part :: pending) expansions =>
      if part = "" ∨ part = "." then some (.walking directory pending expansions)
      else if part = ".." then
        if directory = [] then some .escaped
        else some (.walking directory.dropLast pending expansions)
      else
        match tree.child mount (directory ++ [part]) with
        | none => some (.ended .noEntry expansions)
        | some entry =>
            match entry.kind with
            | .directory => some (.walking (directory ++ [part]) pending expansions)
            | .file _ =>
                some (.ended (if pending = [] then .found (directory ++ [part]) else .notDirectory)
                  expansions)
            | .symlink _ target =>
                if isAbsolute target then some .escaped
                else some (.walking directory (split target ++ pending) (expansions + 1))
  | .ended _ _ => none
  | .escaped => none

/-- The walk that resolves a link: from its directory along its target. -/
def walkLink (entry : CheckpointArchiveEntry) (target : String) : Walk :=
  if isAbsolute target then .escaped
  else .walking (split entry.path).dropLast (split target) 0

/-- One walk leads to the other. -/
def Walks (mount : Nat) : Walk → Walk → Prop :=
  Relation.ReflTransGen fun a b => tree.walkStep mount a = some b

end CheckpointTree

def Walk.expansions : Walk → Nat
  | .walking _ _ n => n
  | .ended _ n => n
  | .escaped => 0

/-! ### Names and paths -/

theorem joinParts_append_singleton {names : List String} (h : names ≠ []) (name : String) :
    joinParts (names ++ [name]) = joinParts names ++ "/" ++ name := by
  apply String.toList_inj.mp
  rw [toList_joinParts_append h, String.toList_append, String.toList_append]
  simp

theorem joinParts_ne_empty {names : List String} (h : names ≠ [])
    (hslash : ∀ name ∈ names, '/' ∉ name.toList) (hne : ∀ name ∈ names, name ≠ "") :
    joinParts names ≠ "" := by
  intro hempty
  have hsplit := split_joinParts hslash h
  rw [hempty] at hsplit
  exact hne "" (by rw [← hsplit]; decide) rfl

namespace CheckpointTree

variable {node : NodeRuntime} (tree : CheckpointTree node)

/-- Looking up a path and looking up its names find the same entry. -/
theorem lookup_joinParts (mount : Nat) {names : List String} (h : names ≠ [])
    (hslash : ∀ name ∈ names, '/' ∉ name.toList) :
    tree.lookup mount (joinParts names) = tree.child mount names := by
  have hsame (path : String) : path = joinParts names ↔ split path = names := by
    constructor
    · rintro rfl
      exact split_joinParts hslash h
    · rintro rfl
      exact (joinParts_split path).symm
  simp only [lookup, child, hsame]

theorem child_mem {mount : Nat} {names : List String} {entry : CheckpointArchiveEntry}
    (h : tree.child mount names = some entry) :
    entry ∈ tree.entries ∧ entry.mount = mount ∧ split entry.path = names := by
  have hfound := List.find?_some h
  simp only [decide_eq_true_eq] at hfound
  exact ⟨List.mem_of_find?_eq_some h, hfound⟩

/-- What the validator's acceptance means for a walk. -/
def Contained (mount : Nat) : Walk → Prop
  | .walking directory pending expansions =>
      (∀ name ∈ directory ++ pending, '/' ∉ name.toList) ∧ expansions ≤ 64 ∧
        Chain.run tree.lookup mount ⟨directory, pending, expansions⟩ = .ok ()
  | .ended _ expansions => expansions ≤ 64
  | .escaped => False

/-- The rank of the chain the validator runs beside a walk. -/
def walkRank : Walk → Nat ×ₗ Nat
  | .walking directory pending expansions => Chain.rank ⟨directory, pending, expansions⟩
  | _ => toLex (0, 0)

/-- The link of an entry of the tree is relative. -/
theorem relative_of_mem {entry : CheckpointArchiveEntry} {digest target : String}
    (hentry : entry ∈ tree.entries) (hkind : entry.kind = .symlink digest target) :
    isAbsolute target = false := by
  have hconforms := tree.conforms entry hentry
  simp only [CheckpointArchiveEntry.conforms, hkind, Bool.and_eq_true] at hconforms
  have hsafe : safeCheckpointLink entry.path target = true := hconforms.2.1.1.2
  by_contra habsolute
  rw [Bool.not_eq_false] at habsolute
  simp [safeCheckpointLink, habsolute] at hsafe

/-- A component that is a name: where the walk goes, the validator goes too. -/
theorem contained_name {mount : Nat} {directory pending : List String} {part : String}
    {expansions : Nat} {next : Chain} (hname : ¬(part = "" ∨ part = ".")) (hup : ¬part = "..")
    (hslash : ∀ name ∈ directory ++ part :: pending, '/' ∉ name.toList) (hbound : expansions ≤ 64)
    (hstep : Chain.step tree.lookup mount ⟨directory, part :: pending, expansions⟩ =
      .ok (some next))
    (hnext : next.run tree.lookup mount = .ok ()) :
    ∃ walk, tree.walkStep mount (.walking directory (part :: pending) expansions) = some walk ∧
      tree.Contained mount walk ∧
      ((∃ outcome n, walk = .ended outcome n) ∨ walkRank walk = next.rank) := by
  have hdirectory : ∀ name ∈ directory ++ [part], '/' ∉ name.toList := by
    intro name hmem
    exact hslash name (by simp only [List.mem_append, List.mem_cons] at hmem ⊢; tauto)
  have hpending : ∀ name ∈ pending, '/' ∉ name.toList := by
    intro name hmem
    exact hslash name (by simp [hmem])
  have hlookup := tree.lookup_joinParts mount (by simp) hdirectory
  simp only [Chain.step, if_neg hname, if_neg hup, hlookup] at hstep
  simp only [walkStep, if_neg hname, if_neg hup]
  -- the walk ends at what is missing or a file; only a link takes one of the expansions
  cases hchild : tree.child mount (directory ++ [part]) with
  | none => exact ⟨_, rfl, hbound, .inl ⟨_, _, rfl⟩⟩
  | some entry =>
      obtain ⟨hentry, -, -⟩ := tree.child_mem hchild
      cases hkind : entry.kind with
      | directory =>
          have hlink : entry.link? = none := by simp [CheckpointArchiveEntry.link?, hkind]
          simp only [hchild, Option.bind_some, hlink, Except.ok.injEq, Option.some.injEq] at hstep
          subst hstep
          refine ⟨.walking (directory ++ [part]) pending expansions, by simp only [hkind],
            ⟨?_, hbound, hnext⟩, .inr rfl⟩
          intro name hmem
          rcases List.mem_append.mp hmem with hmem | hmem
          · exact hdirectory name hmem
          · exact hpending name hmem
      | file digest =>
          refine ⟨.ended (if pending = [] then .found (directory ++ [part]) else .notDirectory)
            expansions, by simp only [hkind], hbound, .inl ⟨_, _, rfl⟩⟩
      | symlink digest target =>
          have hlink : entry.link? = some (entry.path, target) := by
            simp [CheckpointArchiveEntry.link?, hkind]
          simp only [hchild, Option.bind_some, hlink] at hstep
          split_ifs at hstep with hlinks
          obtain ⟨_, -, hstep⟩ := Except.bind_eq_ok.mp hstep
          simp only [Except.ok.injEq, Option.some.injEq] at hstep
          subst hstep
          refine ⟨.walking directory (split target ++ pending) (expansions + 1), ?_,
            ⟨?_, by omega, hnext⟩, .inr rfl⟩
          · simp only [hkind, tree.relative_of_mem hentry hkind, Bool.false_eq_true, if_false]
          intro name hmem
          simp only [List.mem_append] at hmem
          rcases hmem with hmem | hmem | hmem
          · exact hslash name (by simp [hmem])
          · exact not_mem_of_mem_split hmem
          · exact hpending name hmem

/-- A step of the walk is a step of the validator, or the last one. -/
theorem contained_step {mount : Nat} {directory pending : List String} {expansions : Nat}
    (h : tree.Contained mount (.walking directory pending expansions)) :
    ∃ next, tree.walkStep mount (.walking directory pending expansions) = some next ∧
      tree.Contained mount next ∧
      ((∃ outcome n, next = .ended outcome n) ∨
        walkRank next < Chain.rank ⟨directory, pending, expansions⟩) := by
  obtain ⟨hslash, hbound, hrun⟩ := h
  cases pending with
  | nil => exact ⟨_, rfl, hbound, .inl ⟨_, _, rfl⟩⟩
  | cons part pending =>
      have hrest : ∀ names ⊆ directory, ∀ name ∈ names ++ pending, '/' ∉ name.toList := by
        intro names hnames name hmem
        rcases List.mem_append.mp hmem with hmem | hmem
        · exact hslash name (List.mem_append_left _ (hnames hmem))
        · exact hslash name (by simp [hmem])
      obtain ⟨next, hstep, hnext⟩ : ∃ next, Chain.step tree.lookup mount
          ⟨directory, part :: pending, expansions⟩ = .ok (some next) ∧
          next.run tree.lookup mount = .ok () := by
        rcases Chain.run_eq_ok.mp hrun with hdone | hgoes
        · rcases Chain.step_eq_ok hdone with ⟨-, hnil⟩ | ⟨_, hsome, -⟩
          · exact nomatch hnil
          · exact nomatch hsome
        · exact hgoes
      have hrank := Chain.rank_lt hstep
      -- three kinds of components: skipped, the parent, a name
      by_cases hskip : part = "" ∨ part = "."
      · simp only [Chain.step, if_pos hskip, Except.ok.injEq, Option.some.injEq] at hstep
        subst hstep
        refine ⟨.walking directory pending expansions, ?_,
          ⟨hrest _ (List.Subset.refl _), hbound, hnext⟩, .inr hrank⟩
        simp only [walkStep, if_pos hskip]
      by_cases hup : part = ".."
      · simp only [Chain.step, if_neg hskip, if_pos hup] at hstep
        split_ifs at hstep with hroot
        simp only [Except.ok.injEq, Option.some.injEq] at hstep
        subst hstep
        refine ⟨.walking directory.dropLast pending expansions, ?_,
          ⟨hrest _ (List.dropLast_subset _), hbound, hnext⟩, .inr hrank⟩
        simp only [walkStep, if_neg hskip, if_pos hup, if_neg hroot]
      · obtain ⟨walk, hwalk, hcontained, hended | hsame⟩ :=
          tree.contained_name hskip hup hslash hbound hstep hnext
        · exact ⟨walk, hwalk, hcontained, .inl hended⟩
        · exact ⟨walk, hwalk, hcontained, .inr (hsame ▸ hrank)⟩

/-- Containment holds along the whole walk. -/
theorem contained_walks {mount : Nat} {a b : Walk} (h : tree.Walks mount a b)
    (ha : tree.Contained mount a) : tree.Contained mount b := by
  induction h with
  | refl => exact ha
  | @tail w w' _ hstep ih =>
      cases w with
      | walking directory pending expansions =>
          obtain ⟨next, hnext, hcontained, -⟩ := tree.contained_step ih
          rw [hnext, Option.some.injEq] at hstep
          exact hstep ▸ hcontained
      | ended outcome expansions => exact nomatch hstep
      | escaped => exact nomatch hstep

/-- A contained walk ends. -/
theorem contained_ends {mount : Nat} {walk : Walk} (h : tree.Contained mount walk) :
    ∃ outcome n, tree.Walks mount walk (.ended outcome n) := by
  induction hrank : walkRank walk using WellFoundedLT.induction generalizing walk with
  | _ rank ih =>
      cases walk with
      | ended outcome n => exact ⟨outcome, n, .refl⟩
      | escaped => exact h.elim
      | walking directory pending expansions =>
          obtain ⟨next, hnext, hcontained, ⟨outcome, n, rfl⟩ | hless⟩ := tree.contained_step h
          · exact ⟨outcome, n, .single hnext⟩
          · obtain ⟨outcome, n, hwalks⟩ := ih _ (hrank ▸ hless) hcontained rfl
            exact ⟨outcome, n, hwalks.head hnext⟩

end CheckpointTree

/-! ### Parents -/

/-- The names of a safe path. -/
theorem safePath_names {node : NodeRuntime} {path : String}
    (h : safeCheckpointPath node path = true) :
    ∀ name ∈ split path, name ≠ "" ∧ name ≠ "." ∧ name ≠ ".." := by
  simp only [safeCheckpointPath, Bool.and_eq_true, List.all_eq_true, decide_eq_true_eq] at h
  intro name hname
  obtain ⟨⟨hempty, hdot⟩, hup⟩ := h.2 name hname
  exact ⟨hempty, hdot, hup⟩

theorem CheckpointArchiveEntry.conforms_path {node : NodeRuntime} {entry : CheckpointArchiveEntry}
    (h : entry.conforms node = true) : safeCheckpointPath node entry.path = true := by
  simp only [CheckpointArchiveEntry.conforms, Bool.and_eq_true] at h
  exact h.1.1.1.2

/-- Every prefix the loop has passed is a directory. -/
theorem checkParents_eq_ok {lookup : EntryLookup} {mount : Nat} {parts : List String}
    (names : List String)
    (hslash : ∀ name ∈ names ++ parts, '/' ∉ name.toList) (hne : ∀ name ∈ names ++ parts, name ≠ "")
    (h : checkParents lookup mount (joinParts names) parts = .ok ()) :
    ∀ k, 0 < k → k ≤ parts.length →
      (lookup mount (joinParts (names ++ parts.take k))).any CheckpointArchiveEntry.isDirectory =
        true := by
  induction parts generalizing names with
  | nil =>
      intro k hk hle
      rw [List.length_nil] at hle
      omega
  | cons part parts ih =>
      have hnames : ∀ name ∈ names, '/' ∉ name.toList ∧ name ≠ "" := fun name hmem =>
        ⟨hslash name (List.mem_append_left _ hmem), hne name (List.mem_append_left _ hmem)⟩
      -- The accumulated text is the path of the accumulated names.
      have hparent : (if joinParts names = "" then part else joinParts names ++ "/" ++ part) =
          joinParts (names ++ [part]) := by
        by_cases hnil : names = []
        · subst hnil
          simp [joinParts]
        · rw [if_neg (joinParts_ne_empty hnil (fun name hmem => (hnames name hmem).1)
            fun name hmem => (hnames name hmem).2), joinParts_append_singleton hnil]
      simp only [checkParents, hparent] at h
      split_ifs at h with hdirectory
      intro k hk hle
      obtain ⟨k, rfl⟩ : ∃ j, k = j + 1 := ⟨k - 1, by omega⟩
      rw [List.take_succ_cons]
      by_cases hzero : k = 0
      · rw [hzero, List.take_zero]
        exact hdirectory
      · have hrest := ih (names ++ [part]) (by simpa using hslash) (by simpa using hne) h k
          (by omega) (by simpa using hle)
        simpa using hrest

/-- The directory a link starts from, as the validator computes it. -/
theorem resolved_eq_dropLast {node : NodeRuntime} {path : String}
    (h : safeCheckpointPath node path = true) :
    (if dirname path = "." then [] else split (dirname path)) = (split path).dropLast := by
  have hnames := safePath_names h
  have hslash : ∀ name ∈ split path, '/' ∉ name.toList := fun name => not_mem_of_mem_split
  obtain ⟨init, last, hsplit⟩ : ∃ init last, split path = init ++ [last] := by
    rcases List.eq_nil_or_concat' (split path) with hnil | hconcat
    · exact absurd hnil (split_ne_nil path)
    · exact hconcat
  have hdirname := dirname_joinParts (hsplit ▸ hslash) fun name hmem =>
    (hnames name (hsplit ▸ hmem)).1
  rw [← hsplit, joinParts_split] at hdirname
  rw [hdirname, hsplit, List.dropLast_concat]
  by_cases hinit : init = []
  · simp [hinit]
  · have hdirectory : split (joinParts init) = init :=
      split_joinParts (fun name hmem => hslash name (by simp [hsplit, hmem])) hinit
    have hdot : joinParts init ≠ "." := by
      intro heq
      rw [heq] at hdirectory
      have hmem : "." ∈ init := by
        rw [← hdirectory]
        decide
      exact (hnames "." (by simp [hsplit, hmem])).2.1 rfl
    rw [if_neg hinit, if_neg hdot, hdirectory]

namespace CheckpointTree

variable {node : NodeRuntime} (tree : CheckpointTree node)

/-- Entries with the same key are the same entry. -/
theorem eq_of_key {a b : CheckpointArchiveEntry} (ha : a ∈ tree.entries) (hb : b ∈ tree.entries)
    (hmount : a.mount = b.mount) (hpath : split a.path = split b.path) : a = b := by
  apply List.inj_on_of_nodup_map tree.unique ha hb
  rw [hmount, ← joinParts_split a.path, hpath, joinParts_split]

/-- The proper ancestors of an accepted entry are directories. -/
theorem ancestors_directories {entry : CheckpointArchiveEntry} (hentry : entry ∈ tree.entries)
    (haccepted : validateParents entry tree.lookup = .ok ()) {k : Nat} (hk : 0 < k)
    (hproper : k < (split entry.path).length) :
    ∃ parent ∈ tree.entries, parent.mount = entry.mount ∧
      split parent.path = (split entry.path).take k ∧ parent.kind = .directory := by
  have hnames := safePath_names (CheckpointArchiveEntry.conforms_path (tree.conforms entry hentry))
  have hmem : ∀ name ∈ [] ++ (split entry.path).dropLast, name ∈ split entry.path :=
    fun name hname => List.dropLast_subset _ hname
  have hparents := checkParents_eq_ok []
    (fun name hname => not_mem_of_mem_split (hmem name hname))
    (fun name hname => (hnames name (hmem name hname)).1) haccepted k hk
    (by rw [List.length_dropLast]; omega)
  have htake : (split entry.path).dropLast.take k = (split entry.path).take k := by
    rw [List.dropLast_eq_take, List.take_take, min_eq_left (by omega)]
  have hne : (split entry.path).take k ≠ [] := by
    rw [ne_eq, List.take_eq_nil_iff, not_or]
    exact ⟨by omega, split_ne_nil _⟩
  rw [List.nil_append, htake, tree.lookup_joinParts entry.mount hne fun name hname =>
    not_mem_of_mem_split (List.mem_of_mem_take hname)] at hparents
  obtain ⟨parent, hchild, hdirectory⟩ := (Option.any_eq_true _ _).mp hparents
  obtain ⟨hparent, hmount, hpath⟩ := tree.child_mem hchild
  refine ⟨parent, hparent, hmount, hpath, ?_⟩
  cases hkind : parent.kind with
  | directory => rfl
  | file digest => simp [CheckpointArchiveEntry.isDirectory, hkind] at hdirectory
  | symlink digest target => simp [CheckpointArchiveEntry.isDirectory, hkind] at hdirectory

/-- An accepted link starts a contained walk. -/
theorem contained_walkLink {entry : CheckpointArchiveEntry} {digest target : String}
    (hentry : entry ∈ tree.entries) (hkind : entry.kind = .symlink digest target)
    (haccepted : validateLinkChain entry target tree.lookup = .ok ()) :
    tree.Contained entry.mount (walkLink entry target) := by
  obtain ⟨_, -, hrun⟩ := Except.bind_eq_ok.mp haccepted
  dsimp only at hrun
  rw [resolved_eq_dropLast (CheckpointArchiveEntry.conforms_path (tree.conforms entry hentry))] at hrun
  rw [walkLink, tree.relative_of_mem hentry hkind, if_neg Bool.false_ne_true]
  refine ⟨?_, Nat.zero_le _, hrun⟩
  intro name hmem
  rcases List.mem_append.mp hmem with hmem | hmem
  · exact not_mem_of_mem_split (List.dropLast_subset _ hmem)
  · exact not_mem_of_mem_split hmem

end CheckpointTree

/-- The loop of `validateLinkChain` terminates, whatever the lookups answer. -/
theorem Chain.no_infinite_run (lookup : Nat → EntryLookup) (mount : Nat) (run : Nat → Chain) :
    ¬∀ n, (run n).step (lookup n) mount = .ok (some (run (n + 1))) := by
  intro h
  obtain ⟨n, hn⟩ := WellFounded.not_rel_apply_succ (r := (· < ·)) fun n => (run n).rank
  exact hn (Chain.rank_lt (h n))

/-- **Link containment.** In a tree whose entries the validator accepts, the
file system's walk along any link stays inside the mount and ends within 64
expansions, every proper ancestor of an entry is a directory, and the
validator terminates on every input. -/
theorem checkpointEntryGraph_contained {node : NodeRuntime} (tree : CheckpointTree node)
    (haccepted : ∀ entry ∈ tree.entries, validateCheckpointEntryGraph entry tree.lookup = .ok ()) :
    (∀ entry ∈ tree.entries, ∀ digest target, entry.kind = .symlink digest target →
      (∀ walk, tree.Walks entry.mount (CheckpointTree.walkLink entry target) walk →
        walk ≠ .escaped ∧ walk.expansions ≤ 64) ∧
      ∃ outcome n, tree.Walks entry.mount (CheckpointTree.walkLink entry target)
        (.ended outcome n)) ∧
    (∀ entry ∈ tree.entries, ∀ k, 0 < k → k < (split entry.path).length →
      (∃ parent ∈ tree.entries, parent.mount = entry.mount ∧
        split parent.path = (split entry.path).take k) ∧
      ∀ parent ∈ tree.entries, parent.mount = entry.mount →
        split parent.path = (split entry.path).take k → parent.kind = .directory) ∧
    ∀ (lookup : Nat → EntryLookup) (mount : Nat) (run : Nat → Chain),
      ¬∀ n, (run n).step (lookup n) mount = .ok (some (run (n + 1))) := by
  refine ⟨?_, ?_, Chain.no_infinite_run⟩
  · intro entry hentry digest target hkind
    obtain ⟨_, -, hchain⟩ := Except.bind_eq_ok.mp (haccepted entry hentry)
    rw [hkind] at hchain
    have hstart := tree.contained_walkLink hentry hkind hchain
    refine ⟨fun walk hwalk => ?_, tree.contained_ends hstart⟩
    have hcontained := tree.contained_walks hwalk hstart
    cases walk with
    | walking directory pending expansions => exact ⟨nofun, hcontained.2.1⟩
    | ended outcome expansions => exact ⟨nofun, hcontained⟩
    | escaped => exact hcontained.elim
  · intro entry hentry k hk hproper
    obtain ⟨_, hparents, -⟩ := Except.bind_eq_ok.mp (haccepted entry hentry)
    obtain ⟨parent, hparent, hmount, hpath, hkind⟩ :=
      tree.ancestors_directories hentry hparents hk hproper
    refine ⟨⟨parent, hparent, hmount, hpath⟩, fun other hother hmount' hpath' => ?_⟩
    rw [tree.eq_of_key hother hparent (hmount'.trans hmount.symm) (hpath'.trans hpath.symm), hkind]

/-! ### A tree with a link out of its directory -/

def docsEntry : CheckpointArchiveEntry where
  mount := 0
  path := "docs"
  mode := 0o755
  mtime_ns := "0"
  size := 0
  kind := .directory

def linkEntry : CheckpointArchiveEntry where
  mount := 0
  path := "docs/latest"
  mode := 0o777
  mtime_ns := "0"
  size := 9
  kind := .symlink (asciiRuntime.digest (utf8 "../readme")) "../readme"

def fileEntry : CheckpointArchiveEntry where
  mount := 0
  path := "readme"
  mode := 0o644
  mtime_ns := "0"
  size := 0
  kind := .file (asciiRuntime.digest [])

theorem linkEntry_conforms : linkEntry.conforms asciiRuntime = true := by
  have hdigest := asciiRuntime.isDigest_digest (utf8 "../readme")
  have hpath : safeCheckpointPath asciiRuntime "docs/latest" = true := by decide
  have htarget : safeCheckpointLink "docs/latest" "../readme" = true := by decide
  simp +decide only [CheckpointArchiveEntry.conforms, linkEntry, hdigest, hpath, htarget,
    Bool.and_self, decide_true]

theorem fileEntry_conforms : fileEntry.conforms asciiRuntime = true := by
  have hdigest := asciiRuntime.isDigest_digest []
  have hpath : safeCheckpointPath asciiRuntime "readme" = true := by decide
  simp +decide only [CheckpointArchiveEntry.conforms, fileEntry, hdigest, hpath, Bool.and_self,
    decide_true]

/-- A directory with a link to the file beside it. -/
def linkTree : CheckpointTree asciiRuntime where
  entries := [docsEntry, linkEntry, fileEntry]
  conforms := by
    simp only [List.mem_cons, List.not_mem_nil, or_false, forall_eq_or_imp, forall_eq]
    exact ⟨by decide, linkEntry_conforms, fileEntry_conforms⟩
  unique := by decide

theorem linkTree_accepted :
    ∀ entry ∈ linkTree.entries, validateCheckpointEntryGraph entry linkTree.lookup = .ok () := by
  have hchain : Chain.run linkTree.lookup 0 ⟨["docs"], ["..", "readme"], 0⟩ = .ok () :=
    Chain.run_eq_ok.mpr (.inr ⟨⟨[], ["readme"], 0⟩, rfl, Chain.run_eq_ok.mpr
      (.inr ⟨⟨["readme"], [], 0⟩, rfl, Chain.run_eq_ok.mpr (.inl rfl)⟩)⟩)
  have hlink : validateCheckpointEntryGraph linkEntry linkTree.lookup = .ok () := hchain
  simp only [linkTree, List.mem_cons, List.not_mem_nil, or_false, forall_eq_or_imp, forall_eq]
  exact ⟨rfl, hlink, rfl⟩

theorem linkTree_contained :
    ∃ outcome n, n ≤ 64 ∧
      linkTree.Walks 0 (.walking ["docs"] ["..", "readme"] 0) (.ended outcome n) := by
  obtain ⟨hlinks, -, -⟩ := checkpointEntryGraph_contained linkTree linkTree_accepted
  obtain ⟨hcontained, outcome, n, hwalks⟩ := hlinks linkEntry (by simp [linkTree]) _ _ rfl
  exact ⟨outcome, n, (hcontained _ hwalks).2, hwalks⟩

end PocketCoder.Checkpoints
