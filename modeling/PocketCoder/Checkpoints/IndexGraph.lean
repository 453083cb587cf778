import PocketCoder.Checkpoints.EntryGraph
import PocketCoder.Checkpoints.EntryIndex

/-!
The graph check over an index (`db/src/checkpoints/index-graph.ts`), which
keeps the ordinals of the ancestors of the last entry and reads those again
that the next entry shares.

The cached lookup has a state, so the validator is stated once more for
lookups with a state. `runIn_cases` says that it does what the plain validator
does whenever the lookup gives the answers of a plain one. The cache gives
them for the ancestors of an entry because they are looked up in order, and
after them it asks the index.
-/

namespace PocketCoder.Checkpoints

open PocketCoder.Foundation PosixPath

/-! ### The validator, for lookups with a state -/

/-- A lookup that has a state and may throw. -/
abbrev LookupIn (σ : Type) :=
  Nat → String → σ → Except String (Option CheckpointArchiveEntry × σ)

variable {σ : Type}

/-- The path of the next ancestor. -/
def nextParent (parent part : String) : String :=
  if parent = "" then part else parent ++ "/" ++ part

def checkParentsIn (lookup : LookupIn σ) (mount : Nat) (parent : String) :
    List String → σ → Except String σ
  | [], s => .ok s
  | part :: parts, s => do
      let answer ← lookup mount (nextParent parent part) s
      if answer.1.any CheckpointArchiveEntry.isDirectory then
        checkParentsIn lookup mount (nextParent parent part) parts answer.2
      else .error "Checkpoint entry parent is missing or is not a directory."

/-- The path that a round of the loop looks up. -/
def Chain.query (chain : Chain) : Option String :=
  match chain.pending with
  | [] => none
  | part :: _ =>
      if part = "" ∨ part = "." then none
      else if part = ".." then none
      else some (joinParts (chain.resolved ++ [part]))

/-- One round of `while (pending.length)`, with the answer to its lookup. -/
def Chain.stepIn (lookup : LookupIn σ) (mount : Nat) (chain : Chain) (s : σ) :
    Except String (Option Chain × σ) :=
  match chain.query with
  | none => do .ok (← chain.step (fun _ _ => none) mount, s)
  | some path => do
      let answer ← lookup mount path s
      .ok (← chain.step (fun _ _ => answer.1) mount, answer.2)

theorem Chain.stepIn_rank {lookup : LookupIn σ} {mount : Nat} {chain next : Chain} {s s' : σ}
    (h : chain.stepIn lookup mount s = .ok (some next, s')) : next.rank < chain.rank := by
  unfold Chain.stepIn at h
  split at h
  · obtain ⟨result, hstep, h⟩ := Except.bind_eq_ok.mp h
    rw [Except.ok.injEq, Prod.mk.injEq] at h
    exact Chain.rank_lt (h.1 ▸ hstep)
  · obtain ⟨answer, -, h⟩ := Except.bind_eq_ok.mp h
    obtain ⟨result, hstep, h⟩ := Except.bind_eq_ok.mp h
    rw [Except.ok.injEq, Prod.mk.injEq] at h
    exact Chain.rank_lt (h.1 ▸ hstep)

def Chain.runIn (lookup : LookupIn σ) (mount : Nat) (chain : Chain) (s : σ) : Except String σ :=
  match _h : chain.stepIn lookup mount s with
  | .error e => .error e
  | .ok (none, s) => .ok s
  | .ok (some next, s) => next.runIn lookup mount s
termination_by chain.rank
decreasing_by exact Chain.stepIn_rank _h

def validateLinkChainIn (entry : CheckpointArchiveEntry) (target : String) (lookup : LookupIn σ)
    (s : σ) : Except String σ := do
  checkLink entry.path target
  let parent := dirname entry.path
  Chain.runIn lookup entry.mount
    { resolved := if parent = "." then [] else split parent, pending := split target, links := 0 } s

/-- `validateCheckpointEntryGraph`, for a lookup with a state. -/
def validateCheckpointEntryGraphIn (entry : CheckpointArchiveEntry) (lookup : LookupIn σ) (s : σ) :
    Except String σ := do
  let s ← checkParentsIn lookup entry.mount "" (split entry.path).dropLast s
  match entry.kind with
  | .symlink _ target => validateLinkChainIn entry target lookup s
  | _ => .ok s

/-! ### The cache -/

/-- What is kept of the previous entry. -/
structure GraphCache where
  previousMount : Int
  previousParts : List String
  previousOrdinals : Nat → Option Nat

/-- The variables of `lookup`. -/
structure LookupState where
  parentPosition : Nat
  shared : Bool
  ordinals : Nat → Option Nat

/-- The `lookup` of an entry whose ancestors are `parts`. -/
def cachedLookup (node : NodeRuntime) (index : EntryIndex) (cache : GraphCache)
    (entry : CheckpointArchiveEntry) (parts : List String) : LookupIn LookupState :=
  fun mount path s => do
    let position := s.parentPosition
    -- a lookup that is not of the next ancestor goes to the index
    if mount ≠ entry.mount ∨ position ≥ parts.length then
      .ok (← index.lookup node mount path, { s with parentPosition := position + 1 })
    else
      -- the ordinals of the previous entry are good as far as the two paths agree
      let shared := s.shared && cache.previousParts[position]? = parts[position]?
      let cached := if shared then cache.previousOrdinals position else none
      let ordinal ←
        match cached with
        | some ordinal => .ok (some ordinal)
        | none => index.ordinal node mount path
      match ordinal with
      | none => .ok (none, { s with parentPosition := position + 1, shared })
      | some ordinal => do
          let record ← index.entryAt node ordinal
          if record.mount ≠ mount ∨ record.path ≠ path then
            .error "Checkpoint graph parent binding changed."
          else
            .ok (some record,
              { parentPosition := position + 1, shared
                ordinals := fun p => if p = position then some ordinal else s.ordinals p })

/-- The loop over the entries of the index. -/
def validateOrdinals (node : NodeRuntime) (index : EntryIndex) :
    GraphCache → List Nat → Except String Unit
  | _, [] => .ok ()
  | cache, ordinal :: rest => do
      let entry ← index.readEntry node ordinal
      let parts := (split entry.path).dropLast
      let s ← validateCheckpointEntryGraphIn entry (cachedLookup node index cache entry parts)
        { parentPosition := 0, shared := cache.previousMount = entry.mount, ordinals := fun _ => none }
      validateOrdinals node index
        { previousMount := entry.mount, previousParts := parts, previousOrdinals := s.ordinals } rest

/-- `validateCheckpointIndexGraph`, where the check of its caller, which
throws when the caller gives up, does not throw. -/
def validateCheckpointIndexGraph (node : NodeRuntime) (index : EntryIndex) : Except String Unit := do
  index.requireSealed
  validateOrdinals node index
    { previousMount := -1, previousParts := [], previousOrdinals := fun _ => none }
    (List.range index.count)

/-- The lookup of the index alone. -/
def plainLookup (node : NodeRuntime) (index : EntryIndex) : LookupIn Unit :=
  fun mount path _ => do .ok (← index.lookup node mount path, ())

/-! ### The chain of a link -/

/-- A round asks for at most one path. -/
theorem Chain.step_of_query {lookup lookup' : EntryLookup} {mount : Nat} {chain : Chain}
    (h : ∀ path, chain.query = some path → lookup mount path = lookup' mount path) :
    chain.step lookup mount = chain.step lookup' mount := by
  obtain ⟨resolved, pending, links⟩ := chain
  cases pending with
  | nil => rfl
  | cons part pending =>
      by_cases hskip : part = "" ∨ part = "."
      · simp only [Chain.step, if_pos hskip]
      by_cases hup : part = ".."
      · simp only [Chain.step, if_neg hskip, if_pos hup]
      · have hsame := h (joinParts (resolved ++ [part])) (by
          simp only [Chain.query, if_neg hskip, if_neg hup])
        simp only [Chain.step, if_neg hskip, if_neg hup, hsame]

theorem Chain.run_step (lookup : EntryLookup) (mount : Nat) (chain : Chain) :
    chain.run lookup mount =
      (chain.step lookup mount).bind fun next =>
        next.elim (.ok ()) fun next => next.run lookup mount := by
  rw [Chain.run]
  split <;> rename_i hstep <;> rw [hstep] <;> rfl

theorem Chain.runIn_step (lookup : LookupIn σ) (mount : Nat) (chain : Chain) (s : σ) :
    chain.runIn lookup mount s =
      (chain.stepIn lookup mount s).bind fun result =>
        result.1.elim (.ok result.2) fun next => next.runIn lookup mount result.2 := by
  rw [Chain.runIn]
  split <;> rename_i hstep <;> rw [hstep] <;> rfl

section
variable {lookup : LookupIn σ} {plain : EntryLookup} {mount : Nat} {I : σ → Prop}

/-- The lookup answers as the plain one, from every state that it can have. -/
def Answers (lookup : LookupIn σ) (plain : EntryLookup) (mount : Nat) (I : σ → Prop) : Prop :=
  ∀ path s, I s → ∃ s', lookup mount path s = .ok (plain mount path, s') ∧ I s'

/-- A check with a lookup that has a state ends as the plain check. -/
def SameVerdict (I : σ → Prop) (result : Except String σ) (verdict : Except String Unit) : Prop :=
  (∃ e, verdict = .error e ∧ result = .error e) ∨ ∃ s, verdict = .ok () ∧ result = .ok s ∧ I s

theorem stepIn_eq (h : Answers lookup plain mount I) (chain : Chain) {s : σ} (hs : I s) :
    ∃ s', I s' ∧ chain.stepIn lookup mount s =
      (chain.step plain mount).map fun next => (next, s') := by
  unfold Chain.stepIn
  cases hquery : chain.query with
  | none =>
      have hstep : chain.step plain mount = chain.step (fun _ _ => none) mount :=
        Chain.step_of_query fun path hpath => by
          rw [hquery] at hpath
          cases hpath
      refine ⟨s, hs, ?_⟩
      rw [hstep]
      cases chain.step (fun _ _ => none) mount <;> rfl
  | some path =>
      obtain ⟨s', hanswer, hs'⟩ := h path s hs
      have hstep : chain.step plain mount = chain.step (fun _ _ => plain mount path) mount :=
        Chain.step_of_query fun path' hpath' => by
          rw [hquery, Option.some.injEq] at hpath'
          rw [hpath']
      refine ⟨s', hs', ?_⟩
      dsimp only
      rw [hanswer, hstep]
      dsimp only [bind, Except.bind]
      cases chain.step (fun _ _ => plain mount path) mount <;> rfl

/-- The loop ends as it does with the plain lookup; the induction is on the
rank that makes it end. -/
theorem runIn_cases (h : Answers lookup plain mount I) (chain : Chain) {s : σ} (hs : I s) :
    SameVerdict I (chain.runIn lookup mount s) (chain.run plain mount) := by
  induction hrank : chain.rank using WellFoundedLT.induction generalizing chain s with
  | _ rank ih =>
      obtain ⟨s', hs', hstep⟩ := stepIn_eq h chain hs
      rw [Chain.run_step, Chain.runIn_step, hstep]
      cases hplain : chain.step plain mount with
      | error e => exact .inl ⟨e, rfl, rfl⟩
      | ok next =>
          cases next with
          | none => exact .inr ⟨s', rfl, rfl, hs'⟩
          | some next => exact ih next.rank (hrank ▸ Chain.rank_lt hplain) next hs' rfl

theorem SameVerdict.bind {J : σ → Prop} {result : Except String σ} {verdict : Except String Unit}
    {next : σ → Except String σ} {next' : Except String Unit} (h : SameVerdict I result verdict)
    (hnext : ∀ s, I s → SameVerdict J (next s) next') :
    SameVerdict J (result >>= next) (verdict >>= fun _ => next') := by
  rcases h with ⟨e, rfl, rfl⟩ | ⟨s, rfl, rfl, hs⟩
  · exact .inl ⟨e, rfl, rfl⟩
  · exact hnext s hs

/-- The part of the check that follows a link. -/
theorem validateLink_cases {entry : CheckpointArchiveEntry} (h : Answers lookup plain entry.mount I)
    {s : σ} (hs : I s) :
    SameVerdict I
      (match entry.kind with
        | .symlink _ target => validateLinkChainIn entry target lookup s
        | _ => .ok s)
      (match entry.kind with
        | .symlink _ target => validateLinkChain entry target plain
        | _ => .ok ()) := by
  cases entry.kind with
  | directory => exact .inr ⟨s, rfl, rfl, hs⟩
  | file digest => exact .inr ⟨s, rfl, rfl, hs⟩
  | symlink digest target =>
      dsimp only
      rw [validateLinkChainIn, validateLinkChain]
      cases checkLink entry.path target with
      | error e => exact .inl ⟨e, rfl, rfl⟩
      | ok _ => exact runIn_cases h _ hs

end

/-- The plain check, for a lookup that always answers. -/
theorem validateIn_cases {lookup : LookupIn σ} {plain : EntryLookup} {I : σ → Prop}
    {entry : CheckpointArchiveEntry} {s : σ}
    (hparents : SameVerdict I
      (checkParentsIn lookup entry.mount "" (split entry.path).dropLast s)
      (validateParents entry plain)) (hlink : Answers lookup plain entry.mount I) :
    SameVerdict I (validateCheckpointEntryGraphIn entry lookup s)
      (validateCheckpointEntryGraph entry plain) :=
  hparents.bind fun _ hs => validateLink_cases hlink hs

/-! ### The ancestors of an entry -/

/-- The path of an ancestor, from its names. -/
def parentPath (parts : List String) : String := parts.foldl nextParent ""

theorem parentPath_concat (parts : List String) (part : String) :
    parentPath (parts ++ [part]) = nextParent (parentPath parts) part := by
  rw [parentPath, List.foldl_append]
  rfl

/-- The loop over the ancestors asks for them in order: `I n` is what the
state is like after `n` of them. -/
theorem checkParentsIn_cases {lookup : LookupIn σ} {plain : EntryLookup} {mount : Nat}
    {parts : List String} {I : Nat → σ → Prop}
    (h : ∀ n s, n < parts.length → I n s → ∃ s',
      lookup mount (parentPath (parts.take (n + 1))) s =
        .ok (plain mount (parentPath (parts.take (n + 1))), s') ∧ I (n + 1) s')
    {n : Nat} (hn : n ≤ parts.length) {s : σ} (hs : I n s) :
    SameVerdict (I parts.length)
      (checkParentsIn lookup mount (parentPath (parts.take n)) (parts.drop n) s)
      (checkParents plain mount (parentPath (parts.take n)) (parts.drop n)) := by
  induction hrest : parts.drop n generalizing n s with
  | nil =>
      have hall : n = parts.length := Nat.le_antisymm hn (List.drop_eq_nil_iff.mp hrest)
      exact .inr ⟨s, rfl, rfl, hall ▸ hs⟩
  | cons part rest ih =>
      have hlt : n < parts.length := by
        rw [← Nat.not_le, ← List.drop_eq_nil_iff, hrest]
        exact List.cons_ne_nil _ _
      have hnext : parts.take (n + 1) = parts.take n ++ [part] := by
        have hcons := List.drop_eq_getElem_cons hlt
        rw [hrest, List.cons.injEq] at hcons
        rw [List.take_succ_eq_append_getElem hlt, hcons.1]
      have hdrop : parts.drop (n + 1) = rest := by
        rw [← List.tail_drop, hrest, List.tail_cons]
      obtain ⟨s', hanswer, hs'⟩ := h n s hlt hs
      rw [hnext, parentPath_concat] at hanswer
      have hverdict := ih hlt hs' hdrop
      rw [hnext, parentPath_concat] at hverdict
      rw [checkParentsIn, hanswer, checkParents]
      dsimp only [bind, Except.bind]
      have hparent : (if parentPath (parts.take n) = "" then part
          else parentPath (parts.take n) ++ "/" ++ part) =
            nextParent (parentPath (parts.take n)) part := rfl
      rw [hparent]
      by_cases hdirectory : (plain mount (nextParent (parentPath (parts.take n)) part)).any
          CheckpointArchiveEntry.isDirectory = true
      · rw [if_pos hdirectory, if_pos hdirectory]
        exact hverdict
      · rw [if_neg hdirectory, if_neg hdirectory]
        exact .inl ⟨_, rfl, rfl⟩

section
variable {node : NodeRuntime} {maxBytes : Nat} {entries : List CheckpointArchiveEntry}
  {index : EntryIndex} (hbuilt : BuiltFrom node maxBytes entries index)

include hbuilt

/-- The check with the lookup of the index is the plain check over the
entries. -/
theorem plainLookup_verdict (entry : CheckpointArchiveEntry) :
    SameVerdict (fun _ => True) (validateCheckpointEntryGraphIn entry (plainLookup node index) ())
      (validateCheckpointEntryGraph entry (indexed entries)) := by
  have hanswers : Answers (plainLookup node index) (indexed entries) entry.mount fun _ => True := by
    intro path s _
    refine ⟨(), ?_, trivial⟩
    rw [plainLookup, lookup_built hbuilt]
    rfl
  refine validateIn_cases ?_ hanswers
  exact checkParentsIn_cases (I := fun _ _ => True) (fun n s _ hs => hanswers _ s hs)
    (Nat.zero_le _) trivial

end

/-! ### The cache answers -/

/-- An ordinal of an ancestor. -/
def AncestorAt (entries : List CheckpointArchiveEntry) (mount : Int) (parts : List String)
    (position ordinal : Nat) : Prop :=
  ∃ entry, entries[ordinal]? = some entry ∧ (entry.mount : Int) = mount ∧
    entry.path = parentPath (parts.take (position + 1))

/-- The ordinals of the cache are those of the ancestors of the previous
entry. -/
def GraphCache.Sound (entries : List CheckpointArchiveEntry) (cache : GraphCache) : Prop :=
  ∀ position ordinal, cache.previousOrdinals position = some ordinal →
    AncestorAt entries cache.previousMount cache.previousParts position ordinal

/-- The state of the lookup after `n` ancestors. -/
structure LookupState.Sound (entries : List CheckpointArchiveEntry) (cache : GraphCache)
    (mount : Nat) (parts : List String) (n : Nat) (s : LookupState) : Prop where
  position : s.parentPosition = n
  shared : s.shared = true → cache.previousMount = mount ∧
    cache.previousParts.take n = parts.take n
  ordinals : ∀ position ordinal, s.ordinals position = some ordinal →
    AncestorAt entries mount parts position ordinal

section
variable {node : NodeRuntime} {maxBytes : Nat} {entries : List CheckpointArchiveEntry}
  {index : EntryIndex} (hbuilt : BuiltFrom node maxBytes entries index)

include hbuilt

/-- What the index says about a path. -/
theorem ordinal_cases (mount : Nat) (path : String) :
    (index.ordinal node mount path = .ok none ∧ indexed entries mount path = none) ∨
    ∃ ordinal entry, index.ordinal node mount path = .ok (some ordinal) ∧
      entries[ordinal]? = some entry ∧ entry.mount = mount ∧ entry.path = path := by
  rw [EntryIndex.ordinal]
  rcases find_cases hbuilt mount path with ⟨entry, ordinal, hfind, hordinal, hindexed⟩ |
    ⟨hfind, hindexed⟩
  · have hkey := List.find?_some hindexed
    rw [decide_eq_true_eq] at hkey
    rw [hfind]
    exact .inr ⟨ordinal, entry, rfl, hordinal, hkey⟩
  · rw [hfind]
    exact .inl ⟨rfl, hindexed⟩

/-- The record at an ordinal of the path that is looked up. -/
theorem entryAt_key {ordinal : Nat} {entry : CheckpointArchiveEntry}
    (h : entries[ordinal]? = some entry) :
    index.entryAt node ordinal = .ok entry ∧
      indexed entries entry.mount entry.path = some entry := by
  obtain ⟨hlt, rfl⟩ := List.getElem?_eq_some_iff.mp h
  exact ⟨entryAt_built hbuilt hlt, indexed_of_key hbuilt (List.getElem_mem hlt)⟩

/-- The lookup of an ancestor: the next position, in the mount of the entry. -/
theorem cachedLookup_ancestor {cache : GraphCache} (hcache : cache.Sound entries)
    {entry : CheckpointArchiveEntry} {parts : List String} {n : Nat} (hn : n < parts.length)
    {s : LookupState} (hs : s.Sound entries cache entry.mount parts n) :
    ∃ s', cachedLookup node index cache entry parts entry.mount (parentPath (parts.take (n + 1))) s =
        .ok (indexed entries entry.mount (parentPath (parts.take (n + 1))), s') ∧
      s'.Sound entries cache entry.mount parts (n + 1) := by
  obtain ⟨position, shared, ordinals⟩ := s
  obtain ⟨hposition, hshared, hordinals⟩ := hs
  dsimp only at hposition hshared hordinals
  subst hposition
  -- a shared part extends what is shared of the two paths by one
  have hnext : (shared && cache.previousParts[position]? = parts[position]?) = true →
      cache.previousMount = entry.mount ∧
        cache.previousParts.take (position + 1) = parts.take (position + 1) := by
    intro h
    rw [Bool.and_eq_true, decide_eq_true_eq] at h
    obtain ⟨hmount, htake⟩ := hshared h.1
    refine ⟨hmount, ?_⟩
    rw [List.take_add_one, List.take_add_one, htake, h.2]
  -- whatever ordinal is used, it is one of this path
  have hrecord : ∀ ordinal found, entries[ordinal]? = some found → found.mount = entry.mount →
      found.path = parentPath (parts.take (position + 1)) → ∃ s',
        (do let record ← index.entryAt node ordinal
            if record.mount ≠ entry.mount ∨ record.path ≠ parentPath (parts.take (position + 1)) then
              .error "Checkpoint graph parent binding changed."
            else
              .ok (some record,
                ({ parentPosition := position + 1
                   shared := shared && cache.previousParts[position]? = parts[position]?
                   ordinals := fun p =>
                     if p = position then some ordinal else ordinals p } : LookupState))) =
          Except.ok (indexed entries entry.mount (parentPath (parts.take (position + 1))), s') ∧
        s'.Sound entries cache entry.mount parts (position + 1) := by
    intro ordinal found hfound hmount hpath
    obtain ⟨hentry, hindexed⟩ := entryAt_key hbuilt hfound
    rw [hmount, hpath] at hindexed
    rw [hentry, hindexed]
    dsimp only [bind, Except.bind]
    rw [if_neg (not_or.mpr ⟨not_not.mpr hmount, not_not.mpr hpath⟩)]
    refine ⟨_, rfl, rfl, hnext, fun p o hp => ?_⟩
    dsimp only at hp
    split_ifs at hp with hsame
    · rw [Option.some.injEq] at hp
      subst hp hsame
      exact ⟨found, hfound, congrArg Int.ofNat hmount, hpath⟩
    · exact hordinals p o hp
  unfold cachedLookup
  dsimp only
  rw [if_neg (not_or.mpr ⟨fun h => h rfl, Nat.not_le.mpr hn⟩)]
  cases hcached : (if (shared && cache.previousParts[position]? = parts[position]?) = true then
      cache.previousOrdinals position else none) with
  | some ordinal =>
      have hkept : (shared && cache.previousParts[position]? = parts[position]?) = true := by
        by_contra hnot
        rw [if_neg hnot] at hcached
        cases hcached
      rw [if_pos hkept] at hcached
      -- a kept ordinal is of the previous entry's ancestor, whose path is the same so far
      obtain ⟨hmount, htake⟩ := hnext hkept
      obtain ⟨found, hfound, hfoundMount, hfoundPath⟩ := hcache position ordinal hcached
      rw [hmount] at hfoundMount
      rw [htake] at hfoundPath
      exact hrecord ordinal found hfound (Int.ofNat.inj hfoundMount) hfoundPath
  | none =>
      rcases ordinal_cases hbuilt entry.mount (parentPath (parts.take (position + 1))) with
        ⟨hordinal, hindexed⟩ | ⟨ordinal, found, hordinal, hfound, hmount, hpath⟩
      · dsimp only
        rw [hordinal, hindexed]
        exact ⟨_, rfl, rfl, hnext, hordinals⟩
      · dsimp only
        rw [hordinal]
        exact hrecord ordinal found hfound hmount hpath

/-- After the ancestors the index is asked. -/
theorem cachedLookup_answers (cache : GraphCache) (entry : CheckpointArchiveEntry)
    (parts : List String) (ordinals : Nat → Option Nat) :
    Answers (cachedLookup node index cache entry parts) (indexed entries) entry.mount
      fun s => parts.length ≤ s.parentPosition ∧ s.ordinals = ordinals := by
  rintro path s ⟨hposition, hordinals⟩
  refine ⟨{ s with parentPosition := s.parentPosition + 1 }, ?_, Nat.le_succ_of_le hposition, hordinals⟩
  unfold cachedLookup
  dsimp only
  rw [if_pos (.inr hposition), lookup_built hbuilt]
  rfl

/-- The check of one entry with a sound cache: the verdict is the plain one,
and the ordinals that it leaves are sound for the next entry. -/
theorem cachedLookup_verdict {cache : GraphCache} (hcache : cache.Sound entries)
    (entry : CheckpointArchiveEntry) :
    SameVerdict
      (fun s => GraphCache.Sound entries
        { previousMount := entry.mount, previousParts := (split entry.path).dropLast
          previousOrdinals := s.ordinals })
      (validateCheckpointEntryGraphIn entry
        (cachedLookup node index cache entry (split entry.path).dropLast)
        { parentPosition := 0, shared := cache.previousMount = entry.mount, ordinals := fun _ => none })
      (validateCheckpointEntryGraph entry (indexed entries)) := by
  have hstart : LookupState.Sound entries cache entry.mount (split entry.path).dropLast 0
      { parentPosition := 0, shared := cache.previousMount = entry.mount, ordinals := fun _ => none } :=
    ⟨rfl, fun h => ⟨of_decide_eq_true h, rfl⟩, fun _ _ h => (nomatch h)⟩
  have hparents := checkParentsIn_cases
    (fun _ _ hn hs => cachedLookup_ancestor hbuilt hcache hn hs)
    (Nat.zero_le _) hstart
  refine hparents.bind fun s hs => ?_
  have hlink := validateLink_cases
    (cachedLookup_answers hbuilt cache entry (split entry.path).dropLast s.ordinals)
    ⟨hs.position.ge, rfl⟩
  rcases hlink with herror | ⟨s', hplain, hok, -, hordinals⟩
  · exact .inl herror
  · refine .inr ⟨s', hplain, hok, ?_⟩
    dsimp only
    rw [hordinals]
    exact hs.ordinals

/-- The loop over the index: the cache is sound at every entry. -/
theorem validateOrdinals_verdict {cache : GraphCache} (hcache : cache.Sound entries)
    {ordinals : List Nat} (hordinals : ∀ ordinal ∈ ordinals, ordinal < entries.length) :
    (validateOrdinals node index cache ordinals = .ok () ∧ ∀ ordinal ∈ ordinals, ∀ entry,
      entries[ordinal]? = some entry →
        validateCheckpointEntryGraph entry (indexed entries) = .ok ()) ∨
    ∃ entry ∈ entries, ∃ e, validateCheckpointEntryGraph entry (indexed entries) = .error e ∧
      (∃ ordinal ∈ ordinals, entries[ordinal]? = some entry) ∧
      validateOrdinals node index cache ordinals = .error e := by
  induction ordinals generalizing cache with
  | nil => exact .inl ⟨rfl, fun _ hmem => (nomatch hmem)⟩
  | cons ordinal rest ih =>
      have hlt := hordinals ordinal List.mem_cons_self
      have hget := List.getElem?_eq_getElem hlt
      rw [validateOrdinals, readEntry_built hbuilt hlt]
      dsimp only [bind, Except.bind]
      rcases cachedLookup_verdict hbuilt hcache entries[ordinal] with
        ⟨e, hplain, hcached⟩ | ⟨s, hplain, hcached, hsound⟩
      · rw [hcached]
        exact .inr ⟨_, List.getElem_mem hlt, e, hplain, ⟨ordinal, List.mem_cons_self, hget⟩, rfl⟩
      · rw [hcached]
        rcases ih hsound fun o ho => hordinals o (List.mem_cons_of_mem _ ho) with
          ⟨hok, hall⟩ | ⟨entry, hentry, e, herror, ⟨o, ho, hat⟩, hresult⟩
        · refine .inl ⟨hok, fun o ho entry hentry => ?_⟩
          rcases List.mem_cons.mp ho with rfl | ho
          · rw [hget, Option.some.injEq] at hentry
            rw [← hentry]
            exact hplain
          · exact hall o ho entry hentry
        · exact .inr ⟨entry, hentry, e, herror, ⟨o, List.mem_cons_of_mem _ ho, hat⟩, hresult⟩

/-- The check of the index accepts, or ends with the error of an entry. -/
theorem validateIndex_verdict :
    (validateCheckpointIndexGraph node index = .ok () ∧
      ∀ entry ∈ entries, validateCheckpointEntryGraph entry (indexed entries) = .ok ()) ∨
    ∃ entry ∈ entries, ∃ e, validateCheckpointEntryGraph entry (indexed entries) = .error e ∧
      validateCheckpointIndexGraph node index = .error e := by
  have hcount := count_built hbuilt
  have hloop : validateCheckpointIndexGraph node index = validateOrdinals node index
      { previousMount := -1, previousParts := [], previousOrdinals := fun _ => none }
      (List.range entries.length) := by
    rw [← hcount]
    obtain ⟨-, -, -, -, rfl⟩ := builtFrom_iff.mp hbuilt
    rfl
  have hempty : GraphCache.Sound entries
      { previousMount := -1, previousParts := [], previousOrdinals := fun _ => none } :=
    fun _ _ h => (nomatch h)
  rw [hloop]
  rcases validateOrdinals_verdict hbuilt hempty
    (fun ordinal hmem => List.mem_range.mp hmem) with ⟨hok, hall⟩ | ⟨entry, hmem, e, herror, -, hresult⟩
  · refine .inl ⟨hok, fun entry hmem => ?_⟩
    obtain ⟨ordinal, hlt, rfl⟩ := List.getElem_of_mem hmem
    exact hall ordinal (List.mem_range.mpr hlt) _ (List.getElem?_eq_getElem hlt)
  · exact .inr ⟨entry, hmem, e, herror, hresult⟩

end

/-! ### What the validator throws -/

/-- The messages of the validator. -/
def graphErrors : List String :=
  ["Checkpoint entry parent is missing or is not a directory.",
    "Checkpoint link escapes its mount.", "Checkpoint link chain escapes its mount.",
    "Checkpoint link cycle or chain exceeds 64 hops."]

theorem checkParents_error {lookup : EntryLookup} {mount : Nat} {parts : List String}
    {parent e : String} (h : checkParents lookup mount parent parts = .error e) : e ∈ graphErrors := by
  induction parts generalizing parent with
  | nil => cases h
  | cons part parts ih =>
      rw [checkParents, ← nextParent] at h
      split at h
      · exact ih h
      · rw [← Except.error.inj h]
        decide

theorem checkLink_error {path target e : String} (h : checkLink path target = .error e) :
    e ∈ graphErrors := by
  unfold checkLink at h
  split_ifs at h
  rw [← Except.error.inj h]
  decide

theorem Chain.step_error {lookup : EntryLookup} {mount : Nat} {chain : Chain} {e : String}
    (h : chain.step lookup mount = .error e) : e ∈ graphErrors := by
  unfold Chain.step at h
  split at h
  · cases h
  split at h
  · cases h
  split at h
  · split at h
    · rw [← Except.error.inj h]
      decide
    · cases h
  split at h
  · rename_i path target _
    split at h
    · rw [← Except.error.inj h]
      decide
    · cases hlink : checkLink path target with
      | error e' =>
          rw [hlink] at h
          cases h
          exact checkLink_error hlink
      | ok _ =>
          rw [hlink] at h
          cases h
  · cases h

theorem Chain.run_error {lookup : EntryLookup} {mount : Nat} {chain : Chain} {e : String}
    (h : chain.run lookup mount = .error e) : e ∈ graphErrors := by
  induction hrank : chain.rank using WellFoundedLT.induction generalizing chain with
  | _ rank ih =>
      rw [Chain.run_step] at h
      cases hstep : chain.step lookup mount with
      | error e' =>
          rw [hstep] at h
          cases h
          exact Chain.step_error hstep
      | ok next =>
          rw [hstep] at h
          cases next with
          | none => cases h
          | some next => exact ih next.rank (hrank ▸ Chain.rank_lt hstep) h rfl

theorem validateCheckpointEntryGraph_error {entry : CheckpointArchiveEntry} {lookup : EntryLookup}
    {e : String} (h : validateCheckpointEntryGraph entry lookup = .error e) : e ∈ graphErrors := by
  rw [validateCheckpointEntryGraph] at h
  cases hparents : validateParents entry lookup with
  | error e' =>
      rw [hparents] at h
      cases h
      exact checkParents_error hparents
  | ok _ =>
      rw [hparents] at h
      dsimp only [bind, Except.bind] at h
      split at h
      · rename_i digest target _
        rw [validateLinkChain] at h
        cases hlink : checkLink entry.path target with
        | error e' =>
            rw [hlink] at h
            cases h
            exact checkLink_error hlink
        | ok _ =>
            rw [hlink] at h
            exact Chain.run_error h
      · cases h

/-! ### The two checks agree -/

/-- **The cached check agrees with the plain one.** An index can be built
from a list of entries exactly when they are valid and strictly increasing,
and the reservation has room. In such an index `find` answers with an entry
and its ordinal exactly when they are there, the cached check accepts exactly
when the plain one accepts every entry, and its lookup never finds another
entry at an ordinal that it kept. -/
theorem validateCheckpointIndexGraph_agrees (node : NodeRuntime) (maxBytes : Nat)
    (entries : List CheckpointArchiveEntry) :
    ((∃ index, BuiltFrom node maxBytes entries index) ↔
      maxBytes ≤ MAX_SAFE_INTEGER ∧ (∀ entry ∈ entries, Indexable node entry) ∧ InOrder entries ∧
        indexReserve node entries ≤ maxBytes) ∧
    ∀ index, BuiltFrom node maxBytes entries index →
      (∀ mount path,
        (∀ entry ordinal, index.find node mount path = .ok (some (entry, ordinal)) ↔
          entries[ordinal]? = some entry ∧ entry.mount = mount ∧ entry.path = path) ∧
        (index.find node mount path = .ok none ↔
          ∀ entry ∈ entries, ¬(entry.mount = mount ∧ entry.path = path))) ∧
      (validateCheckpointIndexGraph node index = .ok () ↔ ∀ entry ∈ entries,
        validateCheckpointEntryGraphIn entry (plainLookup node index) () = .ok ()) ∧
      ∀ e, validateCheckpointIndexGraph node index = .error e →
        e ≠ "Checkpoint graph parent binding changed." := by
  constructor
  · constructor
    · rintro ⟨index, hbuilt⟩
      obtain ⟨hmax, hindexable, horder, hroom, -⟩ := builtFrom_iff.mp hbuilt
      exact ⟨hmax, hindexable, horder, hroom⟩
    · rintro ⟨hmax, hindexable, horder, hroom⟩
      exact ⟨_, builtFrom_iff.mpr ⟨hmax, hindexable, horder, hroom, rfl⟩⟩
  intro index hbuilt
  have hplain : ∀ entry, validateCheckpointEntryGraphIn entry (plainLookup node index) () = .ok () ↔
      validateCheckpointEntryGraph entry (indexed entries) = .ok () := by
    intro entry
    rcases plainLookup_verdict hbuilt entry with ⟨e, hverdict, hresult⟩ | ⟨_, hverdict, hresult, -⟩
    · rw [hverdict, hresult]
    · rw [hverdict, hresult]
  refine ⟨find_built hbuilt, ?_, ?_⟩
  · rw [forall₂_congr fun entry _ => hplain entry]
    rcases validateIndex_verdict hbuilt with ⟨hok, hall⟩ | ⟨entry, hmem, e, herror, hresult⟩
    · exact ⟨fun _ => hall, fun _ => hok⟩
    · refine ⟨fun h => ?_, fun h => ?_⟩
      · rw [hresult] at h
        cases h
      · rw [h entry hmem] at herror
        cases herror
  -- the plain check has no such message, and the cached one has the same verdict
  · intro e he hbinding
    rcases validateIndex_verdict hbuilt with ⟨hok, -⟩ | ⟨entry, -, e', herror, hresult⟩
    · rw [hok] at he
      cases he
    · rw [hresult, Except.error.injEq] at he
      have hmem := validateCheckpointEntryGraph_error herror
      rw [he, hbinding] at hmem
      exact absurd hmem (by decide)

end PocketCoder.Checkpoints
