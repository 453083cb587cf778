import PocketCoder.Conversations.Documents
import PocketCoder.Foundation.Firsts

/-!
The rows of an earlier release in one workspace: what `groupsInOrder` makes of
them, and what `latestRevisions` keeps of the rows of a turn.

`Grouped` says of the groups that they have the rows without identity in their
order, for every turn one group with all of its rows, and first rows in the
order of the rows. `Revisions` says of some messages that they are the events of
the rows in the order of their first appearance, each with its highest revision.
-/

namespace PocketCoder.Conversations

open PocketCoder.Foundation

/-! ### Groups -/

structure Grouped (rows : List LegacyRow) (groups : List LegacyGroup) : Prop where
  nonempty : ∀ group ∈ groups, group.rows ≠ []
  turns : (groups.filterMap (·.turnId)).Nodup
  turn : ∀ group ∈ groups, ∀ turnId, group.turnId = some turnId →
    group.rows = rows.filter (·.turnId = some turnId)
  plain : (groups.filter (·.turnId = none)).flatMap (·.rows) = rows.filter (·.turnId = none)
  heads : (groups.filterMap (·.rows.head?)).Sublist rows
  covered : ∀ row ∈ rows, ∀ turnId, row.turnId = some turnId →
    ∃ group ∈ groups, group.turnId = some turnId

variable {rows : List LegacyRow} {groups : List LegacyGroup} {row : LegacyRow}

theorem filter_turn_concat (rows : List LegacyRow) (row : LegacyRow) (turnId : String) :
    (rows ++ [row]).filter (·.turnId = some turnId) =
      rows.filter (·.turnId = some turnId) ++ if row.turnId = some turnId then [row] else [] := by
  rw [List.filter_append, List.filter_cons, List.filter_nil]
  simp only [decide_eq_true_eq]

theorem filter_plain_concat (rows : List LegacyRow) (row : LegacyRow) :
    (rows ++ [row]).filter (·.turnId = none) =
      rows.filter (·.turnId = none) ++ if row.turnId = none then [row] else [] := by
  rw [List.filter_append, List.filter_cons, List.filter_nil]
  simp only [decide_eq_true_eq]

/-- A row without identity after a row without identity. -/
theorem Grouped.extend {before : List LegacyGroup} {run : List LegacyRow}
    (h : Grouped rows (before ++ [⟨none, run⟩])) (hrow : row.turnId = none) :
    Grouped (rows ++ [row]) (before ++ [⟨none, run ++ [row]⟩]) where
  nonempty group hgroup := by
    rcases List.mem_append.mp hgroup with hgroup | hgroup
    · exact h.nonempty group (List.mem_append_left _ hgroup)
    · rw [List.mem_singleton.mp hgroup]
      exact List.append_ne_nil_of_right_ne_nil _ (List.cons_ne_nil _ _)
  turns := by simpa using h.turns
  turn group hgroup turnId hturn := by
    rw [filter_turn_concat, hrow, if_neg (by simp), List.append_nil]
    rcases List.mem_append.mp hgroup with hgroup | hgroup
    · exact h.turn group (List.mem_append_left _ hgroup) turnId hturn
    · rw [List.mem_singleton.mp hgroup] at hturn
      cases hturn
  plain := by
    rw [filter_plain_concat, if_pos hrow, ← h.plain]
    simp
  heads := by
    have hrun : run ≠ [] := h.nonempty ⟨none, run⟩ (List.mem_append_right _ List.mem_cons_self)
    obtain ⟨first, others, rfl⟩ := List.exists_cons_of_ne_nil hrun
    have hheads := h.heads
    simp only [List.filterMap_append, List.filterMap_cons, List.filterMap_nil, List.cons_append,
      List.head?_cons] at hheads ⊢
    exact hheads.trans (List.sublist_append_left _ _)
  covered other hother turnId hturn := by
    rcases List.mem_append.mp hother with hother | hother
    · obtain ⟨group, hgroup, hsame⟩ := h.covered other hother turnId hturn
      rcases List.mem_append.mp hgroup with hgroup | hgroup
      · exact ⟨group, List.mem_append_left _ hgroup, hsame⟩
      · rw [List.mem_singleton.mp hgroup] at hsame
        cases hsame
    · rw [List.mem_singleton.mp hother, hrow] at hturn
      cases hturn

/-- A row that starts a group. -/
theorem Grouped.start (h : Grouped rows groups)
    (hnew : ∀ group ∈ groups, row.turnId ≠ none → group.turnId ≠ row.turnId) :
    Grouped (rows ++ [row]) (groups ++ [⟨row.turnId, [row]⟩]) where
  nonempty group hgroup := by
    rcases List.mem_append.mp hgroup with hgroup | hgroup
    · exact h.nonempty group hgroup
    · rw [List.mem_singleton.mp hgroup]
      exact List.cons_ne_nil _ _
  turns := by
    rw [List.filterMap_append, List.nodup_append]
    refine ⟨h.turns, ?_, fun turnId hold other hother => ?_⟩
    · cases row.turnId <;> simp
    · obtain ⟨group, hgroup, hturn⟩ := List.mem_filterMap.mp hold
      have hrow : row.turnId = some other := by simpa using hother
      rintro rfl
      exact hnew group hgroup (by rw [hrow]; simp) (hturn.trans hrow.symm)
  turn group hgroup turnId hturn := by
    rw [filter_turn_concat]
    rcases List.mem_append.mp hgroup with hgroup | hgroup
    · rw [if_neg, List.append_nil]
      · exact h.turn group hgroup turnId hturn
      · intro hrow
        exact hnew group hgroup (by rw [hrow]; simp) (hturn.trans hrow.symm)
    · rw [List.mem_singleton.mp hgroup] at hturn ⊢
      have hturn : row.turnId = some turnId := hturn
      -- no earlier row is of the turn, since it would have a group
      rw [if_pos hturn, List.filter_eq_nil_iff.mpr, List.nil_append]
      intro other hother hsame
      obtain ⟨group, hgroup, hold⟩ := h.covered other hother turnId (of_decide_eq_true hsame)
      exact hnew group hgroup (by rw [hturn]; simp) (hold.trans hturn.symm)
  plain := by
    rw [filter_plain_concat, ← h.plain]
    cases row.turnId <;> simp
  heads := by
    rw [List.filterMap_append]
    exact h.heads.append (by simp)
  covered other hother turnId hturn := by
    rcases List.mem_append.mp hother with hother | hother
    · obtain ⟨group, hgroup, hsame⟩ := h.covered other hother turnId hturn
      exact ⟨group, List.mem_append_left _ hgroup, hsame⟩
    · rw [List.mem_singleton.mp hother] at hturn
      exact ⟨_, List.mem_append_right _ List.mem_cons_self, hturn⟩

def pushTurn (turnId : String) (row : LegacyRow) (group : LegacyGroup) : LegacyGroup :=
  if group.turnId = some turnId then group.push row else group

@[simp] theorem pushTurn_turnId (turnId : String) (row : LegacyRow) (group : LegacyGroup) :
    (pushTurn turnId row group).turnId = group.turnId := by
  rw [pushTurn]
  split <;> rfl

theorem pushTurn_head {turnId : String} {group : LegacyGroup} (h : group.rows ≠ []) :
    (pushTurn turnId row group).rows.head? = group.rows.head? := by
  rw [pushTurn]
  split
  · exact List.head?_append_of_ne_nil _ h
  · rfl

theorem Grouped.push {turnId : String} (h : Grouped rows groups) (hrow : row.turnId = some turnId)
    (hold : ∃ group ∈ groups, group.turnId = some turnId) :
    Grouped (rows ++ [row]) (groups.map (pushTurn turnId row)) where
  nonempty group hgroup := by
    obtain ⟨before, hbefore, rfl⟩ := List.mem_map.mp hgroup
    rw [pushTurn]
    split
    · exact List.append_ne_nil_of_right_ne_nil _ (List.cons_ne_nil _ _)
    · exact h.nonempty before hbefore
  turns := by
    rw [List.filterMap_map]
    simpa only [Function.comp_def, pushTurn_turnId] using h.turns
  turn group hgroup other hother := by
    obtain ⟨before, hbefore, rfl⟩ := List.mem_map.mp hgroup
    rw [pushTurn_turnId] at hother
    rw [filter_turn_concat, ← h.turn before hbefore other hother, pushTurn, hother, hrow]
    by_cases hsame : turnId = other
    · rw [if_pos (by rw [hsame]), if_pos (by rw [hsame])]
      rfl
    · rw [if_neg (by simpa using Ne.symm hsame), if_neg (by simpa using hsame), List.append_nil]
  plain := by
    rw [filter_plain_concat, hrow, if_neg (by simp), List.append_nil, ← h.plain, List.filter_map,
      List.flatMap_map]
    simp only [Function.comp_def, pushTurn_turnId]
    refine List.flatMap_congr fun group hgroup => ?_
    have hnone : group.turnId = none := of_decide_eq_true (List.mem_filter.mp hgroup).2
    rw [pushTurn, if_neg (by simp [hnone])]
  heads := by
    rw [List.filterMap_map]
    have hsame : groups.filterMap ((·.rows.head?) ∘ pushTurn turnId row) =
        groups.filterMap (·.rows.head?) :=
      List.filterMap_congr fun group hgroup => pushTurn_head (h.nonempty group hgroup)
    rw [hsame]
    exact h.heads.trans (List.sublist_append_left _ _)
  covered other hother name hname := by
    have hbefore : ∃ group ∈ groups, group.turnId = some name := by
      rcases List.mem_append.mp hother with hother | hother
      · exact h.covered other hother name hname
      · rw [List.mem_singleton.mp hother, hrow] at hname
        rw [← hname]
        exact hold
    obtain ⟨group, hgroup, hsame⟩ := hbefore
    exact ⟨_, List.mem_map_of_mem hgroup, by rw [pushTurn_turnId, hsame]⟩

theorem Grouped.groupRow (h : Grouped rows groups) (row : LegacyRow) :
    Grouped (rows ++ [row]) (groupRow groups row) := by
  rw [Conversations.groupRow.eq_def]
  cases hrow : row.turnId with
  | none =>
      have hstart : Grouped (rows ++ [row]) (groups ++ [⟨none, [row]⟩]) :=
        hrow ▸ h.start fun _ _ hnamed => absurd hrow hnamed
      dsimp only
      rcases List.eq_nil_or_concat groups with rfl | ⟨before, last, rfl⟩
      · exact hstart
      · rw [List.concat_eq_append] at h hstart ⊢
        rw [List.getLast?_concat, List.dropLast_concat]
        obtain ⟨turnId, run⟩ := last
        cases turnId with
        | none => exact h.extend hrow
        | some turnId => exact hstart
  | some turnId =>
      dsimp only
      split
      case isTrue hany =>
        obtain ⟨group, hgroup, hsame⟩ := List.any_eq_true.mp hany
        exact h.push hrow ⟨group, hgroup, of_decide_eq_true hsame⟩
      case isFalse hany =>
        rw [← hrow]
        refine h.start fun group hgroup _ hsame => hany (List.any_eq_true.mpr ⟨group, hgroup, ?_⟩)
        exact decide_eq_true (hsame.trans hrow)

theorem grouped_groupsInOrder (rows : List LegacyRow) : Grouped rows (groupsInOrder rows) := by
  induction rows using List.reverseRecOn with
  | nil =>
      exact ⟨fun _ h => absurd h List.not_mem_nil, List.nodup_nil,
        fun _ h => absurd h List.not_mem_nil, rfl, List.Sublist.refl _,
        fun _ h => absurd h List.not_mem_nil⟩
  | append_singleton rows row ih =>
      rw [groupsInOrder, List.foldl_append]
      exact ih.groupRow row

/-! ### Revisions -/

def MessageInput.eventId (message : MessageInput) : Option String :=
  message.identity.map (·.event_id)

def MessageInput.revision (message : MessageInput) : Nat :=
  (message.identity.map (·.revision)).getD 0

/-- The row of an event with its highest revision, the latest among equals. -/
def LatestRow (rows : List LegacyRow) (eventId : String) (message : MessageInput) : Prop :=
  ∃ (before : List LegacyRow) (row : LegacyRow) (after : List LegacyRow),
    rows = before ++ row :: after ∧ message = row.toMessageInput ∧
    message.eventId = some eventId ∧
    (∀ other ∈ before, other.eventId = some eventId → other.revision ≤ message.revision) ∧
    ∀ other ∈ after, other.eventId = some eventId → other.revision < message.revision

/-- The events of the rows, in the order of their first appearance. -/
def Revisions (rows : List LegacyRow) (messages : List MessageInput) : Prop :=
  List.Forall₂ (LatestRow rows) (rows.filterMap (·.eventId)).eraseDups messages

variable {eventId : String} {message : MessageInput}

theorem LatestRow.le (h : LatestRow rows eventId message) (hrow : row ∈ rows)
    (hevent : row.eventId = some eventId) : row.revision ≤ message.revision := by
  obtain ⟨before, latest, after, rfl, rfl, -, hbefore, hafter⟩ := h
  rcases List.mem_append.mp hrow with hrow | hrow
  · exact hbefore row hrow hevent
  · rcases List.mem_cons.mp hrow with rfl | hrow
    · exact Nat.le_refl _
    · exact Nat.le_of_lt (hafter row hrow hevent)

/-- A row that does not replace the latest one. -/
theorem LatestRow.concat (h : LatestRow rows eventId message)
    (hrow : row.eventId = some eventId → row.revision < message.revision) :
    LatestRow (rows ++ [row]) eventId message := by
  obtain ⟨before, latest, after, rfl, hmessage, hevent, hbefore, hafter⟩ := h
  refine ⟨before, latest, after ++ [row], by rw [List.append_assoc, List.cons_append], hmessage,
    hevent, hbefore, fun other hother => ?_⟩
  rcases List.mem_append.mp hother with hother | hother
  · exact hafter other hother
  · rw [List.mem_singleton.mp hother]
    exact hrow

/-- A row that is the latest one. -/
theorem latestRow_concat (hevent : row.eventId = some eventId)
    (hrows : ∀ other ∈ rows, other.eventId = some eventId → other.revision ≤ row.revision) :
    LatestRow (rows ++ [row]) eventId row.toMessageInput :=
  ⟨rows, row, [], rfl, rfl, hevent, hrows, fun _ h => absurd h List.not_mem_nil⟩

/-- The map of the events after some rows. -/
structure Folded (rows : List LegacyRow) (events : JsMap String LegacyRow) : Prop where
  keys : events.entries.rows.map Prod.fst = (rows.filterMap (·.eventId)).eraseDups
  latest : ∀ entry ∈ events.entries.rows, LatestRow rows entry.1 entry.2.toMessageInput
  seqs : (events.entries.rows.map (·.2.seq)).Sublist (rows.map (·.seq))

variable {events : JsMap String LegacyRow}

theorem eraseDups_concat (ids : List String) (id : String) :
    (ids ++ [id]).eraseDups = if id ∈ ids then ids.eraseDups else ids.eraseDups ++ [id] := by
  rw [List.eraseDups_append]
  by_cases h : id ∈ ids <;> simp [List.removeAll, h, List.eraseDups_cons]

/-- The events of the map are those of the rows. -/
theorem Folded.get_eq_none (h : Folded rows events) :
    events.get eventId = none ↔ eventId ∉ rows.filterMap (·.eventId) := by
  rw [← List.mem_eraseDups, ← h.keys, List.mem_map]
  constructor
  · rintro hnone ⟨entry, hentry, rfl⟩
    rw [JsMap.get_of_mem hentry] at hnone
    cases hnone
  · intro hnone
    cases hget : events.get eventId with
    | none => rfl
    | some row => exact absurd ⟨_, JsMap.mem_of_get hget, rfl⟩ hnone

theorem Folded.skip (h : Folded rows events)
    (hrow : ∀ eventId, row.eventId = some eventId → ∃ previous, events.get eventId = some previous ∧
      row.revision < previous.revision) : Folded (rows ++ [row]) events where
  keys := by
    rw [h.keys, List.filterMap_append, List.filterMap_cons, List.filterMap_nil]
    cases hevent : row.eventId with
    | none => rw [List.append_nil]
    | some eventId =>
        obtain ⟨previous, hget, -⟩ := hrow eventId hevent
        rw [eraseDups_concat, if_pos]
        by_contra hnew
        rw [h.get_eq_none.mpr hnew] at hget
        cases hget
  latest entry hentry := by
    refine (h.latest entry hentry).concat fun hevent => ?_
    obtain ⟨previous, hget, hlt⟩ := hrow entry.1 hevent
    rw [JsMap.get_of_mem hentry] at hget
    rwa [Option.some.inj hget]
  seqs := by
    rw [List.map_append]
    exact h.seqs.trans (List.sublist_append_left _ _)

/-- The first row of an event. -/
theorem Folded.add (h : Folded rows events) (hevent : row.eventId = some eventId)
    (hnone : events.get eventId = none) : Folded (rows ++ [row]) (events.set eventId row) := by
  have hnew := h.get_eq_none.mp hnone
  have hrows := JsMap.rows_set_of_none hnone row
  refine ⟨?_, fun entry hentry => ?_, ?_⟩
  · rw [hrows, List.map_append, h.keys, List.filterMap_append, List.filterMap_cons, hevent,
      List.filterMap_nil]
    exact (eraseDups_concat _ _).trans (if_neg hnew) |>.symm
  · rw [hrows, List.mem_append, List.mem_singleton] at hentry
    rcases hentry with hentry | rfl
    · refine (h.latest entry hentry).concat fun hsame => absurd hentry fun hentry => ?_
      have hget := JsMap.get_of_mem hentry
      rw [← Option.some.inj (hevent.symm.trans hsame), hnone] at hget
      cases hget
    · refine latestRow_concat hevent fun other hother hsame => absurd ?_ hnew
      exact List.mem_filterMap.mpr ⟨other, hother, hsame⟩
  · rw [hrows, List.map_append, List.map_append]
    exact h.seqs.append (List.Sublist.refl _)

/-- A row that replaces an earlier one of its event. -/
theorem Folded.replace {previous : LegacyRow} (h : Folded rows events)
    (hevent : row.eventId = some eventId) (hget : events.get eventId = some previous)
    (hle : previous.revision ≤ row.revision) :
    Folded (rows ++ [row]) (events.set eventId { row with seq := previous.seq }) := by
  have hrows := JsMap.rows_set_of_some hget { row with seq := previous.seq }
  have hlatest := h.latest _ (JsMap.mem_of_get hget)
  refine ⟨?_, fun entry hentry => ?_, ?_⟩
  · rw [hrows, List.map_map, List.filterMap_append, List.filterMap_cons, hevent, List.filterMap_nil]
    refine Eq.trans (b := events.entries.rows.map Prod.fst) ?_ ?_
    · refine List.map_congr_left fun entry _ => ?_
      rw [Function.comp_apply]
      split <;> rfl
    · rw [h.keys]
      refine ((eraseDups_concat _ _).trans (if_pos ?_)).symm
      -- the event is in the map, so its key is not a new one
      by_contra hnew
      rw [h.get_eq_none.mpr hnew] at hget
      cases hget
  · rw [hrows] at hentry
    obtain ⟨old, hold, rfl⟩ := List.mem_map.mp hentry
    split
    -- this row is the latest one of its event so far
    case isTrue hsame =>
      rw [hsame]
      exact latestRow_concat hevent fun other hother hother' =>
        Nat.le_trans (hlatest.le hother hother') hle
    case isFalse hother =>
      refine (h.latest old hold).concat fun hsame => absurd ?_ hother
      exact Option.some.inj (hsame.symm.trans hevent)
  · rw [hrows, List.map_map, List.map_append]
    refine List.Sublist.trans ?_ (h.seqs.trans (List.sublist_append_left _ _))
    have hseqs : events.entries.rows.map ((·.2.seq) ∘ fun entry =>
        if entry.1 = eventId then (entry.1, { row with seq := previous.seq }) else entry) =
        events.entries.rows.map (·.2.seq) := by
      refine List.map_congr_left fun entry hentry => ?_
      rw [Function.comp_apply]
      split
      case isTrue hsame =>
        have hown := JsMap.get_of_mem hentry
        rw [hsame, hget] at hown
        rw [Option.some.inj hown]
      case isFalse => rfl
    rw [hseqs]

theorem Folded.keepRevision (h : Folded rows events) (row : LegacyRow) :
    Folded (rows ++ [row]) (keepRevision events row) := by
  rw [Conversations.keepRevision.eq_def]
  cases hidentity : row.identity with
  | none =>
      refine h.skip fun eventId hevent => ?_
      rw [MessageInput.eventId, hidentity] at hevent
      cases hevent
  | some identity =>
      have hevent : row.eventId = some identity.event_id := by rw [MessageInput.eventId, hidentity]; rfl
      have hrevision : row.revision = identity.revision := by
        rw [MessageInput.revision, hidentity]
        rfl
      dsimp only
      cases hget : events.get identity.event_id with
      | none => exact h.add hevent hget
      | some previous =>
          obtain ⟨-, -, -, -, -, hnamed, -⟩ := h.latest _ (JsMap.mem_of_get hget)
          obtain ⟨earlier, hearlier, -⟩ := Option.map_eq_some_iff.mp hnamed
          have hprevious : previous.revision = earlier.revision := by
            rw [MessageInput.revision, hearlier]
            rfl
          dsimp only
          rw [hearlier, Option.all_some]
          split
          -- an equal revision replaces as well
          case isTrue hle =>
            rw [decide_eq_true_eq, ← hprevious, ← hrevision] at hle
            exact h.replace hevent hget hle
          case isFalse hgt =>
            rw [decide_eq_true_eq, ← hprevious, ← hrevision, Nat.not_le] at hgt
            refine h.skip fun eventId hsame => ⟨previous, ?_, hgt⟩
            rw [← Option.some.inj (hevent.symm.trans hsame), hget]

theorem folded_keepRevision (rows : List LegacyRow) :
    Folded rows (rows.foldl Conversations.keepRevision .empty) := by
  -- the loop sees the rows from the first to the last
  induction rows using List.reverseRecOn with
  | nil => exact ⟨rfl, fun _ h => absurd h List.not_mem_nil, List.Sublist.refl _⟩
  | append_singleton rows row ih =>
      rw [List.foldl_append]
      exact ih.keepRevision row

def InOrder (rows : List LegacyRow) : Prop := rows.Pairwise fun a b => a.seq < b.seq

theorem InOrder.bySeq (h : InOrder rows) : bySeq rows = rows :=
  List.Pairwise.insertionSort_eq (h.imp Nat.le_of_lt)

theorem revisions_latestRevisions (h : InOrder rows) :
    Revisions rows ((latestRevisions rows).map (·.toMessageInput)) := by
  have hfolded := folded_keepRevision rows
  have horder : InOrder ((rows.foldl Conversations.keepRevision .empty).entries.rows.map Prod.snd) := by
    refine List.pairwise_map.mp ?_
    rw [List.map_map]
    exact (List.pairwise_map.mpr h).sublist hfolded.seqs
  rw [Revisions, latestRevisions, horder.bySeq, ← hfolded.keys, List.map_map, List.forall₂_map_left_iff,
    List.forall₂_map_right_iff, List.forall₂_same]
  exact hfolded.latest

end PocketCoder.Conversations
