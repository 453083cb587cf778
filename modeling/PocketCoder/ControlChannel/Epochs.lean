import PocketCoder.ControlChannel.Registration

/-!
Epochs of accepted connections. While no run is overtaken between its read,
its write and its attachment, the connections of a workspace are accepted
with increasing epochs, and the row of the workspace fences every connection
but the last. Two reconnects that read the same row are accepted with the
same epoch.
-/

namespace PocketCoder.ControlChannel

open PocketCoder.Foundation PocketCoder.Workspaces PocketCoder.Executions
open PocketCoder.Foundation.Transaction

/-! ### Invariant -/

/-- The workspace and the epoch that a run has written and not attached. -/
def Point.pending : Point → Option (String × Nat)
  | .attach row epoch => some (row.id, epoch)
  | _ => none

/-- The connection that a run has attached and not acknowledged. -/
def Point.connection : Point → Option LiveConnection
  | .workspaceCredentialsFor _ connection | .activeConnectionWorkspace _ connection
  | .restoreExec connection | .acknowledge connection => some connection
  | _ => none

/-- The point of the run with a number shows a value. -/
def ShowsAt {α : Type} (view : Point → Option α) (runs : List Registration) (i : Nat) (a : α) :
    Prop :=
  ∃ run, runs[i]? = some run ∧ view run.point = some a

/-- A later connection of a workspace has the larger epoch. -/
def Precedes (connection later : LiveConnection) : Prop :=
  connection.workspaceId = later.workspaceId → connection.epoch < later.epoch

/-- The row of a workspace has an epoch or a later one. -/
def Reached (db : Database) (id : String) (epoch : Nat) : Prop :=
  ∃ stored, storedEpoch db id = some stored ∧ epoch ≤ stored

structure Channel.Sound (channel : Channel) : Prop where
  increasing : channel.attached.Pairwise Precedes
  reached : ∀ {connection}, connection ∈ channel.attached →
    Reached channel.db connection.workspaceId connection.epoch
  written : ∀ {i id epoch}, ShowsAt Point.pending channel.runs i (id, epoch) →
    Reached channel.db id epoch
  unused : ∀ {i id epoch connection}, ShowsAt Point.pending channel.runs i (id, epoch) →
    connection ∈ channel.attached → connection.workspaceId = id → connection.epoch ≠ epoch
  distinct : ∀ {i j written}, ShowsAt Point.pending channel.runs i written →
    ShowsAt Point.pending channel.runs j written → i = j
  live : ∀ {i connection}, ShowsAt Point.connection channel.runs i connection →
    connection ∈ channel.attached ∧ connection.run = i ∧ connection ∉ channel.acked
  accepted : ∀ {connection}, connection ∈ channel.acked → connection ∈ channel.attached
  once : channel.acked.Nodup

theorem not_showsAt_nil {α : Type} {view : Point → Option α} {i : Nat} {a : α} :
    ¬ ShowsAt view [] i a := by
  rintro ⟨run, hrun, -⟩
  exact (nomatch hrun)

theorem Channel.initial_sound (db : Database) : (Channel.initial db).Sound where
  increasing := .nil
  reached h := absurd h List.not_mem_nil
  written h := absurd h not_showsAt_nil
  unused h := absurd h not_showsAt_nil
  distinct h := absurd h not_showsAt_nil
  live h := absurd h not_showsAt_nil
  accepted h := absurd h List.not_mem_nil
  once := .nil

theorem showsAt_modify {α : Type} {view : Point → Option α} {runs : List Registration}
    {i j : Nat} {point : Point} {a : α}
    (h : ShowsAt view (runs.modify i fun run => { run with point }) j a) :
    (j = i ∧ view point = some a) ∨ (j ≠ i ∧ ShowsAt view runs j a) := by
  obtain ⟨run, hrun, hview⟩ := h
  rw [List.getElem?_modify] at hrun
  cases hold : runs[j]? with
  | none =>
      rw [hold] at hrun
      exact (nomatch hrun)
  | some old =>
      rw [hold, Option.map_eq_map, Option.map_some, Option.some.injEq] at hrun
      by_cases hij : i = j
      · rw [if_pos hij] at hrun
        rw [← hrun] at hview
        exact .inl ⟨hij.symm, hview⟩
      · rw [if_neg hij] at hrun
        rw [← hrun] at hview
        exact .inr ⟨Ne.symm hij, old, hold, hview⟩

/-- The tables change, and no epoch goes back. -/
theorem Channel.Sound.withDb {channel : Channel} (h : channel.Sound) {db : Database}
    (hdb : ∀ {id epoch}, Reached channel.db id epoch → Reached db id epoch) :
    { channel with db }.Sound where
  increasing := h.increasing
  reached hconnection := hdb (h.reached hconnection)
  written hpending := hdb (h.written hpending)
  unused := h.unused
  distinct := h.distinct
  live := h.live
  accepted := h.accepted
  once := h.once

/-- The hub has no part in the invariant. -/
theorem Channel.Sound.withHub {channel : Channel} (h : channel.Sound)
    (byWorkspace : JsMap String LiveConnection) : { channel with byWorkspace }.Sound :=
  ⟨h.increasing, h.reached, h.written, h.unused, h.distinct, h.live, h.accepted, h.once⟩

/-- A run goes on and shows nothing that it did not show. -/
theorem Channel.Sound.goto {channel : Channel} (h : channel.Sound) {i : Nat} {run : Registration}
    (hrun : channel.runs[i]? = some run) {point : Point} (hpending : point.pending = none)
    (hconnection : ∀ {connection}, point.connection = some connection →
      run.point.connection = some connection) :
    (channel.goto i point).Sound := by
  have holder : ∀ {j written},
      ShowsAt Point.pending (channel.goto i point).runs j written →
      ShowsAt Point.pending channel.runs j written := by
    intro j written hshows
    rcases showsAt_modify hshows with ⟨-, hnew⟩ | ⟨-, hold⟩
    · rw [hpending] at hnew
      exact (nomatch hnew)
    · exact hold
  refine ⟨h.increasing, h.reached, fun hp => h.written (holder hp), fun hp => h.unused (holder hp),
    fun hp hp' => h.distinct (holder hp) (holder hp'), ?_, h.accepted, h.once⟩
  intro j connection hshows
  rcases showsAt_modify hshows with ⟨rfl, hnew⟩ | ⟨-, hold⟩
  · exact h.live ⟨run, hrun, hconnection hnew⟩
  · exact h.live hold

/-- Closing a run. -/
theorem Channel.Sound.close {channel : Channel} (h : channel.Sound) {i : Nat} {run : Registration}
    (hrun : channel.runs[i]? = some run) : (channel.goto i .closed).Sound :=
  h.goto hrun rfl fun hclosed => (nomatch hclosed)

theorem Channel.Sound.fail {channel : Channel} (h : channel.Sound) {i : Nat} {run : Registration}
    (hrun : channel.runs[i]? = some run) (connection : LiveConnection) :
    (channel.fail i connection).Sound :=
  (h.withHub _).close hrun

/-! ### Writing an epoch -/

theorem storedEpoch_updateAt (db : Database) (id : String) (f : WorkspaceRow → WorkspaceRow)
    (hf : ∀ row, (f row).id = row.id) (id' : String) :
    storedEpoch { db with workspaces := db.workspaces.updateAt id f hf } id' =
      if id' = id then (db.workspaces.get? id).map fun row => (f row).connectionEpoch
      else storedEpoch db id' := by
  rw [storedEpoch, storedEpoch]
  dsimp only
  rw [Table.get?_updateAt]
  by_cases hid : id' = id
  · rw [if_pos hid, if_pos hid, Option.map_map]
    rfl
  · rw [if_neg hid, if_neg hid]

theorem transitionWorkspace_epoch {req : TransitionRequest} {leases : Bool} {epoch : Nat}
    {row next : WorkspaceRow}
    (h : transitionWorkspace req leases (connectionPatch epoch) row = some next) :
    next.connectionEpoch = epoch := by
  unfold transitionWorkspace at h
  split_ifs at h
  all_goals
    rw [← Option.some.inj h]
    unfold purgedContent
    split_ifs <;> rfl

/-- A write sets the epoch of its workspace and keeps the others. -/
theorem writeEpoch_eq_some {db db' : Database} {mode : AuthMode} {id : String} {epoch : Nat}
    {leases : Bool} (h : writeEpoch db mode id epoch leases = some db') (id' : String) :
    storedEpoch db' id' =
      if id' = id then (storedEpoch db id).map fun _ => epoch else storedEpoch db id' := by
  have hstored : storedEpoch db id = (db.workspaces.get? id).map WorkspaceRow.connectionEpoch := rfl
  cases mode with
  | register =>
      unfold writeEpoch at h
      dsimp only at h
      split at h
      · exact (nomatch h)
      · rename_i row hrow
        obtain ⟨current, hcurrent, htransition⟩ := Option.bind_eq_some_iff.mp hrow
        rw [← Option.some.inj h, storedEpoch_updateAt, hstored, hcurrent]
        dsimp only [Option.map_some]
        rw [transitionWorkspace_epoch htransition]
  | reconnect =>
      rw [← Option.some.inj h, storedEpoch_updateAt, hstored, Option.map_map]
      congr 2
      funext row
      unfold updatedRow purgedContent
      split_ifs <;> rfl

theorem Reached.le {db : Database} {id : String} {epoch stored : Nat} (h : Reached db id epoch)
    (hstored : storedEpoch db id = some stored) : epoch ≤ stored := by
  obtain ⟨stored', hstored', hle⟩ := h
  rw [hstored] at hstored'
  obtain rfl := Option.some.inj hstored'
  exact hle

/-- A run writes the next epoch over the one it has read. -/
theorem Channel.Sound.write {channel : Channel} (h : channel.Sound) {i : Nat} {row : WorkspaceRow}
    (hstored : storedEpoch channel.db row.id = some row.connectionEpoch) {mode : AuthMode}
    {leases : Bool} {db : Database}
    (hwrite : writeEpoch channel.db mode row.id (row.connectionEpoch + 1) leases = some db) :
    ({ channel with db }.goto i (.attach row (row.connectionEpoch + 1))).Sound := by
  have hnext : storedEpoch db row.id = some (row.connectionEpoch + 1) := by
    rw [writeEpoch_eq_some hwrite, if_pos rfl, hstored, Option.map_some]
  have hdb : ∀ {id epoch}, Reached channel.db id epoch → Reached db id epoch := by
    intro id epoch hreached
    by_cases hid : id = row.id
    · subst hid
      exact ⟨_, hnext, Nat.le_succ_of_le (hreached.le hstored)⟩
    · obtain ⟨stored, hold, hle⟩ := hreached
      refine ⟨stored, ?_, hle⟩
      rw [writeEpoch_eq_some hwrite, if_neg hid, hold]
  -- every epoch that was shown so far is behind the one that is written
  have hfresh : ∀ {epoch}, Reached channel.db row.id epoch → epoch ≠ row.connectionEpoch + 1 := by
    intro epoch hreached
    have := hreached.le hstored
    omega
  refine ⟨h.increasing, fun hconnection => hdb (h.reached hconnection), ?_, ?_, ?_, ?_,
    h.accepted, h.once⟩
  · intro j id epoch hshows
    rcases showsAt_modify hshows with ⟨-, hnew⟩ | ⟨-, hold⟩
    · obtain ⟨rfl, rfl⟩ := Prod.mk.inj (Option.some.inj hnew)
      exact ⟨_, hnext, le_rfl⟩
    · exact hdb (h.written hold)
  · intro j id epoch connection hshows hconnection hid
    rcases showsAt_modify hshows with ⟨-, hnew⟩ | ⟨-, hold⟩
    · obtain ⟨rfl, rfl⟩ := Prod.mk.inj (Option.some.inj hnew)
      exact hfresh (hid ▸ h.reached hconnection)
    · exact h.unused hold hconnection hid
  · intro j k written hj hk
    rcases showsAt_modify hj with ⟨rfl, hnew⟩ | ⟨-, hold⟩
    · rcases showsAt_modify hk with ⟨rfl, -⟩ | ⟨-, hold⟩
      · rfl
      · rw [← Option.some.inj hnew] at hold
        exact absurd rfl (hfresh (h.written hold))
    · rcases showsAt_modify hk with ⟨rfl, hnew⟩ | ⟨-, hold'⟩
      · rw [← Option.some.inj hnew] at hold
        exact absurd rfl (hfresh (h.written hold))
      · exact h.distinct hold hold'
  · intro j connection hshows
    rcases showsAt_modify hshows with ⟨-, hnew⟩ | ⟨-, hold⟩
    · exact (nomatch hnew)
    · exact h.live hold

/-! ### Attaching and acknowledging a connection -/

/-- A run attaches the epoch that the row still has. -/
theorem Channel.Sound.attach {channel : Channel} (h : channel.Sound) {i : Nat}
    {run : Registration} (hrun : channel.runs[i]? = some run) {row : WorkspaceRow} {epoch : Nat}
    (hpoint : run.point = .attach row epoch)
    (hstored : storedEpoch channel.db row.id = some epoch) (connectionId : String) :
    (channel.attach i row ⟨row.id, connectionId, epoch, i⟩).Sound := by
  have hpending : ShowsAt Point.pending channel.runs i (row.id, epoch) :=
    ⟨run, hrun, by rw [hpoint]; rfl⟩
  refine ⟨?_, ?_, ?_, ?_, ?_, ?_, fun hacked => List.mem_append_left _ (h.accepted hacked), h.once⟩
  -- the new epoch is the stored one, which no attached connection has yet
  · refine List.pairwise_append.mpr ⟨h.increasing, List.pairwise_singleton _ _, ?_⟩
    intro connection hconnection later hlater hid
    rw [List.mem_singleton] at hlater
    subst hlater
    have hreached := h.reached hconnection
    rw [hid] at hreached
    exact lt_of_le_of_ne (hreached.le hstored) (h.unused hpending hconnection hid)
  · intro connection hconnection
    rcases List.mem_append.mp hconnection with hold | hnew
    · exact h.reached hold
    · rw [List.mem_singleton] at hnew
      subst hnew
      exact ⟨epoch, hstored, le_rfl⟩
  · intro j id epoch' hshows
    rcases showsAt_modify hshows with ⟨-, hnew⟩ | ⟨-, hold⟩
    · exact (nomatch hnew)
    · exact h.written hold
  · intro j id epoch' connection hshows hconnection hid
    rcases showsAt_modify hshows with ⟨-, hnew⟩ | ⟨hj, hold⟩
    · exact (nomatch hnew)
    · rcases List.mem_append.mp hconnection with hbefore | hnew
      · exact h.unused hold hbefore hid
      · rw [List.mem_singleton] at hnew
        subst hnew
        intro hepoch
        dsimp only at hid hepoch
        subst hid hepoch
        exact hj (h.distinct hold hpending)
  · intro j k written hj hk
    rcases showsAt_modify hj with ⟨-, hnew⟩ | ⟨-, hold⟩
    · exact (nomatch hnew)
    · rcases showsAt_modify hk with ⟨-, hnew⟩ | ⟨-, hold'⟩
      · exact (nomatch hnew)
      · exact h.distinct hold hold'
  · intro j connection hshows
    rcases showsAt_modify hshows with ⟨rfl, hnew⟩ | ⟨-, hold⟩
    · obtain rfl := Option.some.inj hnew
      refine ⟨List.mem_append_right _ (List.mem_singleton_self _), rfl, fun hacked => ?_⟩
      exact h.unused hpending (h.accepted hacked) rfl rfl
    · obtain ⟨hattached, hidentity, hacked⟩ := h.live hold
      exact ⟨List.mem_append_left _ hattached, hidentity, hacked⟩

/-- A run acknowledges its connection, once. -/
theorem Channel.Sound.acknowledge {channel : Channel} (h : channel.Sound) {i : Nat}
    {run : Registration} (hrun : channel.runs[i]? = some run) {connection : LiveConnection}
    (hpoint : run.point = .acknowledge connection) :
    (channel.acknowledge i connection).Sound := by
  obtain ⟨hattached, hidentity, hfresh⟩ := h.live ⟨run, hrun, by rw [hpoint]; rfl⟩
  -- the run that acknowledges shows nothing any more
  have holder : ∀ {α : Type} {view : Point → Option α} {j : Nat} {a : α}, view .closed = none →
      ShowsAt view (channel.acknowledge i connection).runs j a →
      j ≠ i ∧ ShowsAt view channel.runs j a := by
    intro α view j a hclosed hshows
    rcases showsAt_modify hshows with ⟨-, hnew⟩ | hold
    · rw [hclosed] at hnew
      exact (nomatch hnew)
    · exact hold
  refine ⟨h.increasing, h.reached, fun hp => h.written (holder rfl hp).2,
    fun hp => h.unused (holder rfl hp).2,
    fun hp hp' => h.distinct (holder rfl hp).2 (holder rfl hp').2, ?_, ?_, ?_⟩
  · intro j other hshows
    obtain ⟨hj, hold⟩ := holder rfl hshows
    obtain ⟨hother, hothers, hacked⟩ := h.live hold
    refine ⟨hother, hothers, fun hmem => ?_⟩
    rcases List.mem_append.mp hmem with hbefore | hnew
    · exact hacked hbefore
    · rw [List.mem_singleton] at hnew
      rw [hnew, hidentity] at hothers
      exact hj hothers.symm
  · intro other hother
    rcases List.mem_append.mp hother with hbefore | hnew
    · exact h.accepted hbefore
    · rw [List.mem_singleton] at hnew
      exact hnew ▸ hattached
  · refine List.nodup_append.mpr ⟨h.once, List.nodup_singleton _, ?_⟩
    intro other hother last hlast heq
    rw [List.mem_singleton] at hlast
    rw [heq, hlast] at hother
    exact hfresh hother

/-! ### Reads -/

/-- The row that a run has read and not written. -/
def Point.read : Point → Option WorkspaceRow
  | .sourceCredentialFor row | .write row => some row
  | _ => none

/-- A reconnect is for a workspace that was launched. The row that a
registration has read has its epoch for as long as the workspace is not
launched, which is as long as the transition to `connected` succeeds. -/
structure Registration.Timely (db : Database) (run : Registration) : Prop where
  launched : run.auth.mode = .reconnect → Launched db run.auth.workspaceId
  same : ∀ {row}, run.point.read = some row → row.id = run.auth.workspaceId
  unchanged : ∀ {row}, run.point.read = some row → run.auth.mode = .register →
    ¬Launched db row.id → storedEpoch db row.id = some row.connectionEpoch

def Channel.Timely (channel : Channel) : Prop := ∀ run ∈ channel.runs, run.Timely channel.db

theorem Channel.initial_timely (db : Database) : (Channel.initial db).Timely := fun _ hrun =>
  absurd hrun List.not_mem_nil

theorem Registration.Timely.withDb {db db' : Database} {run : Registration} (h : run.Timely db)
    (hlaunched : ∀ {id}, Launched db id → Launched db' id)
    (hepochs : ∀ {id epoch}, ¬Launched db' id → storedEpoch db id = some epoch →
      storedEpoch db' id = some epoch) : run.Timely db' where
  launched hmode := hlaunched (h.launched hmode)
  same := h.same
  unchanged hread hmode hnot :=
    hepochs hnot (h.unchanged hread hmode fun hbefore => hnot (hlaunched hbefore))

/-- A run that has nothing read. -/
theorem Registration.Timely.goto {db : Database} {run : Registration} (h : run.Timely db)
    {point : Point} (hpoint : point.read = none) : { run with point }.Timely db where
  launched := h.launched
  same hread := by
    rw [hpoint] at hread
    cases hread
  unchanged hread := by
    rw [hpoint] at hread
    cases hread

theorem Channel.Timely.withRun {channel : Channel} (h : channel.Timely) {i : Nat}
    {run : Registration} (hrun : channel.runs[i]? = some run) {point : Point}
    (hpoint : { run with point }.Timely channel.db) : (channel.goto i point).Timely := by
  intro other hother
  obtain ⟨j, hj⟩ := List.getElem?_of_mem hother
  rw [Channel.goto, List.getElem?_modify] at hj
  split_ifs at hj with hij
  · subst hij
    rw [hrun, Option.map_eq_map, Option.map_some, Option.some.injEq] at hj
    exact hj ▸ hpoint
  · rw [Option.map_eq_map, Option.map_id'] at hj
    exact h other (List.mem_of_getElem? hj)

theorem Channel.Timely.goto {channel : Channel} (h : channel.Timely) {i : Nat}
    {run : Registration} (hrun : channel.runs[i]? = some run) {point : Point}
    (hpoint : point.read = none) : (channel.goto i point).Timely :=
  h.withRun hrun ((h run (List.mem_of_getElem? hrun)).goto hpoint)

/-- What a run does with the row that it reads. -/
theorem onRow_timely {config : Config} {db : Database} {run : Registration} (h : run.Timely db) :
    { run with point := onRow config run (db.workspaces.get? run.auth.workspaceId) }.Timely db := by
  cases hrow : db.workspaces.get? run.auth.workspaceId with
  | none => exact h.goto rfl
  | some row =>
      have hread : (onRow config run (some row)).read = none ∨
          (onRow config run (some row)).read = some row := by
        unfold onRow
        dsimp only
        split_ifs <;> first | exact .inl rfl | exact .inr rfl
      rcases hread with hread | hread
      · exact h.goto hread
      · have hid : row.id = run.auth.workspaceId := Table.key_of_get? hrow
        refine ⟨h.launched, ?_, ?_⟩
        · intro other hother
          obtain rfl := Option.some.inj (hread.symm.trans hother)
          exact hid
        · intro other hother _ _
          obtain rfl := Option.some.inj (hread.symm.trans hother)
          rw [storedEpoch, hid, hrow, Option.map_some]

theorem transitionWorkspace_launched {req : TransitionRequest} {leases : Bool}
    {patch : WorkspaceRow → WorkspaceRow} {row next : WorkspaceRow}
    (h : transitionWorkspace req leases patch row = some next) :
    row.state ∈ req.sources ∧ next.state = req.target ∧
      (launched row.state = true → launched next.state = true) := by
  unfold transitionWorkspace at h
  split_ifs at h with hpermits
  rw [permitsTransition, Bool.not_eq_true, Bool.not_eq_false', Bool.and_eq_true,
    Bool.and_eq_true] at hpermits
  rw [← Option.some.inj h]
  exact ⟨List.contains_iff_mem.mp hpermits.1.1, rfl, launched_of_canTransition hpermits.1.2⟩

/-- A transition to `connected` is from `provisioning`. -/
theorem writeEpoch_register {db db' : Database} {id : String} {epoch : Nat} {leases : Bool}
    (h : writeEpoch db .register id epoch leases = some db') :
    ¬Launched db id ∧ Launched db' id := by
  unfold writeEpoch at h
  dsimp only at h
  split at h
  · cases h
  · rename_i next hnext
    obtain ⟨row, hrow, htransition⟩ := Option.bind_eq_some_iff.mp hnext
    obtain ⟨hsource, htarget, -⟩ := transitionWorkspace_launched htransition
    refine ⟨?_, ?_⟩
    · rintro ⟨other, hother, hlaunched⟩
      obtain rfl := Option.some.inj (hrow.symm.trans hother)
      rw [List.mem_singleton.mp hsource] at hlaunched
      cases hlaunched
    · rw [← Option.some.inj h]
      refine ⟨{ next with id := row.id }, ?_, ?_⟩
      · rw [Table.get?_updateAt, if_pos rfl, hrow, Option.map_some]
      · dsimp only
        rw [htarget]
        rfl

/-- A write keeps the other workspaces, and no workspace is launched again. -/
theorem writeEpoch_launched {db db' : Database} {mode : AuthMode} {id : String} {epoch : Nat}
    {leases : Bool} (h : writeEpoch db mode id epoch leases = some db') {id' : String}
    (hlaunched : Launched db id') : Launched db' id' := by
  cases mode with
  | register =>
      by_cases hid : id' = id
      · exact hid ▸ (writeEpoch_register h).2
      · obtain ⟨row, hrow, hstate⟩ := hlaunched
        unfold writeEpoch at h
        dsimp only at h
        split at h
        · cases h
        · rw [← Option.some.inj h]
          exact ⟨row, by rw [Table.get?_updateAt, if_neg hid, hrow], hstate⟩
  | reconnect =>
      obtain ⟨row, hrow, hstate⟩ := hlaunched
      rw [← Option.some.inj h]
      by_cases hid : id' = id
      · subst hid
        refine ⟨_, by rw [Table.get?_updateAt, if_pos rfl, hrow, Option.map_some], ?_⟩
        unfold updatedRow purgedContent
        split_ifs <;> exact hstate
      · exact ⟨row, by rw [Table.get?_updateAt, if_neg hid, hrow], hstate⟩

/-- A run writes the row of a workspace that has the epoch it has read, when no
reconnect was overtaken. -/
theorem Registration.Timely.stored {db db' : Database} {run : Registration} (h : run.Timely db)
    {row : WorkspaceRow} (hread : run.point.read = some row) {epoch : Nat} {leases : Bool}
    (hwrite : writeEpoch db run.auth.mode row.id epoch leases = some db')
    (hundisturbed : run.auth.mode = .reconnect → storedEpoch db row.id = some row.connectionEpoch) :
    storedEpoch db row.id = some row.connectionEpoch := by
  cases hmode : run.auth.mode with
  | register => exact h.unchanged hread hmode (writeEpoch_register (hmode ▸ hwrite)).1
  | reconnect => exact hundisturbed hmode

/-- After a write, the workspace is one that was launched. -/
theorem Registration.Timely.written {db db' : Database} {run other : Registration}
    (h : run.Timely db) (hother : other.Timely db) {row : WorkspaceRow}
    (hread : run.point.read = some row) {epoch : Nat} {leases : Bool}
    (hwrite : writeEpoch db run.auth.mode row.id epoch leases = some db') : other.Timely db' := by
  refine hother.withDb (writeEpoch_launched hwrite) fun hnot hstored => ?_
  rename_i id stored
  by_cases hid : id = row.id
  · refine absurd ?_ hnot
    rw [hid]
    cases hmode : run.auth.mode with
    | register => exact (writeEpoch_register (hmode ▸ hwrite)).2
    | reconnect =>
        refine writeEpoch_launched hwrite ?_
        rw [h.same hread]
        exact h.launched hmode
  · rw [writeEpoch_eq_some hwrite, if_neg hid, hstored]

theorem advance_timely {config : Config} {channel : Channel} (h : channel.Timely) {i : Nat}
    {run : Registration} (hrun : channel.runs[i]? = some run) (answer : Answer) :
    (advance config channel i run answer).Timely := by
  have hself := h run (List.mem_of_getElem? hrun)
  unfold advance
  cases hpoint : run.point with
  | getWorkspace => exact h.withRun hrun (onRow_timely hself)
  | sourceCredentialFor row =>
      dsimp only
      split_ifs
      · refine h.withRun hrun ⟨hself.launched, ?_, ?_⟩
        · exact fun hread => hself.same (by rw [hpoint]; exact hread)
        · exact fun hread => hself.unchanged (by rw [hpoint]; exact hread)
      · exact h.goto hrun rfl
  | write row =>
      dsimp only
      split
      · exact h.goto hrun rfl
      · rename_i db hwrite
        have hread : run.point.read = some row := by
          rw [hpoint]
          rfl
        -- the write of one run keeps what the others have read
        have hdb : Channel.Timely { channel with db } := fun other hother =>
          hself.written (h other hother) hread hwrite
        split_ifs
        · exact hdb.goto hrun rfl
        · exact h.goto hrun rfl
  | attach row epoch =>
      dsimp only
      split_ifs
      · exact h.goto hrun rfl
      · exact h.goto hrun rfl
  | workspaceCredentialsFor row connection =>
      dsimp only
      split_ifs <;> exact h.goto hrun rfl
  | activeConnectionWorkspace row connection =>
      dsimp only
      split_ifs <;> exact h.goto hrun rfl
  | restoreExec connection =>
      dsimp only
      split_ifs <;> exact h.goto hrun rfl
  | acknowledge connection =>
      dsimp only
      split_ifs <;> exact h.goto hrun rfl
  | closed => exact h

theorem step_timely {config : Config} {channel channel' : Channel} {event : Event}
    (hstep : Step config channel event channel') (h : channel.Timely) : channel'.Timely := by
  cases hstep with
  | registered connectionId templateDigest hauth =>
      intro run hrun
      rcases List.mem_append.mp hrun with hold | hnew
      · exact h run hold
      · rw [List.mem_singleton.mp hnew]
        exact ⟨hauth, fun hread => (by cases hread), fun hread => (by cases hread)⟩
  | advance answer hrun => exact advance_timely h hrun answer
  | store hkeeps =>
      exact fun run hrun => (h run hrun).withDb hkeeps.launched fun _ => hkeeps.epochs
  | drop workspaceId => exact h
  | restart =>
      intro run hrun
      obtain ⟨old, hold, rfl⟩ := List.mem_map.mp hrun
      exact (h old hold).goto rfl

/-! ### Runs -/

/-- No other run has written the row since this run read it, when a reconnect
writes, or since this run wrote it, when it attaches. -/
def Undisturbed (channel : Channel) : Event → Prop
  | .advance i _ => ∀ run, channel.runs[i]? = some run →
      match run.point with
      | .write row => run.auth.mode = .reconnect →
          storedEpoch channel.db row.id = some row.connectionEpoch
      | .attach row epoch => storedEpoch channel.db row.id = some epoch
      | _ => True
  | _ => True

def UndisturbedStep (config : Config) (channel : Channel) (event : Event) (channel' : Channel) :
    Prop :=
  Step config channel event channel' ∧ Undisturbed channel event

theorem onRow_shows_nothing (config : Config) (run : Registration) (row : Option WorkspaceRow) :
    (onRow config run row).pending = none ∧ (onRow config run row).connection = none := by
  cases row with
  | none => exact ⟨rfl, rfl⟩
  | some row =>
      unfold onRow
      dsimp only
      split_ifs <;> exact ⟨rfl, rfl⟩

/-- One step of a run that was not overtaken. -/
theorem advance_sound {config : Config} {channel : Channel} (h : channel.Sound)
    (htimely : channel.Timely) {i : Nat} {run : Registration}
    (hrun : channel.runs[i]? = some run) {answer : Answer}
    (hundisturbed : Undisturbed channel (.advance i answer)) :
    (advance config channel i run answer).Sound := by
  have hcondition := hundisturbed run hrun
  unfold advance
  cases hpoint : run.point with
  | getWorkspace =>
      obtain ⟨hpending, hconnection⟩ :=
        onRow_shows_nothing config run (channel.db.workspaces.get? run.auth.workspaceId)
      refine h.goto hrun hpending fun hnew => ?_
      rw [hconnection] at hnew
      exact (nomatch hnew)
  | sourceCredentialFor row =>
      dsimp only
      split_ifs
      · exact h.goto hrun rfl fun hnew => (nomatch hnew)
      · exact h.close hrun
  | write row =>
      rw [hpoint] at hcondition
      dsimp only
      split
      · exact h.close hrun
      · rename_i db hwrite
        have hread : run.point.read = some row := by
          rw [hpoint]
          rfl
        split_ifs
        -- a registration's own guard, or the condition of a reconnect, has the row as it was read
        · exact h.write ((htimely run (List.mem_of_getElem? hrun)).stored hread hwrite hcondition)
            hwrite
        · exact h.close hrun
  | attach row epoch =>
      rw [hpoint] at hcondition
      dsimp only
      split_ifs
      · exact h.attach hrun hpoint hcondition run.connectionId
      · exact h.close hrun
  | workspaceCredentialsFor row connection =>
      dsimp only
      split_ifs
      · refine h.goto hrun rfl fun hnew => ?_
        rw [hpoint]
        exact hnew
      · exact h.fail hrun connection
  | activeConnectionWorkspace row connection =>
      dsimp only
      split_ifs
      · exact h.close hrun
      · refine h.goto hrun rfl fun hnew => ?_
        rw [hpoint]
        exact hnew
      · refine h.goto hrun rfl fun hnew => ?_
        rw [hpoint]
        exact hnew
  | restoreExec connection =>
      dsimp only
      split_ifs
      · refine h.goto hrun rfl fun hnew => ?_
        rw [hpoint]
        exact hnew
      · exact h.fail hrun connection
  | acknowledge connection =>
      dsimp only
      split_ifs
      · exact h.acknowledge hrun hpoint
      · exact h.fail hrun connection
  | closed => exact h

/-- The runs change, and show nothing that they did not show. -/
theorem Channel.Sound.withRuns {channel : Channel} (h : channel.Sound) {runs : List Registration}
    (hruns : ∀ {α : Type} {view : Point → Option α} {i : Nat} {a : α}, view .getWorkspace = none →
      view .closed = none → ShowsAt view runs i a → ShowsAt view channel.runs i a) :
    { channel with runs }.Sound where
  increasing := h.increasing
  reached := h.reached
  written hpending := h.written (hruns rfl rfl hpending)
  unused hpending := h.unused (hruns rfl rfl hpending)
  distinct hpending hpending' := h.distinct (hruns rfl rfl hpending) (hruns rfl rfl hpending')
  live hlive := h.live (hruns rfl rfl hlive)
  accepted := h.accepted
  once := h.once

theorem step_sound {config : Config} {channel channel' : Channel} {event : Event}
    (hstep : UndisturbedStep config channel event channel')
    (h : channel.Sound ∧ channel.Timely) : channel'.Sound ∧ channel'.Timely := by
  obtain ⟨hstep, hundisturbed⟩ := hstep
  obtain ⟨h, htimely⟩ := h
  refine ⟨?_, step_timely hstep htimely⟩
  cases hstep with
  | registered connectionId templateDigest =>
      refine h.withRuns fun hfirst _ hshows => ?_
      obtain ⟨run, hrun, hview⟩ := hshows
      rw [List.getElem?_append] at hrun
      split_ifs at hrun
      · exact ⟨run, hrun, hview⟩
      · obtain rfl := List.mem_singleton.mp (List.mem_of_getElem? hrun)
        rw [hfirst] at hview
        exact (nomatch hview)
  | advance answer hrun => exact advance_sound h htimely hrun hundisturbed
  | store hkeeps =>
      refine h.withDb fun hreached => ?_
      obtain ⟨stored, hstored, hle⟩ := hreached
      exact ⟨stored, hkeeps.epochs hstored, hle⟩
  | drop workspaceId => exact h.withHub _
  | restart =>
      -- the connections of the process are gone, and every run is closed
      refine (h.withHub .empty).withRuns fun _ hclosed hshows => ?_
      obtain ⟨run, hrun, hview⟩ := hshows
      rw [List.getElem?_map, Option.map_eq_some_iff] at hrun
      obtain ⟨old, -, rfl⟩ := hrun
      rw [hclosed] at hview
      exact (nomatch hview)

/-- No operation that is fenced by the epoch of a connection is accepted. -/
structure Fenced (db : Database) (connection : LiveConnection) : Prop where
  observe : ∀ (execution : WorkloadExecutionReference) (fingerprint : String)
    (phase : ExecutionPhase) (now : Nat) (outcome : JsonValue) (db' : Database),
    execution.workspaceId = connection.workspaceId →
    observe execution fingerprint phase connection.epoch now outcome db ≠ .ok (true, db')
  markWorkspaceRuntimeReady : ∀ (incarnationId : String) (now : Nat) (db' : Database),
    markWorkspaceRuntimeReady connection.workspaceId incarnationId connection.epoch now db ≠
      .ok (true, db')
  recordFiniteProcess : ∀ (fact : FiniteProcessFact) (db' : Database),
    recordFiniteProcess connection.workspaceId connection.epoch fact db ≠ .ok (true, db')
  transition : ∀ (req : TransitionRequest) (leases : Bool) (patch : WorkspaceRow → WorkspaceRow),
    req.expectedConnectionEpoch = some connection.epoch →
    (db.workspaces.get? connection.workspaceId).bind (transitionWorkspace req leases patch) = none

/-- The row has left the epoch behind. -/
theorem fenced_of_lt {db : Database} {connection : LiveConnection} {stored : Nat}
    (hstored : storedEpoch db connection.workspaceId = some stored)
    (hlt : connection.epoch < stored) : Fenced db connection := by
  -- each of the four compares the epoch with that of the row
  have hrow : ∀ row, db.workspaces.get? connection.workspaceId = some row →
      row.connectionEpoch ≠ connection.epoch := by
    intro row hrow
    rw [storedEpoch, hrow, Option.map_some, Option.some.injEq] at hstored
    omega
  refine ⟨?_, ?_, ?_, ?_⟩
  · intro execution fingerprint phase now outcome db' hid h
    obtain ⟨workspace, record, hworkspace, -, h⟩ := withOwner_eq_ok h
    rw [hid] at hworkspace
    rw [if_pos (by simp [hrow workspace hworkspace])] at h
    exact absurd (pure_eq_ok.mp h).1 (by simp)
  · intro incarnationId now db' h
    rw [markWorkspaceRuntimeReady, get_bind] at h
    cases hget : db.workspaces.get? connection.workspaceId with
    | none =>
        rw [hget] at h
        exact absurd (pure_eq_ok.mp h).1 (by simp)
    | some row =>
        rw [hget] at h
        dsimp only at h
        rw [if_neg (by simp [hrow row hget])] at h
        exact absurd (pure_eq_ok.mp h).1 (by simp)
  · intro fact db' h
    obtain ⟨-, h⟩ := require_bind_eq_ok.mp h
    rw [get_bind] at h
    cases hget : db.workspaces.get? connection.workspaceId with
    | none =>
        rw [hget] at h
        exact absurd (pure_eq_ok.mp h).1 (by simp)
    | some row =>
        rw [hget] at h
        dsimp only at h
        rw [if_neg (by simp [recordsFact, hrow row hget])] at h
        exact absurd (pure_eq_ok.mp h).1 (by simp)
  · intro req leases patch hexpected
    cases hget : db.workspaces.get? connection.workspaceId with
    | none => rfl
    | some row => exact transitionWorkspace_of_epoch hexpected (hrow row hget)

/-- A connection that another one of its workspace was accepted after. -/
theorem Channel.Sound.superseded {channel : Channel} (h : channel.Sound)
    {connection later : LiveConnection} (hsub : [connection, later].Sublist channel.attached)
    (hid : connection.workspaceId = later.workspaceId) : Fenced channel.db connection := by
  have hprecedes : Precedes connection later :=
    (List.pairwise_pair.mp (h.increasing.sublist hsub))
  obtain ⟨stored, hstored, hle⟩ := h.reached (hsub.subset (by simp) : later ∈ channel.attached)
  exact fenced_of_lt (hid ▸ hstored) (lt_of_lt_of_le (hprecedes hid) hle)

/-- Distinct connections of a workspace have distinct epochs. -/
theorem Channel.Sound.epoch_ne {channel : Channel} (h : channel.Sound)
    {connection other : LiveConnection} (hconnection : connection ∈ channel.attached)
    (hother : other ∈ channel.attached) (hne : connection ≠ other)
    (hid : connection.workspaceId = other.workspaceId) : connection.epoch ≠ other.epoch := by
  have hforward : channel.attached.Pairwise fun a b =>
      a ≠ b → a.workspaceId = b.workspaceId → a.epoch ≠ b.epoch :=
    h.increasing.imp fun hprecedes _ hsame => (hprecedes hsame).ne
  have hbackward : channel.attached.Pairwise (flip fun a b =>
      a ≠ b → a.workspaceId = b.workspaceId → a.epoch ≠ b.epoch) :=
    h.increasing.imp fun hprecedes _ hsame => (hprecedes hsame.symm).ne'
  exact List.Pairwise.forall_of_forall_of_flip (fun _ _ hself => absurd rfl hself) hforward
    hbackward hconnection hother hne hid

/-- The connections of every workspace are accepted with increasing epochs
and acknowledged with distinct ones, and the superseded ones are fenced. -/
theorem epochs_increase {config : Config} {db : Database} {events : List Event}
    {channel : Channel}
    (hrun : Run (UndisturbedStep config) (Channel.initial db) events channel) :
    channel.attached.Pairwise Precedes ∧
      (∀ connection ∈ channel.acked, connection ∈ channel.attached) ∧
      channel.acked.Pairwise (fun connection other =>
        connection.workspaceId = other.workspaceId → connection.epoch ≠ other.epoch) ∧
      ∀ connection later, [connection, later].Sublist channel.attached →
        connection.workspaceId = later.workspaceId → Fenced channel.db connection := by
  obtain ⟨hsound, -⟩ := hrun.invariant step_sound
    ⟨Channel.initial_sound db, Channel.initial_timely db⟩
  refine ⟨hsound.increasing, fun _ => hsound.accepted, ?_, fun _ _ => hsound.superseded⟩
  refine hsound.once.imp_of_mem fun hconnection hother hne => ?_
  exact hsound.epoch_ne (hsound.accepted hconnection) (hsound.accepted hother) hne

/-! ### Two supervisors of one workspace -/

def sampleConfig : Config where
  checkpointTransfers := false
  restores _ := false

/-- A workspace whose supervisor was accepted with epoch 1. -/
def connectedRow : WorkspaceRow where
  id := "workspace"
  principalId := "principal"
  templateName := "template"
  templateDigest := "digest"
  state := .connected
  providerRef := none
  runtimeRegistration := none
  processExecution := none
  finiteProcess := none
  connectionEpoch := 1
  deadlineAt := 1
  createdAt := 0
  purgeRequestedAt := none

def connectedStore : Database where
  workspaces := ⟨[connectedRow], by simp⟩
  conversationRequests := .empty
  principals := .empty
  inputManifests := .empty
  inputObjects := .empty

def reconnect : WsAuth := ⟨"workspace", .reconnect⟩

/-- Every call returns. -/
def returned : Answer := ⟨true, true, 0⟩

def register : WsAuth := ⟨"workspace", .register⟩

theorem reconnect_authenticated : Authenticated connectedStore reconnect := fun _ =>
  ⟨connectedRow, rfl, rfl⟩

theorem register_authenticated (db : Database) : Authenticated db register := fun h =>
  absurd h (by decide)

/-- A workspace that waits for its supervisor. -/
def provisioningStore : Database :=
  { connectedStore with
    workspaces := ⟨[{ connectedRow with state := .provisioning, connectionEpoch := 0 }], by simp⟩ }

/-- Two registrations read the same row and only one of them is accepted, which
a reconnect supersedes. -/
theorem epochs_increase_registers :
    ∃ channel, Run (UndisturbedStep sampleConfig) (Channel.initial provisioningStore)
        [.registered register "a" "digest", .registered register "b" "digest",
          .advance 0 returned, .advance 1 returned, .advance 0 returned, .advance 1 returned,
          .advance 0 returned, .advance 1 returned, .advance 0 returned,
          .registered reconnect "c" "digest", .advance 2 returned, .advance 2 returned,
          .advance 2 returned] channel ∧
      channel.attached = [⟨"workspace", "a", 1, 0⟩, ⟨"workspace", "c", 2, 2⟩] ∧
      Fenced channel.db ⟨"workspace", "a", 1, 0⟩ := by
  have hundisturbed : ∀ {channel : Channel} {i : Nat} {run : Registration},
      channel.runs[i]? = some run →
      (match run.point with
        | .write row => run.auth.mode = .reconnect →
            storedEpoch channel.db row.id = some row.connectionEpoch
        | .attach row epoch => storedEpoch channel.db row.id = some epoch
        | _ => True) → Undisturbed channel (.advance i returned) := by
    intro channel i run hrun hcondition other hother
    obtain rfl := Option.some.inj (hrun.symm.trans hother)
    exact hcondition
  have hrun : ∃ channel, Run (UndisturbedStep sampleConfig) (Channel.initial provisioningStore)
        [.registered register "a" "digest", .registered register "b" "digest",
          .advance 0 returned, .advance 1 returned, .advance 0 returned, .advance 1 returned,
          .advance 0 returned, .advance 1 returned, .advance 0 returned,
          .registered reconnect "c" "digest", .advance 2 returned, .advance 2 returned,
          .advance 2 returned] channel ∧
      channel.attached = [⟨"workspace", "a", 1, 0⟩, ⟨"workspace", "c", 2, 2⟩] := by
    refine ⟨_, .cons ⟨.registered _ _ (register_authenticated _), trivial⟩
      (.cons ⟨.registered _ _ (register_authenticated _), trivial⟩
      (.cons ⟨.advance _ rfl, hundisturbed rfl trivial⟩
      (.cons ⟨.advance _ rfl, hundisturbed rfl trivial⟩
      (.cons ⟨.advance _ rfl, hundisturbed rfl trivial⟩
      (.cons ⟨.advance _ rfl, hundisturbed rfl trivial⟩
      (.cons ⟨.advance _ rfl, hundisturbed rfl fun h => absurd h (by decide)⟩
      (.cons ⟨.advance _ rfl, hundisturbed rfl fun h => absurd h (by decide)⟩
      (.cons ⟨.advance _ rfl, hundisturbed rfl rfl⟩
      (.cons ⟨.registered _ _ fun _ => ⟨_, rfl, rfl⟩, trivial⟩
      (.cons ⟨.advance _ rfl, hundisturbed rfl trivial⟩
      (.cons ⟨.advance _ rfl, hundisturbed rfl fun _ => rfl⟩
      (.cons ⟨.advance _ rfl, hundisturbed rfl rfl⟩ (.nil _))))))))))))), rfl⟩
  obtain ⟨channel, hrun, hattached⟩ := hrun
  refine ⟨channel, hrun, hattached, ?_⟩
  exact (epochs_increase hrun).2.2.2 _ ⟨"workspace", "c", 2, 2⟩ (hattached ▸ List.Sublist.refl _)
    rfl

/-- Two reconnects that read the same row are both accepted and acknowledged
with epoch 2, and the first one, superseded, is not fenced. -/
theorem epochs_collide :
    ∃ channel, Run (Step sampleConfig) (Channel.initial connectedStore)
        [.registered reconnect "a" "digest", .registered reconnect "b" "digest",
          .advance 0 returned, .advance 1 returned, .advance 0 returned, .advance 1 returned,
          .advance 0 returned, .advance 0 returned, .advance 0 returned, .advance 0 returned,
          .advance 1 returned, .advance 1 returned, .advance 1 returned, .advance 1 returned]
        channel ∧
      channel.attached = [⟨"workspace", "a", 2, 0⟩, ⟨"workspace", "b", 2, 1⟩] ∧
      channel.acked = [⟨"workspace", "a", 2, 0⟩, ⟨"workspace", "b", 2, 1⟩] ∧
      ¬ channel.attached.Pairwise Precedes := by
  refine ⟨_, .cons (.registered _ _ reconnect_authenticated)
    (.cons (.registered _ _ reconnect_authenticated) (.cons (.advance _ rfl)
    (.cons (.advance _ rfl) (.cons (.advance _ rfl) (.cons (.advance _ rfl)
    (.cons (.advance _ rfl) (.cons (.advance _ rfl) (.cons (.advance _ rfl)
    (.cons (.advance _ rfl) (.cons (.advance _ rfl) (.cons (.advance _ rfl)
    (.cons (.advance _ rfl) (.cons (.advance _ rfl) (.nil _)))))))))))))), rfl, rfl, ?_⟩
  intro h
  exact absurd (List.pairwise_pair.mp h rfl) (lt_irrefl 2)

end PocketCoder.ControlChannel
