import Mathlib.Data.Finset.Max
import PocketCoder.Conversations.LiveTurns

/-!
What is committed of a turn does not depend on the order of its frames.

`Keeps frames turn` says that an open turn has, for each event, the latest
revision among the frames. A frame that is applied keeps this for one frame
more, whether it is recorded or stale, so the messages of the commit are
determined by the set of the frames.
-/

namespace PocketCoder.Conversations

open PocketCoder.Foundation PocketCoder.Executions

variable {frames frames' done : List IdentifiedMessage} {message last : IdentifiedMessage}
  {turn : OpenTurn}

/-! ### Latest revisions -/

/-- A frame with the highest revision of its event. -/
def Latest (frames : List IdentifiedMessage) (message : IdentifiedMessage) : Prop :=
  message ∈ frames ∧ ∀ other ∈ frames, other.identity.event_id = message.identity.event_id →
    other.identity.revision ≤ message.identity.revision

/-- A revision of an event is one message. -/
def Unambiguous (frames : List IdentifiedMessage) : Prop :=
  ∀ message ∈ frames, ∀ other ∈ frames, other.identity.event_id = message.identity.event_id →
    other.identity.revision = message.identity.revision → other = message

theorem latest_congr (h : ∀ message, message ∈ frames ↔ message ∈ frames') :
    Latest frames message ↔ Latest frames' message := by
  rw [Latest, Latest, h]
  exact and_congr_right fun _ => forall_congr' fun other => by rw [h]

/-- An event with a frame has a latest one. -/
theorem exists_latest (h : message ∈ frames) :
    ∃ latest, Latest frames latest ∧ latest.identity.event_id = message.identity.event_id ∧
      message.identity.revision ≤ latest.identity.revision := by
  have hmem : ∀ other, other ∈ (frames.filter
      (·.identity.event_id = message.identity.event_id)).toFinset ↔
        other ∈ frames ∧ other.identity.event_id = message.identity.event_id := by
    simp
  obtain ⟨latest, hlatest, hmax⟩ := Finset.exists_max_image _
    (fun other : IdentifiedMessage => other.identity.revision) ⟨message, (hmem _).mpr ⟨h, rfl⟩⟩
  obtain ⟨hframe, hevent⟩ := (hmem _).mp hlatest
  refine ⟨latest, ⟨hframe, fun other hother hsame => ?_⟩, hevent, hmax _ ((hmem _).mpr ⟨h, rfl⟩)⟩
  exact hmax other ((hmem _).mpr ⟨hother, hsame.trans hevent⟩)

/-- The turn has the latest revision of each event. -/
def Keeps (frames : List IdentifiedMessage) (turn : OpenTurn) : Prop :=
  ∀ event_id message, turn.events.get event_id = some message ↔
    message.identity.event_id = event_id ∧ Latest frames message

theorem keeps_nil (h : turn.events = .empty) : Keeps [] turn := by
  intro event_id message
  rw [h, JsMap.get_empty]
  exact ⟨fun h => (nomatch h), fun h => absurd h.2.1 List.not_mem_nil⟩

theorem Keeps.stale (h : Keeps done turn) (hunambiguous : Unambiguous (done ++ [message]))
    (hstale : turn.isStale message = true) : Keeps (done ++ [message]) turn := by
  obtain ⟨current, hcurrent, hle⟩ : ∃ current,
      turn.events.get message.identity.event_id = some current ∧
        message.identity.revision ≤ current.identity.revision := by
    rw [OpenTurn.isStale] at hstale
    cases hget : turn.events.get message.identity.event_id with
    | none =>
        rw [hget] at hstale
        cases hstale
    | some current =>
        rw [hget, Option.any_some, decide_eq_true_eq] at hstale
        exact ⟨current, rfl, hstale⟩
  obtain ⟨hevent, hlatest⟩ := (h _ _).mp hcurrent
  intro event_id other
  rw [h]
  refine and_congr_right fun hother => ⟨fun hold => ?_, fun hnew => ?_⟩
  · refine ⟨List.mem_append_left _ hold.1, fun frame hframe hsame => ?_⟩
    rcases List.mem_append.mp hframe with hframe | hframe
    · exact hold.2 frame hframe hsame
    · rw [List.mem_singleton.mp hframe] at hsame ⊢
      exact hle.trans (hold.2 current hlatest.1 (hevent.trans hsame))
  · have hmem : other ∈ done := by
      rcases List.mem_append.mp hnew.1 with hmem | hmem
      · exact hmem
      · obtain rfl := List.mem_singleton.mp hmem
        have hge := hnew.2 current (List.mem_append_left _ hlatest.1) hevent
        rw [← hunambiguous other hnew.1 current (List.mem_append_left _ hlatest.1) hevent
          (hge.antisymm hle)]
        exact hlatest.1
    exact ⟨hmem, fun frame hframe => hnew.2 frame (List.mem_append_left _ hframe)⟩

theorem Keeps.recorded (h : Keeps done turn) (hstale : ¬turn.isStale message = true) :
    Keeps (done ++ [message]) (turn.withMessage message) := by
  -- a message that is not stale has the greatest revision of its event so far
  have hnewer : ∀ frame ∈ done, frame.identity.event_id = message.identity.event_id →
      frame.identity.revision < message.identity.revision := by
    intro frame hframe hsame
    obtain ⟨latest, hlatest, hevent, hle⟩ := exists_latest hframe
    have hget := (h message.identity.event_id latest).mpr ⟨hevent.trans hsame, hlatest⟩
    rw [OpenTurn.isStale, hget, Option.any_some, decide_eq_true_eq] at hstale
    omega
  intro event_id other
  show (turn.events.set message.identity.event_id message).get event_id = some other ↔ _
  rw [JsMap.get_set]
  split_ifs with hevent
  · rw [Option.some.injEq]
    constructor
    · rintro rfl
      refine ⟨hevent.symm, List.mem_append_right _ List.mem_cons_self, fun frame hframe hsame => ?_⟩
      rcases List.mem_append.mp hframe with hframe | hframe
      · exact (hnewer frame hframe hsame).le
      · rw [List.mem_singleton.mp hframe]
    · rintro ⟨hother, hmem, hmax⟩
      rcases List.mem_append.mp hmem with hmem | hmem
      · have hlt := hnewer other hmem (hother.trans hevent)
        have hle := hmax message (List.mem_append_right _ List.mem_cons_self)
          (hevent.symm.trans hother.symm)
        omega
      · exact (List.mem_singleton.mp hmem).symm
  · rw [h]
    refine and_congr_right fun hother => ?_
    have hne : message.identity.event_id ≠ other.identity.event_id := fun hsame =>
      hevent (hother.symm.trans hsame.symm)
    constructor
    · rintro ⟨hmem, hmax⟩
      refine ⟨List.mem_append_left _ hmem, fun frame hframe hsame => ?_⟩
      rcases List.mem_append.mp hframe with hframe | hframe
      · exact hmax frame hframe hsame
      · rw [List.mem_singleton.mp hframe] at hsame
        exact absurd hsame hne
    · rintro ⟨hmem, hmax⟩
      refine ⟨?_, fun frame hframe => hmax frame (List.mem_append_left _ hframe)⟩
      rcases List.mem_append.mp hmem with hmem | hmem
      · exact hmem
      · rw [List.mem_singleton.mp hmem] at hne
        exact absurd rfl hne

/-! ### The messages of a finished turn -/

/-- The latest revision of each event, in the order of their numbers. -/
structure Final (frames messages : List IdentifiedMessage) : Prop where
  sorted : messages.Pairwise fun a b => a.identity.sequence < b.identity.sequence
  mem : ∀ message, message ∈ messages ↔ Latest frames message

/-- There is one such list for each set of frames. -/
theorem Final.unique {messages messages' : List IdentifiedMessage} (h : Final frames messages)
    (h' : Final frames' messages') (hsame : ∀ message, message ∈ frames ↔ message ∈ frames') :
    messages = messages' := by
  have hperm : messages.Perm messages' := by
    refine (List.perm_ext_iff_of_nodup (h.sorted.imp ?_) (h'.sorted.imp ?_)).mpr fun message => ?_
    · rintro a _ hlt rfl
      exact absurd hlt (Nat.lt_irrefl _)
    · rintro a _ hlt rfl
      exact absurd hlt (Nat.lt_irrefl _)
    · rw [h.mem, h'.mem, latest_congr hsame]
  exact hperm.eq_of_pairwise (fun _ _ _ _ hlt hgt => absurd hlt (Nat.lt_asymm hgt)) h.sorted h'.sorted

instance : Std.Total fun a b : IdentifiedMessage => a.identity.sequence ≤ b.identity.sequence :=
  ⟨fun _ _ => Nat.le_total _ _⟩

instance : IsTrans IdentifiedMessage fun a b => a.identity.sequence ≤ b.identity.sequence :=
  ⟨fun _ _ _ => Nat.le_trans⟩

/-- The messages of a turn that has the latest revisions. -/
theorem Keeps.ordered (h : Keeps frames turn)
    (hsequence : ∀ message other, Latest frames message → Latest frames other →
      message.identity.event_id ≠ other.identity.event_id →
        message.identity.sequence ≠ other.identity.sequence) : Final frames turn.ordered := by
  have hperm : turn.ordered.Perm (turn.events.entries.rows.map Prod.snd) :=
    List.perm_insertionSort _ _
  have hrow : ∀ entry ∈ turn.events.entries.rows,
      entry.2.identity.event_id = entry.1 ∧ Latest frames entry.2 :=
    fun entry hentry => (h _ _).mp (JsMap.get_of_mem hentry)
  have hmem : ∀ message, message ∈ turn.ordered ↔ Latest frames message := by
    intro message
    rw [hperm.mem_iff, List.mem_map]
    constructor
    · rintro ⟨entry, hentry, rfl⟩
      exact (hrow entry hentry).2
    · intro hlatest
      have hget := (h message.identity.event_id message).mpr ⟨rfl, hlatest⟩
      rw [JsMap.get, Option.map_eq_some_iff] at hget
      obtain ⟨entry, hentry, hvalue⟩ := hget
      exact ⟨entry, (Table.get?_eq_some.mp hentry).1, hvalue⟩
  -- an event has one message in the map, so distinct messages have distinct numbers
  have hevents : (turn.ordered.map (·.identity.event_id)).Nodup := by
    refine ((hperm.map _).nodup_iff).mpr ?_
    have hkeys : (turn.events.entries.rows.map Prod.snd).map (·.identity.event_id) =
        turn.events.entries.rows.map Prod.fst := by
      rw [List.map_map]
      exact List.map_congr_left fun entry hentry => (hrow entry hentry).1
    rw [hkeys]
    exact turn.events.entries.nodup
  refine ⟨?_, hmem⟩
  have hle : turn.ordered.Pairwise fun a b => a.identity.sequence ≤ b.identity.sequence :=
    List.pairwise_insertionSort _ _
  have hne : turn.ordered.Pairwise fun a b => a.identity.event_id ≠ b.identity.event_id :=
    List.pairwise_map.mp hevents
  refine (hle.and hne).imp_of_mem fun {a b} ha hb hab => ?_
  exact lt_of_le_of_ne hab.1 (hsequence a b ((hmem a).mp ha) ((hmem b).mp hb) hab.2)

/-! ### Applying frames -/

/-- A turn of which the last frame has the terminal fact. -/
structure FinishedTurn (frames : List IdentifiedMessage) (last : IdentifiedMessage) : Prop where
  revisions : Unambiguous (frames ++ [last])
  sequences : ∀ message other, Latest (frames ++ [last]) message → Latest (frames ++ [last]) other →
    message.identity.event_id ≠ other.identity.event_id →
      message.identity.sequence ≠ other.identity.sequence
  unfinished : ∀ message ∈ frames, message.terminal = none
  terminal : last.terminal.isSome = true
  newest : ∀ message ∈ frames, message.identity.event_id = last.identity.event_id →
    message.identity.revision < last.identity.revision

/-- How far the frames have been applied. -/
inductive Progress (frames : List IdentifiedMessage) (last : IdentifiedMessage)
    (done : List IdentifiedMessage) (live : LiveTurn) (calls : List ConversationTurnCommit) : Prop
  | start : done = [] → live.turn = none → live.commits = [] → calls = [] →
      Progress frames last done live calls
  | collecting (turn : OpenTurn) : live.turn = some turn → live.asking = none → live.commits = [] →
      calls = [] → Keeps done turn → last ∉ done → Progress frames last done live calls
  | committed (turn : OpenTurn) (terminal : Terminal) : live.asking = none →
      calls = [turn.commit terminal] → Keeps (frames ++ [last]) turn → done = frames ++ [last] →
      Progress frames last done live calls

/-- The next frame is the last one, or one without the terminal fact. -/
theorem next_frame {before after : List IdentifiedMessage}
    (h : before ++ message :: after = frames ++ [last]) :
    (message = last ∧ before = frames ∧ after = []) ∨ message ∈ frames := by
  rcases List.eq_nil_or_concat after with rfl | ⟨middle, final, rfl⟩
  · obtain ⟨hbefore, hlast⟩ := List.append_inj' h rfl
    exact .inl ⟨List.singleton_injective hlast, hbefore, rfl⟩
  · rw [List.concat_eq_append, ← List.cons_append, ← List.append_assoc] at h
    obtain ⟨hframes, -⟩ := List.append_inj' h rfl
    exact .inr (hframes ▸ List.mem_append_right _ List.mem_cons_self)

theorem FinishedTurn.unambiguous (h : FinishedTurn frames last) {after : List IdentifiedMessage}
    (hsplit : done ++ message :: after = frames ++ [last]) : Unambiguous (done ++ [message]) := by
  have hsub : ∀ frame ∈ done ++ [message], frame ∈ frames ++ [last] := by
    intro frame hframe
    rw [← hsplit, List.append_cons]
    exact List.mem_append_left _ hframe
  exact fun frame hframe other hother => h.revisions frame (hsub _ hframe) other (hsub _ hother)

theorem FinishedTurn.last_not_mem (h : FinishedTurn frames last) : last ∉ frames := fun hmem => by
  have hterminal := h.terminal
  rw [h.unfinished last hmem] at hterminal
  cases hterminal

/-- A frame of an open turn is stale, is recorded, or finishes the turn. -/
theorem FinishedTurn.applyTo (h : FinishedTurn frames last) (live : LiveTurn)
    {after : List IdentifiedMessage} (hsplit : done ++ message :: after = frames ++ [last])
    (hkeeps : Keeps done turn) (hasking : live.asking = none) (hcommits : live.commits = [])
    (hlast : last ∉ done) (herror : (live.applyTo turn message).error = none) :
    Progress frames last (done ++ [message]) (live.applyTo turn message).state
      (live.applyTo turn message).calls ∧
    (live.applyTo turn message).state.waiting = live.waiting ∧
    (live.applyTo turn message).state.asking = none := by
  have hnext := next_frame hsplit
  rw [LiveTurn.applyTo] at herror ⊢
  split_ifs at herror ⊢ with hstale hquota
  · refine ⟨.collecting turn rfl hasking hcommits rfl
      (hkeeps.stale (h.unambiguous hsplit) hstale) ?_, rfl, hasking⟩
    rw [List.mem_append, List.mem_singleton, not_or]
    refine ⟨hlast, ?_⟩
    rintro rfl
    -- The terminal fact is newer than every frame of its event, so it is not stale.
    rcases hnext with ⟨-, rfl, -⟩ | hmem
    · rw [OpenTurn.isStale, Option.any_eq_true] at hstale
      obtain ⟨current, hcurrent, hle⟩ := hstale
      obtain ⟨hevent, hlatest⟩ := (hkeeps _ _).mp hcurrent
      have hlt := h.newest current hlatest.1 hevent
      have hle' := of_decide_eq_true hle
      omega
    · exact h.last_not_mem hmem
  · have hrecorded := hkeeps.recorded hstale
    cases hterminal : message.terminal with
    | some terminal =>
        refine ⟨.committed (turn.withMessage message) terminal hasking rfl ?_ ?_, rfl, hasking⟩
        all_goals
          obtain ⟨rfl, rfl, rfl⟩ := hnext.resolve_right fun hmem => by
            rw [h.unfinished message hmem] at hterminal
            cases hterminal
        · exact hrecorded
        · rfl
    | none =>
        refine ⟨.collecting (turn.withMessage message) rfl hasking hcommits rfl hrecorded ?_, rfl,
          hasking⟩
        rw [List.mem_append, List.mem_singleton, not_or]
        refine ⟨hlast, ?_⟩
        rintro rfl
        have hsome := h.terminal
        rw [hterminal] at hsome
        cases hsome

/-- The frames that were received are those that were applied and those that wait. -/
def Applied (frames : List IdentifiedMessage) (last : IdentifiedMessage)
    (arrived : List IdentifiedMessage) (live : LiveTurn) (calls : List ConversationTurnCommit) :
    Prop :=
  ∃ done, arrived = done ++ (live.asking.toList ++ live.waiting) ∧
    Progress frames last done live calls

theorem Applied.apply (h : FinishedTurn frames last) {live : LiveTurn}
    {arrived coming : List IdentifiedMessage} {calls : List ConversationTurnCommit}
    {outcome : LiveTurn.Outcome LiveTurn} (harrived : arrived ++ coming = frames ++ [last])
    (happlied : Applied frames last arrived live calls) (hstep : live.apply = some outcome)
    (herror : outcome.error = none) :
    Applied frames last arrived outcome.state (calls ++ outcome.calls) := by
  obtain ⟨workspaceId, current, pending, asking, commits⟩ := live
  obtain ⟨done, hdone, hprogress⟩ := happlied
  rw [LiveTurn.apply] at hstep
  split at hstep
  · rename_i message waiting hbusy hwaiting
    obtain rfl : pending = message :: waiting := hwaiting
    obtain rfl : asking = none := by
      rw [LiveTurn.busy, Bool.or_eq_false_iff, Option.isSome_eq_false_iff] at hbusy
      exact Option.isNone_iff_eq_none.mp hbusy.1
    have hsplit : done ++ message :: (waiting ++ coming) = frames ++ [last] := by
      rw [← harrived, hdone, List.append_assoc]
      rfl
    have hmoved : arrived = (done ++ [message]) ++ ([] ++ waiting) := by
      rw [hdone, List.append_assoc]
      rfl
    cases hprogress with
    | start hnil hturn hcommits hcalls =>
        obtain rfl : current = none := hturn
        dsimp only at hstep
        split at hstep
        · obtain rfl := Option.some.inj hstep
          refine ⟨done, hdone, .start hnil rfl hcommits ?_⟩
          rw [hcalls]
          rfl
        · obtain rfl := Option.some.inj hstep
          cases herror
    | collecting turn hturn _ hcommits hcalls hkeeps hlast =>
        obtain rfl : current = some turn := hturn
        obtain rfl := Option.some.inj hstep
        obtain ⟨hnext, hrest, hnone⟩ :=
          h.applyTo ⟨workspaceId, some turn, waiting, none, commits⟩ hsplit hkeeps rfl
          hcommits hlast herror
        rw [hcalls, List.nil_append]
        exact ⟨done ++ [message], by rw [hnone, hrest]; exact hmoved, hnext⟩
    | committed turn terminal _ _ _ hall =>
        -- all frames have been applied, so none waits
        have hlength := congrArg List.length hsplit
        rw [hall] at hlength
        simp at hlength
  · cases hstep

theorem Applied.accepted (h : FinishedTurn frames last) {live : LiveTurn}
    {arrived coming : List IdentifiedMessage} {calls : List ConversationTurnCommit} {answer : Option Bool}
    {outcome : LiveTurn.Outcome LiveTurn} (harrived : arrived ++ coming = frames ++ [last])
    (happlied : Applied frames last arrived live calls) (hstep : live.accepted answer = some outcome)
    (herror : outcome.error = none) :
    Applied frames last arrived outcome.state (calls ++ outcome.calls) := by
  obtain ⟨done, hdone, hprogress⟩ := happlied
  rw [LiveTurn.accepted, Option.map_eq_some_iff] at hstep
  obtain ⟨message, hasking, houtcome⟩ := hstep
  rw [hasking] at hdone
  have hsplit : done ++ message :: (live.waiting ++ coming) = frames ++ [last] := by
    rw [← harrived, hdone, List.append_assoc]
    rfl
  have hmoved : arrived = (done ++ [message]) ++ ([] ++ live.waiting) := by
    rw [hdone, List.append_assoc]
    rfl
  cases hprogress with
  | start hnil hturn hcommits hcalls =>
      -- a refusal or a failure of the store would be an error of this step
      cases answer with
      | none =>
          subst houtcome
          exact (nomatch herror)
      | some allowed =>
          cases allowed with
          | false =>
              subst houtcome
              exact (nomatch herror)
          | true =>
              dsimp only at houtcome
              subst houtcome
              have hempty : last ∉ done := by
                rw [hnil]
                exact List.not_mem_nil
              obtain ⟨hnext, hrest, hnone⟩ := h.applyTo { live with asking := none } hsplit
                (hnil ▸ keeps_nil rfl) rfl hcommits hempty herror
              rw [hcalls, List.nil_append]
              exact ⟨done ++ [message], by rw [hnone, hrest]; exact hmoved, hnext⟩
  | collecting _ _ hnone => rw [hasking] at hnone; cases hnone
  | committed _ _ hnone => rw [hasking] at hnone; cases hnone

/-- A step that leaves the waiting frames alone and calls for no commit. -/
theorem Applied.committing {live live' : LiveTurn} {arrived : List IdentifiedMessage}
    {calls : List ConversationTurnCommit} (happlied : Applied frames last arrived live calls)
    (hcommits : live.commits ≠ []) (hwaiting : live'.waiting = live.waiting)
    (hasking : live'.asking = live.asking) : Applied frames last arrived live' calls := by
  obtain ⟨done, hdone, hprogress⟩ := happlied
  refine ⟨done, by rw [hasking, hwaiting]; exact hdone, ?_⟩
  cases hprogress with
  | start _ _ hnone => exact absurd hnone hcommits
  | collecting _ _ _ hnone => exact absurd hnone hcommits
  | committed turn terminal hnone hcalls hkeeps hall =>
      exact .committed turn terminal (hasking.trans hnone) hcalls hkeeps hall

/-- An answer of the store finds a commit. -/
theorem answer_fields {live : LiveTurn} {index : Nat} {lost : Bool}
    {outcome : LiveTurn.Outcome LiveTurn} (h : live.answer index lost = some outcome) :
    live.commits ≠ [] ∧ outcome.calls = [] ∧ outcome.state.waiting = live.waiting ∧
      outcome.state.asking = live.asking := by
  rw [LiveTurn.answer] at h
  obtain ⟨pending, hpending, h⟩ := Option.bind_eq_some_iff.mp h
  obtain ⟨result, -, h⟩ := Option.bind_eq_some_iff.mp h
  refine ⟨?_, ?_⟩
  · rintro hnil
    rw [hnil] at hpending
    cases hpending
  · obtain rfl := Option.some.inj h
    cases result with
    | ok u => exact ⟨rfl, rfl, rfl⟩
    | error failure =>
        rw [LiveTurn.answered]
        refine ⟨rfl, ?_, ?_⟩
        · show (ite _ _ _ : LiveTurn).waiting = _
          split_ifs <;> rfl
        · show (ite _ _ _ : LiveTurn).asking = _
          split_ifs <;> rfl

theorem store_fields {system system' : LiveSystem} {index : Nat} {randomUUID : Nat → String}
    {calls : List ConversationTurnCommit} {error : Option Failure}
    (h : system.store index randomUUID = some ⟨system', calls, error⟩) :
    system.live.commits ≠ [] ∧ calls = [] ∧ system'.live.waiting = system.live.waiting ∧
      system'.live.asking = system.live.asking ∧
      ∃ call, system'.db = system.db.step (.commitConversationTurn randomUUID call) := by
  rw [LiveSystem.store] at h
  obtain ⟨pending, hpending, h⟩ := Option.bind_eq_some_iff.mp h
  dsimp only at h
  split_ifs at h
  obtain ⟨rfl, rfl, -⟩ := (LiveTurn.Outcome.mk.injEq ..).mp (Option.some.inj h)
  refine ⟨?_, rfl, rfl, rfl, _, rfl⟩
  rintro hnil
  rw [hnil] at hpending
  cases hpending

variable {system system' : LiveSystem} {trace : List LiveLabel}

/-- `close` is not called. -/
def Unclosed (trace : List LiveLabel) : Prop :=
  ∀ label ∈ trace, ∀ endedAt, label.event ≠ .close endedAt

theorem Applied.step (h : FinishedTurn frames last) {arrived coming : List IdentifiedMessage}
    {calls : List ConversationTurnCommit} {label : LiveLabel}
    (hsplit : arrived ++ received [label] ++ coming = frames ++ [last])
    (happlied : Applied frames last arrived system.live calls) (hstep : LiveSteps system label system')
    (herror : label.error = none) (hclose : Unclosed [label]) :
    Applied frames last (arrived ++ received [label]) system'.live (calls ++ label.calls) := by
  obtain ⟨event, called, error⟩ := label
  obtain rfl : error = none := herror
  have hrun := hstep.step
  -- only `apply` and `accepted` take a frame from those that wait
  cases event with
  | receive message =>
      obtain ⟨rfl, rfl, -⟩ := (LiveTurn.Outcome.mk.injEq ..).mp (Option.some.inj hrun)
      obtain ⟨done, hdone, hprogress⟩ := happlied
      refine ⟨done, ?_, ?_⟩
      · rw [hdone, List.append_assoc, List.append_assoc]
        rfl
      · rw [List.append_nil]
        cases hprogress with
        | start hnil hturn hcommits hcalls => exact .start hnil hturn hcommits hcalls
        | collecting turn hturn hasking hcommits hcalls hkeeps hlast =>
            exact .collecting turn hturn hasking hcommits hcalls hkeeps hlast
        | committed turn terminal hasking hcalls hkeeps hall =>
            exact .committed turn terminal hasking hcalls hkeeps hall
  | apply =>
      have hnone : received [⟨.apply, called, none⟩] = [] := rfl
      rw [hnone, List.append_nil] at hsplit ⊢
      obtain ⟨outcome, houtcome, hsystem⟩ := Option.map_eq_some_iff.mp hrun
      obtain ⟨rfl, rfl, herror⟩ := (LiveTurn.Outcome.mk.injEq ..).mp hsystem
      exact happlied.apply h hsplit houtcome herror
  | accepted answer =>
      have hnone : received [⟨.accepted answer, called, none⟩] = [] := rfl
      rw [hnone, List.append_nil] at hsplit ⊢
      obtain ⟨outcome, houtcome, hsystem⟩ := Option.map_eq_some_iff.mp hrun
      obtain ⟨rfl, rfl, herror⟩ := (LiveTurn.Outcome.mk.injEq ..).mp hsystem
      exact happlied.accepted h hsplit houtcome herror
  | answer index lost =>
      obtain ⟨outcome, houtcome, hsystem⟩ := Option.map_eq_some_iff.mp hrun
      obtain ⟨rfl, rfl, -⟩ := (LiveTurn.Outcome.mk.injEq ..).mp hsystem
      obtain ⟨hcommits, hcalls, hwaiting, hasking⟩ := answer_fields houtcome
      rw [hcalls, List.append_nil]
      exact (List.append_nil arrived).symm ▸ happlied.committing hcommits hwaiting hasking
  | close endedAt => exact absurd rfl (hclose _ List.mem_cons_self endedAt)
  | store index randomUUID =>
      obtain ⟨hcommits, hcalls, hwaiting, hasking, -⟩ := store_fields hrun
      obtain rfl : called = [] := hcalls
      rw [List.append_nil]
      exact (List.append_nil arrived).symm ▸ happlied.committing hcommits hwaiting hasking
  | other operation =>
      obtain ⟨rfl, rfl, -⟩ := (LiveTurn.Outcome.mk.injEq ..).mp (Option.some.inj hrun)
      rw [List.append_nil]
      exact (List.append_nil arrived).symm ▸ happlied

theorem received_cons (label : LiveLabel) (trace : List LiveLabel) :
    received (label :: trace) = received [label] ++ received trace :=
  List.filterMap_append (l := [label])

theorem Applied.run (h : FinishedTurn frames last) {arrived : List IdentifiedMessage}
    {calls : List ConversationTurnCommit} (hrun : Run LiveSteps system trace system')
    (hsplit : arrived ++ received trace = frames ++ [last])
    (happlied : Applied frames last arrived system.live calls)
    (herror : ∀ label ∈ trace, label.error = none) (hclose : Unclosed trace) :
    Applied frames last (frames ++ [last]) system'.live (calls ++ commitCalls trace) := by
  induction hrun generalizing arrived calls with
  | nil system =>
      obtain rfl : arrived = frames ++ [last] := (List.append_nil arrived).symm.trans hsplit
      exact (List.append_nil calls).symm ▸ happlied
  | @cons system middle system' label trace hstep _ ih =>
      rw [received_cons, ← List.append_assoc] at hsplit
      have hnext := happlied.step h hsplit hstep (herror _ List.mem_cons_self)
        fun other hother => hclose other (List.mem_singleton.mp hother ▸ List.mem_cons_self)
      have hlast := ih hsplit hnext (fun other hother => herror other (List.mem_cons_of_mem _ hother))
        fun other hother => hclose other (List.mem_cons_of_mem _ hother)
      rwa [List.append_assoc] at hlast

/-- All frames, applied one after the other. -/
def collect (frames : List IdentifiedMessage) (turn : OpenTurn) : OpenTurn :=
  frames.foldl (fun turn message => if turn.isStale message then turn else turn.withMessage message)
    turn

theorem keeps_collect (hunambiguous : Unambiguous (done ++ frames)) (h : Keeps done turn) :
    Keeps (done ++ frames) (collect frames turn) := by
  induction frames generalizing done turn with
  | nil => exact (List.append_nil done).symm ▸ h
  | cons message frames ih =>
      have hsplit : done ++ message :: frames = done ++ [message] ++ frames := List.append_cons ..
      rw [hsplit] at hunambiguous ⊢
      refine ih hunambiguous ?_
      dsimp only
      split_ifs with hstale
      · exact h.stale (fun frame hframe other hother => hunambiguous frame
          (List.mem_append_left _ hframe) other (List.mem_append_left _ hother)) hstale
      · exact h.recorded hstale

end PocketCoder.Conversations
