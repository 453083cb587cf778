import PocketCoder.Secrets.LeaseMoves

/-!
The history of a workspace is a run of its lifecycle: in every run of the
store its rows start in `queued`, follow the edges of `TRANSITIONS` and end
in the state of the workspace. Every commit of a state writes one history
row and, unless the workspace is being purged, one event.

`Legal` is the abstract run. `transact_change` says what an operation does
to one workspace, and both the invariant and what a single commit keeps are
derived from it.
-/

namespace PocketCoder.Workspaces.Lifecycle

open PocketCoder.Foundation
open PocketCoder.Foundation.Transaction

/-! ### Legal histories -/

/-- The history rows of a workspace, in the order of their commits, and the
state they end in. -/
inductive Legal : List StateHistoryRow → WorkspaceState → Prop
  | created {entry : StateHistoryRow} : entry.fromState = none → entry.toState = .queued →
      Legal [entry] .queued
  | moved {entries : List StateHistoryRow} {state : WorkspaceState} {entry : StateHistoryRow} :
      Legal entries state → entry.fromState = some state →
      state.canTransition entry.toState = true → Legal (entries ++ [entry]) entry.toState

/-- A terminal state has no edges. -/
theorem not_canTransition {state target : WorkspaceState} (h : state.isTerminal = true) :
    state.canTransition target = false := by
  revert h
  cases state <;> simp [WorkspaceState.isTerminal, WorkspaceState.canTransition,
    WorkspaceState.transitions]

/-- Nothing follows the row that enters a terminal state. -/
theorem Legal.last_of_terminal {entries : List StateHistoryRow} {state : WorkspaceState}
    (h : Legal entries state) : ∀ {before after : List StateHistoryRow} {entry : StateHistoryRow},
      entries = before ++ entry :: after → entry.toState.isTerminal = true → after = [] := by
  induction h with
  | created hfrom hto =>
      intro before after entry heq hterminal
      cases before with
      | nil => exact (List.cons.inj heq).2.symm
      | cons first before =>
          have hlength := congrArg List.length heq
          simp at hlength
  | @moved entries state last hlegal hfrom hcan ih =>
      intro before after entry heq hterminal
      rcases List.eq_nil_or_concat after with rfl | ⟨after, final, rfl⟩
      · rfl
      · -- the row is not the last one, so it is in the history before the last move
        rw [List.concat_eq_append, ← List.cons_append, ← List.append_assoc] at heq
        obtain ⟨hentries, -⟩ := List.append_inj' heq rfl
        obtain rfl := ih hentries hterminal
        have hstate : state = entry.toState := by
          cases hlegal with
          | created hfrom hto =>
              cases before with
              | nil => rw [← (List.cons.inj hentries).1, hto]
              | cons first before =>
                  have hlength := congrArg List.length hentries
                  simp at hlength
          | moved _ _ _ =>
              obtain ⟨-, hlast⟩ := List.append_inj' hentries rfl
              rw [(List.cons.inj hlast).1]
        rw [hstate, not_canTransition hterminal] at hcan
        cases hcan

/-! ### The invariant -/

/-- The history rows of a workspace. -/
def Store.historyOf (db : Store) (id : String) : List StateHistoryRow :=
  db.workspaceStateHistory.filter fun entry => entry.workspaceId = id

/-- The events of a workspace. -/
def Store.eventsOf (db : Store) (id : String) : List OutboxRow :=
  db.eventOutbox.filter fun event => event.workspaceId = id

/-- Every history is legal and every terminal time is that of a terminal
state. -/
structure Store.Chronicled (db : Store) : Prop where
  legal : ∀ {id row}, db.workspaces.get? id = some row → Legal (db.historyOf id) row.state
  terminalAt : ∀ {id row}, db.workspaces.get? id = some row →
    row.terminalAt.isSome = row.state.isTerminal
  /-- A workspace that is not stored has no history. -/
  unborn : ∀ {id}, db.workspaces.get? id = none → db.historyOf id = []

/-- A store before its first workspace. -/
structure Store.Unused (db : Store) : Prop where
  workspaces : db.workspaces.rows = []
  history : db.workspaceStateHistory = []
  outbox : db.eventOutbox = []

variable {db db' : Store}

theorem Store.Unused.get? (h : db.Unused) (id : String) : db.workspaces.get? id = none := by
  rw [Table.get?, h.workspaces]
  rfl

theorem Store.Unused.chronicled (h : db.Unused) : db.Chronicled where
  legal {id row} hrow := by
    rw [h.get? id] at hrow
    cases hrow
  terminalAt {id row} hrow := by
    rw [h.get? id] at hrow
    cases hrow
  unborn {id} _ := by
    rw [Store.historyOf, h.history]
    rfl

/-! ### One operation -/

theorem transact_change (db : Store) (operation : Operation) : Change db (transact db operation) := by
  have hsame : Change db db := .same (.refl db)
  cases operation with
  | insertWorkspace input limit => exact committed_of hsame insertWorkspace_change
  | updateWorkspace id patch => exact committed_of hsame updateWorkspace_change
  | transition id req => exact committed_of hsame transitionWorkspace_change
  | setQueuedAdmissionReason id reason => exact committed_of hsame setQueuedAdmissionReason_change
  | claimWorkspaceAdmission claim => exact committed_of hsame claimWorkspaceAdmission_change
  | claimWarmPoolRuntime claim choice => exact committed_of hsame claimWarmPoolRuntime_change
  | admitPurge id now => exact committed_of hsame admitPurge_change
  | requestWorkspaceLease id input =>
      exact committed_of hsame fun h => .same (requestWorkspaceLease_same h)
  | recordWorkspaceLeaseIssued id issuerLeaseId expiresAt credentialBytes now =>
      exact committed_of hsame fun h => .same (recordWorkspaceLeaseIssued_rewrites h).same
  | recordWorkspaceLeaseDelivered id now =>
      exact committed_of hsame fun h => .same (recordWorkspaceLeaseDelivered_rewrites h).same
  | requestWorkspaceLeaseRevocation id =>
      exact committed_of hsame fun h => .same (requestWorkspaceLeaseRevocation_rewrites h).same
  | fenceWorkspaceLeases workspaceId =>
      exact committed_of hsame fun h => .same (fenceWorkspaceLeases_rewrites h).same
  | recordWorkspaceLeaseRevoked id requestId now =>
      exact committed_of hsame fun h => .same (recordWorkspaceLeaseRevoked_rewrites h).same
  | recordWorkspaceLeaseExpired id now =>
      exact committed_of hsame fun h => .same (recordWorkspaceLeaseExpired_rewrites h).same
  | writeSecret authorized name type versionId =>
      exact committed_of hsame fun h => .same (writeSecret_rewrites h).same
  | retireSecret authorized name now =>
      exact committed_of hsame fun h => .same (retireSecret_rewrites h).same
  | insertWarmPoolRuntime row => exact .same ⟨rfl, rfl, rfl⟩
  | updateWarmPoolRuntime id patch => exact .same ⟨rfl, rfl, rfl⟩

/-- What an operation commits for one workspace: nothing to its history and
its events, or one row of each. -/
inductive Commits (db db' : Store) (id : String) : Option LifecycleRow → LifecycleRow → Prop
  | kept {row row' : LifecycleRow} : Patches row row' → db'.historyOf id = db.historyOf id →
      db'.eventsOf id = db.eventsOf id → Commits db db' id (some row) row'
  | created {row' : LifecycleRow} {entry : StateHistoryRow} {event : OutboxRow} :
      row'.state = .queued → row'.terminalAt = none → row'.purgeRequestedAt = none →
      Records entry id none .queued → db'.historyOf id = db.historyOf id ++ [entry] →
      db'.eventsOf id = db.eventsOf id ++ [event] → Commits db db' id none row'
  | moved {row row' : LifecycleRow} {entry : StateHistoryRow} {event : OutboxRow} :
      MovesTo row row' → Records entry id (some row.state) row'.state →
      db'.historyOf id = db.historyOf id ++ [entry] →
      db'.eventsOf id =
        (if row.purgeRequestedAt.isSome then db.eventsOf id else db.eventsOf id ++ [event]) →
      Commits db db' id (some row) row'

theorem Patches.refl (row : LifecycleRow) : Patches row row := ⟨rfl, le_rfl, rfl⟩

/-- What is appended for one workspace is appended to its own rows only. -/
theorem Appends.historyOf {row : LifecycleRow} {origin : Option WorkspaceState}
    (h : Appends db db' row origin) :
    (∃ entry event, Records entry row.id origin row.state ∧
      db'.historyOf row.id = db.historyOf row.id ++ [entry] ∧
      db'.eventsOf row.id = if row.purgeRequestedAt.isSome then db.eventsOf row.id
        else db.eventsOf row.id ++ [event]) ∧
    ∀ id, row.id ≠ id → db'.historyOf id = db.historyOf id ∧ db'.eventsOf id = db.eventsOf id := by
  obtain ⟨entry, event, hrecords, hevent, hhistory, houtbox⟩ := h
  refine ⟨⟨entry, event, hrecords, ?_, ?_⟩, fun id hid => ⟨?_, ?_⟩⟩
  · rw [Store.historyOf, hhistory, List.filter_append, List.filter_singleton,
      decide_eq_true hrecords.1]
    rfl
  · rw [Store.eventsOf, houtbox]
    split
    · rfl
    · rw [List.filter_append, List.filter_singleton, decide_eq_true hevent]
      rfl
  · rw [Store.historyOf, hhistory, List.filter_append, List.filter_singleton,
      decide_eq_false (hrecords.1 ▸ hid)]
    exact List.append_nil _
  · rw [Store.eventsOf, houtbox]
    split
    · rfl
    · rw [List.filter_append, List.filter_singleton, decide_eq_false (hevent ▸ hid)]
      exact List.append_nil _

theorem Change.commits (h : Change db db') {id : String} {row' : LifecycleRow}
    (hrow' : db'.workspaces.get? id = some row') :
    Commits db db' id (db.workspaces.get? id) row' := by
  cases h with
  | same hsame =>
      rw [hsame.workspaces] at hrow'
      rw [hrow']
      exact .kept (.refl row') (by rw [Store.historyOf, hsame.history, Store.historyOf])
        (by rw [Store.eventsOf, hsame.outbox, Store.eventsOf])
  | created row hnone hrows hstate hterminal hpurge happends =>
      obtain ⟨⟨entry, event, hrecords, hhistory, hevents⟩, hothers⟩ := happends.historyOf
      rw [hrows] at hrow'
      -- the rows of another workspace are appended elsewhere
      by_cases hid : row.id = id
      · rw [if_pos hid, Option.some.injEq] at hrow'
        subst hrow'
        subst hid
        rw [hstate] at hrecords
        rw [hpurge] at hevents
        rw [hnone]
        exact .created hstate hterminal hpurge hrecords hhistory hevents
      · rw [if_neg hid] at hrow'
        rw [hrow']
        exact .kept (.refl row') (hothers id hid).1 (hothers id hid).2
  | patched row patched hrow hrows hpatches hhistory houtbox =>
      have hsame : db'.historyOf id = db.historyOf id ∧ db'.eventsOf id = db.eventsOf id :=
        ⟨by rw [Store.historyOf, hhistory, Store.historyOf],
          by rw [Store.eventsOf, houtbox, Store.eventsOf]⟩
      rw [hrows] at hrow'
      by_cases hid : row.id = id
      · rw [if_pos hid, Option.some.injEq] at hrow'
        subst hrow'
        rw [← hid, hrow]
        exact .kept hpatches (hid ▸ hsame.1) (hid ▸ hsame.2)
      · rw [if_neg hid] at hrow'
        rw [hrow']
        exact .kept (.refl row') hsame.1 hsame.2
  | moved row moved hrow hrows hidKept hmoves happends =>
      obtain ⟨⟨entry, event, hrecords, hhistory, hevents⟩, hothers⟩ := happends.historyOf
      rw [hidKept] at hrecords hhistory hevents hothers
      rw [hmoves.purgeRequestedAt] at hevents
      rw [hrows] at hrow'
      by_cases hid : row.id = id
      · rw [if_pos hid, Option.some.injEq] at hrow'
        subst hrow'
        subst hid
        rw [hrow]
        exact .moved hmoves hrecords hhistory hevents
      · rw [if_neg hid] at hrow'
        rw [hrow']
        exact .kept (.refl row') (hothers id hid).1 (hothers id hid).2

/-- A workspace that is not stored after an operation was not stored before
it, and has no new history. -/
theorem Change.unborn (h : Change db db') {id : String} (hnone' : db'.workspaces.get? id = none) :
    db.workspaces.get? id = none ∧ db'.historyOf id = db.historyOf id := by
  cases h with
  | same hsame =>
      rw [hsame.workspaces] at hnone'
      exact ⟨hnone', by rw [Store.historyOf, hsame.history, Store.historyOf]⟩
  | created row hnone hrows hstate hterminal hpurge happends =>
      rw [hrows] at hnone'
      split_ifs at hnone' with hid
      exact ⟨hnone', (happends.historyOf.2 id hid).1⟩
  | patched row patched hrow hrows hpatches hhistory houtbox =>
      rw [hrows] at hnone'
      split_ifs at hnone' with hid
      exact ⟨hnone', by rw [Store.historyOf, hhistory, Store.historyOf]⟩
  | moved row moved hrow hrows hidKept hmoves happends =>
      rw [hrows] at hnone'
      split_ifs at hnone' with hid
      exact ⟨hnone', (happends.historyOf.2 id (hidKept ▸ hid)).1⟩

theorem Change.chronicled (h : Change db db') (hdb : db.Chronicled) : db'.Chronicled where
  legal {id row'} hrow' := by
    have hcommits := h.commits hrow'
    cases hrow : db.workspaces.get? id with
    | none =>
        rw [hrow] at hcommits
        cases hcommits with
        | created hstate _ _ hrecords hhistory _ =>
            rw [hhistory, hdb.unborn hrow, hstate]
            exact .created hrecords.2.1 hrecords.2.2
    | some row =>
        rw [hrow] at hcommits
        cases hcommits with
        | kept hpatches hhistory _ =>
            rw [hhistory, hpatches.state]
            exact hdb.legal hrow
        | moved hmoves hrecords hhistory _ =>
            rw [hhistory, ← hrecords.2.2]
            refine .moved (hdb.legal hrow) hrecords.2.1 ?_
            rw [hrecords.2.2]
            exact hmoves.state
  terminalAt {id row'} hrow' := by
    have hcommits := h.commits hrow'
    cases hrow : db.workspaces.get? id with
    | none =>
        rw [hrow] at hcommits
        cases hcommits with
        | created hstate hterminal _ _ _ _ =>
            rw [hstate, hterminal]
            rfl
    | some row =>
        have hbefore := hdb.terminalAt hrow
        rw [hrow] at hcommits
        cases hcommits with
        | kept hpatches _ _ =>
            rw [hpatches.state, hpatches.terminalAt, hbefore]
        | moved hmoves _ _ _ =>
            -- the time is written on entering a terminal state, which nothing leaves
            cases hterminal : row'.state.isTerminal with
            | true => exact (hmoves.terminal hterminal).1
            | false =>
                rw [hmoves.terminalAt hterminal, hbefore]
                cases hopen : row.state.isTerminal with
                | false => rfl
                | true =>
                    have hcan := hmoves.state
                    rw [not_canTransition hopen] at hcan
                    cases hcan
  unborn {id} hnone' := by
    obtain ⟨hnone, hhistory⟩ := h.unborn hnone'
    rw [hhistory]
    exact hdb.unborn hnone

/-! ### Runs -/

/-- **The history of a workspace is a legal run.** In every state of every
run the history rows of a stored workspace form a run of the lifecycle that
ends in its state, no row follows a terminal one, and its terminal time is
set exactly in a terminal state. The next operation removes no workspace, and
what it commits for one is nothing, or one history row with the event that
belongs to it. -/
theorem history_legal {db₀ db db' : Store} {operations : List Operation} {operation : Operation}
    (hunused : db₀.Unused) (hrun : Run Transacts db₀ operations db)
    (hstep : Transacts db operation db') :
    (∀ id row, db.workspaces.get? id = some row →
      Legal (db.historyOf id) row.state ∧
      (∀ before entry after, db.historyOf id = before ++ entry :: after →
        entry.toState.isTerminal = true → after = []) ∧
      row.terminalAt.isSome = row.state.isTerminal) ∧
    (∀ id row', db'.workspaces.get? id = some row' →
      Commits db db' id (db.workspaces.get? id) row') ∧
    ∀ id row, db.workspaces.get? id = some row → ∃ row', db'.workspaces.get? id = some row' := by
  have hchronicled : db.Chronicled := hrun.invariant
    (fun {s operation s'} h hs => by
      obtain rfl : s' = transact s operation := h
      exact (transact_change s operation).chronicled hs) hunused.chronicled
  obtain rfl : db' = transact db operation := hstep
  have hchange := transact_change db operation
  refine ⟨fun id row hrow => ?_, fun id row' hrow' => hchange.commits hrow', fun id row hrow => ?_⟩
  · have hlegal := hchronicled.legal hrow
    exact ⟨hlegal, fun _ _ _ heq => hlegal.last_of_terminal heq, hchronicled.terminalAt hrow⟩
  · cases hrow' : (transact db operation).workspaces.get? id with
    | some row' => exact ⟨row', rfl⟩
    | none =>
        rw [(hchange.unborn hrow').1] at hrow
        cases hrow

/-! ### A workspace that is created and cancelled -/

/-- A store with no workspace. -/
def emptyStore : Store where
  workspaces := .empty
  workspaceStateHistory := []
  eventOutbox := []
  warmPoolRuntimes := .empty
  workspaceLeases := .empty
  workspaceLeaseFences := []
  secrets := .empty

def sampleInsert : WorkspaceInsert where
  id := "workspace"
  principalId := "principal"
  externalId := "external"
  idempotencyKey := "key"
  requestDigest := "digest"
  templateSnapshot :=
    { name := "template", version := "1", digest := "template", restricted := false
      repositories := [], runtimeCredentials := [] }
  launchInput := some .null
  deadlineAt := 100
  createdAt := 0
  originWorkspaceId := none
  restoredFromCheckpointId := none
  sourceDescriptor := none
  resolvedSource := none
  persistenceCapability := none
  latestCheckpointId := none
  launchMode := none
  outputs := none

/-- A cancel of a queued workspace, with a patch that sets its launch input. -/
def sampleCancel : TransitionInput where
  sources := [.queued]
  target := .canceled
  expectedConnectionEpoch := none
  reason := some (some .canceledByCaller)
  now := 1
  patch := { launchInput := some (some .null) }
  passes := true

def createdStore : Store := transact emptyStore (.insertWorkspace sampleInsert none)

def canceledStore : Store := transact createdStore (.transition "workspace" sampleCancel)

/-- The cancel commits one history row with its event, and clears the launch
input that it was given. -/
theorem history_legal_canceled :
    Legal (createdStore.historyOf "workspace") .queued ∧
      ∃ row, canceledStore.workspaces.get? "workspace" = some row ∧ row.state = .canceled ∧
        row.launchInput = none ∧
        Commits createdStore canceledStore "workspace" (some sampleInsert.row) row := by
  obtain ⟨hstate, hcommits, -⟩ := @history_legal emptyStore createdStore canceledStore
    [.insertWorkspace sampleInsert none] (.transition "workspace" sampleCancel) ⟨rfl, rfl, rfl⟩
    (.single rfl) rfl
  have hrow : createdStore.workspaces.get? "workspace" = some sampleInsert.row := rfl
  refine ⟨(hstate "workspace" _ hrow).1, transitionedRow sampleCancel sampleInsert.row, rfl, rfl, rfl,
    ?_⟩
  have hcommit := hcommits "workspace" _ (show canceledStore.workspaces.get? "workspace" =
    some (transitionedRow sampleCancel sampleInsert.row) from rfl)
  rw [hrow] at hcommit
  exact hcommit

end PocketCoder.Workspaces.Lifecycle
