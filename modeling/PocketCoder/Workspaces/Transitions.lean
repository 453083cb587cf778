import PocketCoder.Workspaces.Rows

/-!
Guarded writes of workspace rows
(`db/src/modules/workspaces/transitions.ts`): a transition succeeds only from
the states it names, along an edge of the lifecycle, and for the connection
it expects; a patch is unconditional. Both clear the content of a workspace
that is being purged.
-/

namespace PocketCoder.Workspaces

structure TransitionRequest where
  /-- The states named by `from`. -/
  sources : List WorkspaceState
  target : WorkspaceState
  expectedConnectionEpoch : Option Nat

def permitsTransition (state : WorkspaceState) (connectionEpoch : Nat) (req : TransitionRequest) :
    Bool :=
  req.sources.contains state && state.canTransition req.target &&
    req.expectedConnectionEpoch.all fun epoch => connectionEpoch = epoch

/-- The states that a workspace with a purge request does not enter. -/
def WorkspaceState.closedByPurge : WorkspaceState → Bool
  | .provisioning | .connected | .ready | .preserving | .queued => true
  | .terminating | .succeeded | .failed | .canceled | .expired | .preserved => false

/-- The columns of `purgedContentPatch`, when a purge was requested. -/
def purgedContent (row : WorkspaceRow) : WorkspaceRow :=
  if row.purgeRequestedAt.isSome then { row with processExecution := none, finiteProcess := none }
  else row

/-- The row after `updateWorkspace`. -/
def updatedRow (patch : WorkspaceRow → WorkspaceRow) (row : WorkspaceRow) : WorkspaceRow :=
  purgedContent (patch row)

/-- The row after `transitionWorkspace`, or `none` where it returns null.
`leases` is what `setupLeaseClosed` and `prepareLeaseTransition` answer. -/
def transitionWorkspace (req : TransitionRequest) (leases : Bool)
    (patch : WorkspaceRow → WorkspaceRow) (row : WorkspaceRow) : Option WorkspaceRow :=
  if !permitsTransition row.state row.connectionEpoch req then none
  else if row.purgeRequestedAt.isSome && req.target.closedByPurge then none
  else if !leases then none
  else some { purgedContent (patch row) with state := req.target }

/-- A transition that expects another connection fails. -/
theorem transitionWorkspace_of_epoch {req : TransitionRequest} {leases : Bool}
    {patch : WorkspaceRow → WorkspaceRow} {row : WorkspaceRow} {epoch : Nat}
    (hexpected : req.expectedConnectionEpoch = some epoch) (hepoch : row.connectionEpoch ≠ epoch) :
    transitionWorkspace req leases patch row = none := by
  have hpermits : permitsTransition row.state row.connectionEpoch req = false := by
    rw [permitsTransition, hexpected, Option.all_some, decide_eq_false hepoch, Bool.and_false]
  rw [transitionWorkspace, hpermits]
  rfl

end PocketCoder.Workspaces
