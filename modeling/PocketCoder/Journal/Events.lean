import Mathlib.Data.List.Basic

/-!
Events of the deletion journal (`db/src/journal/events.ts`): the deletions
and revocations that a restore applies again, and the folder that may write.
Times are milliseconds; the journal writes them in ISO format.
-/

namespace PocketCoder.Journal

/-- A file, as the writer of a data folder identifies it. -/
structure FileIdentity where
  device : String
  inode : String
  deriving DecidableEq

structure SourceWriter where
  directory : String
  root : FileIdentity
  lock : FileIdentity
  deriving DecidableEq

inductive JournalEvent where
  | keyRevoked (keyId : String) (time : Nat)
  | keysRevoked (principalId : String) (keyIds : List String) (time : Nat)
  | principalDisabled (principalId : String) (keyIds : List String) (time : Nat)
  | principalEnabled (principalId : String) (time : Nat)
  | principalAccess (principalId : String) (scopes templateNames : List String) (time : Nat)
  | secretRetired (name versionId : String) (time : Nat)
  | templateRetired (name version : String) (time : Nat)
  /-- Without a conversation, every conversation of the workspace was deleted. -/
  | conversationDeleted (workspaceId : String) (principalId conversationId : Option String)
      (time : Nat)
  | workspacePurged (principalId workspaceId : String) (time : Nat)
  | checkpointDeleted (principalId checkpointId : String) (time : Nat)
  | writerClaimed (writer : SourceWriter) (time : Nat)
  deriving DecidableEq

end PocketCoder.Journal
