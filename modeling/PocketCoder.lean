import PocketCoder.Checkpoints.RoundTrip
import PocketCoder.Checkpoints.EntrySort
import PocketCoder.Checkpoints.IndexGraph
import PocketCoder.Executions.ProcessFacts
import PocketCoder.Executions.Conversations
import PocketCoder.Dispatcher.SendOnce
import PocketCoder.ControlChannel.Epochs
import PocketCoder.Previews.Exchange
import PocketCoder.Secrets.Fences
import PocketCoder.Auth.Escalation
import PocketCoder.Recovery.Restrictions
import PocketCoder.Recovery.Survival
import PocketCoder.Recovery.RestoredBytes
import PocketCoder.Conversations.LegacyConversion
import PocketCoder.WarmPools.Leases
import PocketCoder.Remote.AgentApiEvents
import PocketCoder.Backup.Tar
import PocketCoder.Checkpoints.DirectoryQueue
import PocketCoder.Contracts.Canonical
import PocketCoder.Terminals.Replay
import PocketCoder.Conversations.FinishedTurns
import PocketCoder.Checkpoints.ChunkBoundaries
import PocketCoder.Usage.Retention
import PocketCoder.Templates.Overrides
import PocketCoder.Network.PrivateAddresses
import PocketCoder.Persistence.PurgeCopies
import PocketCoder.Backup.BoundedFilesystem
import PocketCoder.Supervisor.FiniteProcess
import PocketCoder.Purge.Progress
import PocketCoder.Purge.JournalRuns
