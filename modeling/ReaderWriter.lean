import ReaderWriter.Backoff
import ReaderWriter.Blocking
import ReaderWriter.Call
import ReaderWriter.Config
import ReaderWriter.Duration
import ReaderWriter.Failure
import ReaderWriter.Fault
import ReaderWriter.Limits
import ReaderWriter.Location
import ReaderWriter.Lock
import ReaderWriter.Polling
import ReaderWriter.Proofs.Alone
import ReaderWriter.Proofs.Backoffs
import ReaderWriter.Proofs.BlockingGroups
import ReaderWriter.Proofs.BlockingWaiters
import ReaderWriter.Proofs.Calling
import ReaderWriter.Proofs.ClaimAndFlags
import ReaderWriter.Proofs.CleanLocks
import ReaderWriter.Proofs.Configs
import ReaderWriter.Proofs.Crews
import ReaderWriter.Proofs.Crowds
import ReaderWriter.Proofs.Custody
import ReaderWriter.Proofs.Endings
import ReaderWriter.Proofs.Events
import ReaderWriter.Proofs.Fields
import ReaderWriter.Proofs.FlagBlocks
import ReaderWriter.Proofs.FlagCells
import ReaderWriter.Proofs.FullGroups
import ReaderWriter.Proofs.FullLocks
import ReaderWriter.Proofs.Guards
import ReaderWriter.Proofs.Holders
import ReaderWriter.Proofs.Holdings
import ReaderWriter.Proofs.Holds
import ReaderWriter.Proofs.Jobs
import ReaderWriter.Proofs.LateReaders
import ReaderWriter.Proofs.Machines
import ReaderWriter.Proofs.Moves
import ReaderWriter.Proofs.MutualExclusion
import ReaderWriter.Proofs.Neighbours
import ReaderWriter.Proofs.NoLostWakeup
import ReaderWriter.Proofs.Notifications
import ReaderWriter.Proofs.NotifierMarks
import ReaderWriter.Proofs.Pacing
import ReaderWriter.Proofs.PollingProgress
import ReaderWriter.Proofs.ReadMostly.Acts
import ReaderWriter.Proofs.ReadMostly.AtRest
import ReaderWriter.Proofs.ReadMostly.Burials
import ReaderWriter.Proofs.ReadMostly.Claims
import ReaderWriter.Proofs.ReadMostly.Crowd
import ReaderWriter.Proofs.ReadMostly.Duties
import ReaderWriter.Proofs.ReadMostly.Exclusion
import ReaderWriter.Proofs.ReadMostly.Flags
import ReaderWriter.Proofs.ReadMostly.Housing
import ReaderWriter.Proofs.ReadMostly.Keeping
import ReaderWriter.Proofs.ReadMostly.Nodes
import ReaderWriter.Proofs.ReadMostly.Ownership
import ReaderWriter.Proofs.ReadMostly.Quiet
import ReaderWriter.Proofs.ReadMostly.Rolls
import ReaderWriter.Proofs.ReadMostly.Rosters
import ReaderWriter.Proofs.ReadMostly.Supplies
import ReaderWriter.Proofs.ReadMostly.Transitions
import ReaderWriter.Proofs.ReadMostly.Tries
import ReaderWriter.Proofs.ReadMostly.Waiters
import ReaderWriter.Proofs.ReadMostly.Walks
import ReaderWriter.Proofs.RegistryAndNodes
import ReaderWriter.Proofs.RehousedTurns
import ReaderWriter.Proofs.RehousedWorlds
import ReaderWriter.Proofs.Runs
import ReaderWriter.Proofs.Service
import ReaderWriter.Proofs.SupplyIndependence
import ReaderWriter.Proofs.Tallies
import ReaderWriter.Proofs.TimedAttempts
import ReaderWriter.Proofs.TimedCalls
import ReaderWriter.Proofs.TimedTrials
import ReaderWriter.Proofs.TriesAlone
import ReaderWriter.Proofs.UnheldReleases
import ReaderWriter.Proofs.WaitBits
import ReaderWriter.Proofs.WaitStrategy
import ReaderWriter.Proofs.WordsAtRest
import ReaderWriter.Proofs.WriterPriority
import ReaderWriter.ReadMostly.Basic
import ReaderWriter.ReadMostly.Claim
import ReaderWriter.ReadMostly.Flag
import ReaderWriter.ReadMostly.Locals
import ReaderWriter.ReadMostly.Registry
import ReaderWriter.ReadMostly.Turns
import ReaderWriter.Retry
import ReaderWriter.Schedule
import ReaderWriter.Script.Flags
import ReaderWriter.Script.Registries
import ReaderWriter.Stress
import ReaderWriter.Text.Quoted
import ReaderWriter.Text.Record
import ReaderWriter.Threads
import ReaderWriter.Turn
import ReaderWriter.Waiting.Notice
import ReaderWriter.Waiting.Signal
import ReaderWriter.Waiting.Wait
import ReaderWriter.Word
import ReaderWriter.Word.Cell
import ReaderWriter.Word.Update
import ReaderWriter.World.Basic
import ReaderWriter.World.Calls
import ReaderWriter.World.Endings
import ReaderWriter.World.Operations
import ReaderWriter.World.Turns
import ReaderWriter.Proofs.WordChanges
import ReaderWriter.Proofs.RegistryBags
