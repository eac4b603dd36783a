import Waitset.Binary64
import Waitset.Binary64.Shortest
import Waitset.Bytes
import Waitset.Clock
import Waitset.Duration
import Waitset.Error
import Waitset.Group
import Waitset.IoError
import Waitset.IoError.Kind
import Waitset.IoError.System
import Waitset.Locks.Calls
import Waitset.Locks.Code
import Waitset.Locks.Threads
import Waitset.Log.ClockMask
import Waitset.Log.FileTarget
import Waitset.Log.Level
import Waitset.Log.Logger
import Waitset.Log.Moment
import Waitset.Log.Record
import Waitset.Log.Sink
import Waitset.Log.Timings
import Waitset.Operation
import Waitset.Panic
import Waitset.Promise.Calls
import Waitset.Promise.Cell
import Waitset.Promise.Forest
import Waitset.Promise.Hub
import Waitset.Promise.Polls
import Waitset.Promise.Threads
import Waitset.Proofs.Binary64.Quotient
import Waitset.Proofs.Group.Slots
import Waitset.Proofs.Locks.Alone
import Waitset.Proofs.Locks.Balance
import Waitset.Proofs.Locks.Order
import Waitset.Proofs.Locks.Undisturbed
import Waitset.Proofs.Log.Averages
import Waitset.Proofs.Log.Interruption
import Waitset.Proofs.Log.LogFile
import Waitset.Proofs.Log.Measurements
import Waitset.Proofs.Log.ReadBack
import Waitset.Proofs.Log.Report
import Waitset.Proofs.Log.Spelling
import Waitset.Proofs.Log.Strictness
import Waitset.Proofs.Operation.Passage
import Waitset.Proofs.Operation.Patience
import Waitset.Proofs.Operation.Result
import Waitset.Proofs.Operation.Storage
import Waitset.Proofs.Operation.Transfer
import Waitset.Proofs.Promise.Composition
import Waitset.Proofs.Promise.Ends
import Waitset.Proofs.Promise.Polls
import Waitset.Proofs.Promise.Release
import Waitset.Proofs.Promise.Sections
import Waitset.Proofs.Promise.Stacks
import Waitset.Proofs.Promise.Undisturbed
import Waitset.Proofs.Roster.Blind
import Waitset.Proofs.Roster.Conclude
import Waitset.Proofs.Roster.Refinement
import Waitset.Proofs.Roster.Register
import Waitset.Proofs.Roster.Schedule
import Waitset.Proofs.Roster.Wait
import Waitset.Proofs.Stream.Ends
import Waitset.Proofs.Stream.Flow
import Waitset.Proofs.Stream.Patience
import Waitset.Proofs.Stream.Scripts
import Waitset.Proofs.Stream.SharedMode
import Waitset.Proofs.Stream.Storage
import Waitset.Proofs.Stream.SystemCalls
import Waitset.Proofs.Stream.Transfers
import Waitset.Proofs.StringMap
import Waitset.Proofs.Sync.Ledger
import Waitset.Proofs.Sync.Moves
import Waitset.Proofs.Sync.Opening
import Waitset.Proofs.Sync.Permits
import Waitset.Proofs.Sync.Undisturbed
import Waitset.Proofs.TaskQueue.Balance
import Waitset.Proofs.TaskQueue.Deliveries
import Waitset.Proofs.TaskQueue.Drain
import Waitset.Proofs.TaskQueue.Ledger
import Waitset.Proofs.TaskQueue.Moves
import Waitset.Proofs.TaskQueue.Protocol
import Waitset.Proofs.TaskQueue.Runs
import Waitset.Proofs.TaskQueue.Sections
import Waitset.Proofs.Text.Json
import Waitset.Proofs.Text.Lines
import Waitset.Proofs.Text.Refusal
import Waitset.Proofs.Text.Utf8
import Waitset.Proofs.World.Advance
import Waitset.Proofs.World.Agreement
import Waitset.Proofs.World.Calls
import Waitset.Proofs.World.Completion
import Waitset.Proofs.World.Density
import Waitset.Proofs.World.Exits
import Waitset.Proofs.World.Expiry
import Waitset.Proofs.World.Favoured
import Waitset.Proofs.World.Handles
import Waitset.Proofs.World.Housed
import Waitset.Proofs.World.Intact
import Waitset.Proofs.World.Lifecycle
import Waitset.Proofs.World.Limits
import Waitset.Proofs.World.Marks
import Waitset.Proofs.World.Overtaking
import Waitset.Proofs.World.Parked
import Waitset.Proofs.World.Recycling
import Waitset.Proofs.World.Refusals
import Waitset.Proofs.World.Reports
import Waitset.Proofs.World.Representation
import Waitset.Proofs.World.Retiring
import Waitset.Proofs.World.Rows
import Waitset.Proofs.World.Service
import Waitset.Proofs.World.Sound
import Waitset.Proofs.World.Steady
import Waitset.Proofs.World.Storage
import Waitset.Proofs.World.Streams
import Waitset.Proofs.World.Stuck
import Waitset.Proofs.World.TakeOut
import Waitset.Proofs.World.Traffic
import Waitset.Proofs.World.Unusable
import Waitset.Proofs.World.Unwind
import Waitset.Proofs.World.Views
import Waitset.Proofs.World.Wait
import Waitset.Proofs.World.WaitContract
import Waitset.Proofs.World.Whereabouts
import Waitset.Session.Basic
import Waitset.Session.Logging
import Waitset.Session.Operations
import Waitset.Session.Promises
import Waitset.Session.Queue
import Waitset.Session.Sync
import Waitset.Session.Timings
import Waitset.Settings
import Waitset.Stream.Basic
import Waitset.Stream.File
import Waitset.Stream.Memory
import Waitset.Stream.Pipe
import Waitset.Stream.Retry
import Waitset.Stream.Script
import Waitset.Stream.SharedMode
import Waitset.Stream.SystemCalls
import Waitset.StringMap
import Waitset.Sync.Gate
import Waitset.Sync.Monitor
import Waitset.Sync.Semaphore
import Waitset.Table
import Waitset.TaskQueue.Basic
import Waitset.TaskQueue.Deliveries
import Waitset.TaskQueue.Submission
import Waitset.TaskQueue.Threads
import Waitset.Text.Json
import Waitset.Text.Printable
import Waitset.Text.Quoted
import Waitset.World.Basic
import Waitset.World.Drop
import Waitset.World.Execute
import Waitset.World.Recycle
import Waitset.World.Schedule
import Waitset.World.Sections
import Waitset.World.System
import Waitset.World.Unwind
import Waitset.World.Wait
