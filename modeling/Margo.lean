import Margo.Abt.Api
import Margo.Abt.ArrayDiscipline
import Margo.Abt.ArraySpecs
import Margo.Abt.Arrays
import Margo.Abt.Calls
import Margo.Abt.Config
import Margo.Abt.Description
import Margo.Abt.Effects
import Margo.Abt.Emission
import Margo.Abt.Entries
import Margo.Abt.HiddenPools
import Margo.Abt.Indices
import Margo.Abt.Initialization
import Margo.Abt.Json
import Margo.Abt.ListArrays
import Margo.Abt.Locking
import Margo.Abt.MemoryRuns
import Margo.Abt.NameGeneration
import Margo.Abt.Names
import Margo.Abt.Registry
import Margo.Abt.Report
import Margo.Abt.UseCounts
import Margo.Arena.Conservation
import Margo.Arena.Model
import Margo.Arena.Shape
import Margo.Bulk.Creation
import Margo.Bulk.Exclusivity
import Margo.Bulk.Membership
import Margo.Bulk.Pool
import Margo.Bulk.Poolset
import Margo.Exchange.Model
import Margo.Exchange.Provenance
import Margo.Exchange.Runs
import Margo.Handle.Cache
import Margo.Handle.Conservation
import Margo.Handle.UserData
import Margo.Hg.Model
import Margo.Hg.Resources
import Margo.Hg.RoundTrip
import Margo.Init.Child
import Margo.Init.Config
import Margo.Init.Description
import Margo.Init.Failure
import Margo.Init.Globals
import Margo.Init.Reading
import Margo.Init.Resolution
import Margo.Init.RoundTrip
import Margo.Lib.BinaryHeap
import Margo.Lib.ByteMemory
import Margo.Lib.Bytes
import Margo.Lib.Cycle
import Margo.Lib.Deadline
import Margo.Lib.Deviation
import Margo.Lib.Directory
import Margo.Lib.EndStack
import Margo.Lib.FlagCounter
import Margo.Lib.Fresh
import Margo.Lib.Gate
import Margo.Lib.KeyedList
import Margo.Lib.Ledger
import Margo.Lib.Links
import Margo.Lib.MachineInt
import Margo.Lib.Paths
import Margo.Lib.Rows
import Margo.Lib.Runs
import Margo.Lib.Separators
import Margo.Lib.SlotArray
import Margo.Lib.Slots
import Margo.Lib.SwapRemove
import Margo.Lib.ThreadPool
import Margo.Lib.Tiling
import Margo.Lib.UseLedger
import Margo.Monitor.Configuration
import Margo.Monitor.FrameMemory
import Margo.Monitor.Keys
import Margo.Monitor.Locks
import Margo.Monitor.Sampling
import Margo.Monitor.Series
import Margo.Monitor.SessionConservation
import Margo.Monitor.Sessions
import Margo.Monitor.Statistics
import Margo.Monitor.Tables
import Margo.Plumber.Buckets
import Margo.Plumber.Model
import Margo.Plumber.Resolution
import Margo.Plumber.RoundRobin
import Margo.Plumber.Sharing
import Margo.Pool.Efirst
import Margo.Pool.EfirstBypass
import Margo.Pool.EfirstOrder
import Margo.Pool.EfirstQueues
import Margo.Pool.PrioBypass
import Margo.Pool.PrioQueues
import Margo.Pool.PrioRemoval
import Margo.Pool.PrioWait
import Margo.Progress.Accounting
import Margo.Progress.Model
import Margo.Progress.Toggling
import Margo.Progress.Wakeup
import Margo.Request.Arena
import Margo.Request.Blocks
import Margo.Request.Model
import Margo.Request.Ownership
import Margo.Request.Resources
import Margo.Request.Results
import Margo.Rpc.DataOwnership
import Margo.Rpc.Ids
import Margo.Rpc.Refcounts
import Margo.Rpc.Registration
import Margo.Rpc.UserData
import Margo.Serialization.Agreement
import Margo.Serialization.Model
import Margo.Shutdown.Admission
import Margo.Shutdown.Callbacks
import Margo.Shutdown.Cleanup
import Margo.Shutdown.Model
import Margo.Shutdown.Teardown
import Margo.Timer.Alarms
import Margo.Timer.Alone
import Margo.Timer.Calls
import Margo.Timer.Census
import Margo.Timer.Guarantee
import Margo.Timer.Lifetime
import Margo.Timer.Model
import Margo.Timer.Queue
import Margo.Timer.Steps
import Margo.Timer.Threads
import Margo.Timer.Utlist
import Margo.Transfer.Chunks
import Margo.Transfer.Draining
import Margo.Transfer.Model
import Margo.Uthash.Model
import Margo.Uthash.Operations
import Margo.Uthash.Runs
import Margo.Uthash.Table
