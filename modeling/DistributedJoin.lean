import DistributedJoin.Spmd.Interleaving
import DistributedJoin.Spmd.Process
import DistributedJoin.Spmd.Collective
import DistributedJoin.Spmd.Runs
import DistributedJoin.Spmd.Attempts
import DistributedJoin.Spmd.Transfers
import DistributedJoin.Spmd.Continuations
import DistributedJoin.Device.Integers
import DistributedJoin.Device.Memory
import DistributedJoin.Device.Items
import DistributedJoin.Device.Heap
import DistributedJoin.Cudf.Table
import DistributedJoin.Cudf.Elements
import DistributedJoin.Comm.Group
import DistributedJoin.Comm.Routes
import DistributedJoin.Comm.Interface
import DistributedJoin.Comm.Sizes
import DistributedJoin.Comm.Rounds
import DistributedJoin.Comm.Compression
import DistributedJoin.Comm.AllToAll
import DistributedJoin.Comm.Exchange
import DistributedJoin.Comm.Delivery
import DistributedJoin.Comm.Launch
import DistributedJoin.Comm.Invisible
import DistributedJoin.Comm.StringsColumn
import DistributedJoin.Comm.AllToAllCommunicator
import DistributedJoin.Comm.Redistribution
import DistributedJoin.Comm.Placement
import DistributedJoin.Comm.Rows
import DistributedJoin.Comm.StringRows
import DistributedJoin.Comm.StringSizes
import DistributedJoin.Comm.Allocation
import DistributedJoin.Comm.CommunicatedTable
import DistributedJoin.Comm.Accesses
import DistributedJoin.Comm.FixedWidth
import DistributedJoin.Comm.StringTransfer
import DistributedJoin.Comm.DistributeTable
import DistributedJoin.Comm.Distribution
import DistributedJoin.Comm.Collection
import DistributedJoin.Comm.LocalTables
import DistributedJoin.Comm.MergedTable
import DistributedJoin.Comm.DistributeCollect
import DistributedJoin.Comm.Views
import DistributedJoin.Comm.Truncation
import DistributedJoin.Comm.CompressionOptions
import DistributedJoin.Comm.OptionSelection
import DistributedJoin.Join.NvlPartition
import DistributedJoin.Join.ShuffleOn
import DistributedJoin.Join.NullRows
import DistributedJoin.Join.DistributedInnerJoin
import DistributedJoin.Join.Plans
import DistributedJoin.Join.Threads
import DistributedJoin.Join.Duality
import DistributedJoin.Join.BatchResults
import DistributedJoin.Join.Endings
import DistributedJoin.Join.Destinations
import DistributedJoin.Join.JoinedRows
import DistributedJoin.Join.EmptyTables
import DistributedJoin.Join.ResultSchema
import DistributedJoin.Join.Programs
import DistributedJoin.Join.JoinResults
import DistributedJoin.Join.SingleGpu
import DistributedJoin.Ucx.Tags
import DistributedJoin.Ucx.Batches
import DistributedJoin.Ucx.Setup
import DistributedJoin.Ucx.Worker
import DistributedJoin.Ucx.BufferCommunicator
import DistributedJoin.Ucx.Exhaustion
import DistributedJoin.Ucx.Activity
import DistributedJoin.Ucx.Conservation
import DistributedJoin.Ucx.Actions
import DistributedJoin.Ucx.Transfers
import DistributedJoin.Ucx.Receiving
import DistributedJoin.Ucx.Callbacks
import DistributedJoin.Ucx.Progress
import DistributedJoin.Ucx.Recycling
import DistributedJoin.Ucx.Groups
import DistributedJoin.Ucx.Rounds
import DistributedJoin.Ucx.Queues
import DistributedJoin.Ucx.Ledger
import DistributedJoin.Ucx.Sides
import DistributedJoin.Ucx.Bookings
import DistributedJoin.Ucx.Consistency
import DistributedJoin.Ucx.Framing
import DistributedJoin.Ucx.QuietSteps
import DistributedJoin.Ucx.Departures
import DistributedJoin.Ucx.Completions
import DistributedJoin.Ucx.Arrivals
import DistributedJoin.Ucx.Posting
import DistributedJoin.Ucx.Receipts
import DistributedJoin.Ucx.Collecting
import DistributedJoin.Ucx.Delivery
import DistributedJoin.Ucx.Quiescence
import DistributedJoin.Ucx.Termination
import DistributedJoin.Ucx.GroupTransfers
import DistributedJoin.Nccl.Communicator
import DistributedJoin.Nccl.Staging
import DistributedJoin.Nccl.DirectCopy
import DistributedJoin.Ucx.RegisteredMemory
import DistributedJoin.Dataset.Lottery
import DistributedJoin.Dataset.InputTables
import DistributedJoin.Dataset.GenerateTable
import DistributedJoin.Dataset.Generation
import DistributedJoin.Dataset.RowIds
import DistributedJoin.Dataset.UniqueKeys
import DistributedJoin.Relational.Join
