import Wedb.Lib.Machine
import Wedb.Lib.Links
import Wedb.Lib.Epoch
import Wedb.Lib.Journal
import Wedb.Lib.LittleEndian
import Wedb.Lib.Ring
import Wedb.Lib.BigEndian
import Wedb.Lib.SelfDelimiting
import Wedb.Lib.Slice
import Wedb.Lib.ByteFile
import Wedb.Lib.Program
import Wedb.Lib.Positional
import Wedb.Lib.RunLength
import Wedb.Lib.ByteBits
import Wedb.Base.Num
import Wedb.Token.Base32
import Wedb.Token.Issue
import Wedb.Cluster.Config
import Wedb.Cluster.Merge
import Wedb.Cluster.Manager
import Wedb.Cluster.Conflict
import Wedb.Cluster.Wire
import Wedb.Cluster.ScanGate
import Wedb.Cluster.SlotGate
import Wedb.Cluster.Failover
import Wedb.Migration.Sketch
import Wedb.Migration.Slots
import Wedb.Aof.Header
import Wedb.Aof.Log
import Wedb.Aof.RecordGate
import Wedb.Aof.Chunked
import Wedb.Aof.Reassembly
import Wedb.Aof.GroupId
import Wedb.Aof.Access
import Wedb.Aof.KeySketch
import Wedb.Aof.Replay
import Wedb.Aof.Recovery
import Wedb.Aof.RecoveryOrder
import Wedb.Aof.SketchBound
import Wedb.Aof.Consistency
import Wedb.Aof.TransactionHeader
import Wedb.Aof.Barrier
import Wedb.Aof.Turnstile
import Wedb.Index.Entry
import Wedb.Index.Chain
import Wedb.Index.Table
import Wedb.Index.Probe
import Wedb.Index.ProbeInvariant
import Wedb.Index.Split
import Wedb.Index.SplitReach
import Wedb.Recovery.Kernel
import Wedb.Recovery.Slots
import Wedb.Recovery.Undo
import Wedb.Log.Geometry
import Wedb.Log.Buffer
import Wedb.Log.FlushList
import Wedb.Log.Steps
import Wedb.Log.Frames
import Wedb.Log.Invariant
import Wedb.Log.Preservation
import Wedb.Log.FrameSafety
import Wedb.Log.Durable
import Wedb.Log.DurablePrefix
import Wedb.Checkpoint.Window
import Wedb.Checkpoint.ExactlyOnce
import Wedb.Expiry.History
import Wedb.Expiry.StaysDead
import Wedb.Vdb.MetaRecord
import Wedb.Vdb.Manager
import Wedb.Vdb.Rebuild
import Wedb.Vdb.Transactions
import Wedb.Vdb.MappingInvariant
import Wedb.Vdb.MappingSteps
import Wedb.Vdb.RestartMapping
import Wedb.Vdb.AtomicChange
import Wedb.Vdb.Numbers
import Wedb.Vdb.NumbersInvariant
import Wedb.Vdb.NumberReuse
import Wedb.Commit.GroupCommit
import Wedb.Commit.Handover
import Wedb.Wal.Frame
import Wedb.Wal.Log
import Wedb.Wal.Moves
import Wedb.Wal.SafeTail
import Wedb.Wal.WriteThrough
import Wedb.Wal.Device
import Wedb.Wal.Recover
import Wedb.Wal.RecoverScan
import Wedb.Wal.RecoverSound
import Wedb.Wal.FrameSync
import Wedb.Wal.CommitWitness
import Wedb.Wal.CrashImage
import Wedb.Key.Varint
import Wedb.Key.Codec
import Wedb.Key.RoundTrip
import Wedb.IndexCkpt.Codec
import Wedb.IndexCkpt.Batch
import Wedb.IndexCkpt.Snapshot
import Wedb.IndexCkpt.RoundTrip
import Wedb.Record.Header
import Wedb.Record.InPlace
import Wedb.Record.Slot
import Wedb.Device.Segments
import Wedb.Device.FlatArray
import Wedb.Device.Reopen
import Wedb.Reviv.Pool
import Wedb.Reviv.Protocol
import Wedb.Reviv.Accounting
import Wedb.Latch.Word
import Wedb.Latch.Bucket
import Wedb.Latch.Exclusion
import Wedb.Broker.Registry
import Wedb.Broker.Wakeups
import Wedb.Txn.LockPlan
import Wedb.Txn.Watch
import Wedb.Collection.EnvelopeCount
import Wedb.PubSub.Glob
import Wedb.PubSub.Isolation
import Wedb.RangeIndex.Replication
import Wedb.Key.VarintOrder
import Wedb.Cluster.PrimaryChain
import Wedb.Bitmap.BitOp
