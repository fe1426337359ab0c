import ProjectTrans.Proof.Common.UniqueHandle
import ProjectTrans.Proof.Codec.ParseHistory
import ProjectTrans.Proof.Codec.FieldParsers
import ProjectTrans.Proof.Codec.ArrayRoundTrip
import ProjectTrans.Proof.Codec.Limits
import ProjectTrans.Proof.Codec.ByteOrder
import ProjectTrans.Proof.Codec.Elements
import ProjectTrans.Proof.Codec.Widths
import ProjectTrans.Proof.Protocol.Completeness
import ProjectTrans.Proof.Protocol.Responses
import ProjectTrans.Proof.Condition.Canonical
import ProjectTrans.Proof.Condition.EndpointOrder
import ProjectTrans.Proof.Condition.IntegerIntervals
import ProjectTrans.Proof.Condition.WildcardText
import ProjectTrans.Proof.Database.Destructive
import ProjectTrans.Proof.Database.Storage
import ProjectTrans.Proof.Database.OrderBy
import ProjectTrans.Proof.Client.Acceptance
import ProjectTrans.Proof.Client.BlockInserts
import ProjectTrans.Proof.Client.BlockTiling
import ProjectTrans.Proof.Client.Completion
import ProjectTrans.Proof.Client.Correlation
import ProjectTrans.Proof.Client.Queue
import ProjectTrans.Proof.Client.Resume
import ProjectTrans.Proof.Client.TaskIds
import ProjectTrans.Proof.Client.EntityMap
import ProjectTrans.Proof.Client.NetworkService
import ProjectTrans.Proof.Client.Published
import ProjectTrans.Proof.Concurrent.QueueMoves
import ProjectTrans.Proof.Concurrent.RangePush
import ProjectTrans.Proof.Concurrent.RingBatch
import ProjectTrans.Proof.Concurrent.RingFifo
import ProjectTrans.Proof.Concurrent.OneShots
import ProjectTrans.Proof.Concurrent.PeriodicTask
import ProjectTrans.Proof.Concurrent.PeriodicView
import ProjectTrans.Proof.Concurrent.PeriodicTasks
import ProjectTrans.Proof.Concurrent.SpscRingQueue
import ProjectTrans.Proof.Concurrent.Wakeups
import ProjectTrans.Proof.Logger.Drained
import ProjectTrans.Proof.Network.HalfClose
import ProjectTrans.Proof.Network.NotifyEvent
import ProjectTrans.Proof.Network.Readiness
import ProjectTrans.Proof.Network.Streams
import ProjectTrans.Proof.Network.UrlFragment
import ProjectTrans.Proof.Network.UrlGrammar
import ProjectTrans.Proof.Network.WritePath
import ProjectTrans.Proof.Deployment
import ProjectTrans.Proof.Server.BlockRead
import ProjectTrans.Proof.Server.Exchange
import ProjectTrans.Proof.Server.FileLookup
import ProjectTrans.Proof.Server.InOrder
import ProjectTrans.Proof.Server.Isolation
import ProjectTrans.Proof.Server.SimpleServer
import ProjectTrans.Proof.Server.SimpleExchange
import ProjectTrans.Proof.Client.Progress
import ProjectTrans.Proof.Client.TaskTableModel
