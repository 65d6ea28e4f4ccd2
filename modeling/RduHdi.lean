import RduHdi.Dict
import RduHdi.PyObj
import RduHdi.Run
import RduHdi.Text
import RduHdi.Outbox
import RduHdi.KeyedSort
import RduHdi.Paging
import RduHdi.Connector.Metadata
import RduHdi.Connector.Scheduler
import RduHdi.Connector.SchedulerRun
import RduHdi.Connector.ChunkLabels
import RduHdi.Connector.Bookkeeping
import RduHdi.Connector.Listener
import RduHdi.Connector.HostStaging
import RduHdi.Connector.ChunkNotify
import RduHdi.Connector.ChunkWire
import RduHdi.Connector.StagingCoverage
import RduHdi.Connector.Handover
import RduHdi.Connector.Sending
import RduHdi.Connector.SendingSpec
import RduHdi.Connector.ProducerSystem
import RduHdi.Connector.ProducerMaps
import RduHdi.Connector.Timeout
import RduHdi.Connector.Release
import RduHdi.Connector.Registration
import RduHdi.Connector.Reads
import RduHdi.Connector.ReadsSpec
import RduHdi.RankLayout
import RduHdi.Connector.Completion
import RduHdi.Connector.TokenAlignment
import RduHdi.Connector.NotifBatch
import RduHdi.Connector.NewestConsumer
import RduHdi.Connector.RemotePrefill
import RduHdi.Bench.ChromeTrace
import RduHdi.Bench.MergeTraces
import RduHdi.Bench.RequestEvents
import RduHdi.Bench.EventMerge
import RduHdi.Bench.PhaseOrder
import RduHdi.Bench.RequestTimeline
import RduHdi.Launch.GpuPrefill
import RduHdi.Attempt
import RduHdi.Connector.CacheLayout
import RduHdi.Connector.Handshake
import RduHdi.Connector.DescAddresses
import RduHdi.Connector.HandshakeRun
import RduHdi.Connector.ReadAddresses
import RduHdi.Connector.HeadSlices
import RduHdi.Connector.HandshakeOutcome
import RduHdi.Connector.FailedHandshake
import RduHdi.Connector.HandshakeExchange
import RduHdi.Connector.FailureRace
import RduHdi.Connector.ReceivePlaces
import RduHdi.Connector.ReceiveInvariant
import RduHdi.Connector.ReceiveOnce
import RduHdi.Connector.NixlResources
import RduHdi.Connector.NixlAccounts
import RduHdi.Connector.WorkerAccounts
import RduHdi.Connector.Shutdown
import RduHdi.Connector.NotifyOnly
import RduHdi.Connector.SettledRequests
import RduHdi.Connector.FreedOnce
import RduHdi.Connector.HostLayout
import RduHdi.Connector.PartialReads
import RduHdi.Connector.TransferProtocol
import RduHdi.Connector.TransferProgress
import RduHdi.Connector.TransferStats
import RduHdi.Scatter
import RduHdi.Connector.ReadPairs
import RduHdi.Connector.ReadData
import RduHdi.Connector.ReceiveAll
import RduHdi.Connector.PostProcess
import RduHdi.Connector.ReceiveSteps
import RduHdi.Connector.ConvertedOnce
import RduHdi.Connector.FinishRaises
import RduHdi.Connector.ConsumerSystem
import RduHdi.Connector.WokenOnce
import RduHdi.Calls
import RduHdi.Inductor.PartitionSignature
import RduHdi.Inductor.PartitionRun
import RduHdi.Inductor.MemoryPlan
import RduHdi.Connector.ChunkPipeline
