import RmcatNs3.Lib.Aligned
import RmcatNs3.Lib.Runs
import RmcatNs3.Lib.SerialNumber
import RmcatNs3.Lib.Bytes
import RmcatNs3.Lib.CircularBuffer
import RmcatNs3.Lib.MonotoneDeque
import RmcatNs3.Lib.StructMemory
import RmcatNs3.Lib.NetworkOrder
import RmcatNs3.Lib.LinkedChain
import RmcatNs3.Lib.SortedMap
import RmcatNs3.Lib.MachineInt
import RmcatNs3.Lib.Unwrapping
import RmcatNs3.Lib.BoundedArray
import RmcatNs3.Lib.ComparatorMap
import RmcatNs3.Lib.EventQueue
import RmcatNs3.Lib.BitWindow
import RmcatNs3.Lib.RingScan
import RmcatNs3.Lib.MergeSorting
import RmcatNs3.Lib.FloatRounding
import RmcatNs3.Rmcat.SenderBasedController
import RmcatNs3.Rmcat.NadaController
import RmcatNs3.Rmcat.ControllerSteps
import RmcatNs3.Rmcat.HistoryRuns
import RmcatNs3.Rmcat.AbortFreedom
import RmcatNs3.Rmcat.RejectedSends
import RmcatNs3.Scream.ScreamRx
import RmcatNs3.Scream.AckVector
import RmcatNs3.Scream.ScreamTx
import RmcatNs3.Scream.TransmitRing
import RmcatNs3.Scream.AckMarking
import RmcatNs3.Scream.LossDetection
import RmcatNs3.Scream.BytesInFlight
import RmcatNs3.Scream.WatchedStream
import RmcatNs3.Scream.RingReclaim
import RmcatNs3.Scream.WrapCollision
import RmcatNs3.Scream.FeedbackPacket
import RmcatNs3.Scream.FeedbackTurns
import RmcatNs3.Scream.ScreamSender
import RmcatNs3.Razor.RazorHeader
import RmcatNs3.Razor.HeaderReading
import RmcatNs3.Razor.HeaderRoundTrip
import RmcatNs3.Razor.HeaderBounds
import RmcatNs3.Razor.Skiplist
import RmcatNs3.Razor.SkiplistShape
import RmcatNs3.Razor.SkiplistSearch
import RmcatNs3.Razor.SkiplistUpdates
import RmcatNs3.Razor.SkiplistRefinement
import RmcatNs3.Razor.PacerQueue
import RmcatNs3.Razor.PaceSender
import RmcatNs3.Razor.PacerQueueInvariant
import RmcatNs3.Razor.PacerRuns
import RmcatNs3.Razor.PacerBudget
import RmcatNs3.Razor.PacerProgress
import RmcatNs3.Razor.EstimatorProxy
import RmcatNs3.Razor.ArrivalRuns
import RmcatNs3.Razor.Unwrapper
import RmcatNs3.Razor.FeedbackMsg
import RmcatNs3.Razor.ProxySteps
import RmcatNs3.Razor.TrueSequences
import RmcatNs3.Razor.BinStream
import RmcatNs3.Razor.FeedbackCodec
import RmcatNs3.Razor.StreamCodec
import RmcatNs3.Razor.Crc32
import RmcatNs3.Razor.SimProto
import RmcatNs3.Razor.SimProtoTrip
import RmcatNs3.Razor.FeedbackRuns
import RmcatNs3.Razor.FeedbackAdapter
import RmcatNs3.Razor.SenderCc
import RmcatNs3.Razor.ReceiverCc
import RmcatNs3.Razor.SenderHistory
import RmcatNs3.Razor.FeedbackBounds
import RmcatNs3.Razor.HistoryMatching
import RmcatNs3.Razor.SenderEstimation
import RmcatNs3.Razor.MinHistory
import RmcatNs3.Razor.MinHistoryRuns
import RmcatNs3.Razor.BitrateController
import RmcatNs3.Razor.BitrateLimits
import RmcatNs3.Razor.SenderController
import RmcatNs3.Razor.PacingRate
import RmcatNs3.Razor.AlrRuns
import RmcatNs3.Razor.SimMessage
import RmcatNs3.Razor.SessionRuns
import RmcatNs3.Razor.EndpointEvents
import RmcatNs3.Razor.SimEndpoint
import RmcatNs3.Razor.FrameSegments
import RmcatNs3.Razor.SimPipeline
import RmcatNs3.Razor.PipelineRuns
import RmcatNs3.Razor.PipelineWrap
import RmcatNs3.Multipath.PathAddress
import RmcatNs3.Multipath.MpReceiver
import RmcatNs3.Multipath.MpSender
import RmcatNs3.Multipath.PathIdentity
import RmcatNs3.Multipath.SendBuffer
import RmcatNs3.Multipath.PathEvents
import RmcatNs3.Multipath.FrameRuns
import RmcatNs3.Webrtc.WebrtcHeader
import RmcatNs3.Webrtc.WebrtcHeaderTrip
import RmcatNs3.Webrtc.WebrtcSession
import RmcatNs3.Webrtc.WebrtcSender
import RmcatNs3.Webrtc.SenderTimers
import RmcatNs3.Webrtc.WebrtcReceiver
import RmcatNs3.Applications.StopApplication
import RmcatNs3.Lib.RankOneDowndate
import RmcatNs3.Razor.EstimatorCommon
import RmcatNs3.Razor.KalmanFilter
import RmcatNs3.Razor.AimdRateControl
import RmcatNs3.Razor.LossReports
import RmcatNs3.Razor.InterArrival
import RmcatNs3.Razor.ArrivalGroups
import RmcatNs3.Razor.RateStat
import RmcatNs3.Razor.RateRuns
import RmcatNs3.Razor.OveruseDetector
import RmcatNs3.Razor.AimdSteps
import RmcatNs3.Razor.RemoteEstimator
import RmcatNs3.Razor.RembRuns
import RmcatNs3.Razor.AckEstimator
import RmcatNs3.Razor.FeedbackOrder
import RmcatNs3.Razor.LossTrace
import RmcatNs3.Razor.EncoderRate
import RmcatNs3.Rmcat.NadaLimits
import RmcatNs3.Rmcat.NadaReset
import RmcatNs3.Rmcat.RmcatSender
import RmcatNs3.Rmcat.ShapingRuns
import RmcatNs3.Rmcat.ShapedPacketizer
import RmcatNs3.Scream.RtpQueue
import RmcatNs3.Scream.CongestionWindow
import RmcatNs3.Scream.WindowFloor
import RmcatNs3.Scream.BaseDelay
import RmcatNs3.Scream.L4sAlpha
import RmcatNs3.Lib.FloatOrder
import RmcatNs3.Scream.TargetBitrate
import RmcatNs3.Scream.TargetLimits
import RmcatNs3.Webrtc.SeqRecord
import RmcatNs3.Multipath.PathPacing
import RmcatNs3.Multipath.PaceBudget
import RmcatNs3.Multipath.WireOrder
import RmcatNs3.Lib.CountedLoop
import RmcatNs3.Razor.SendWindow
import RmcatNs3.Razor.VideoCache
import RmcatNs3.Razor.CacheLoops
import RmcatNs3.Razor.CacheWindow
import RmcatNs3.Razor.PlaybackOrder
import RmcatNs3.Razor.SimReceiver
import RmcatNs3.Razor.CacheBounds
import RmcatNs3.Razor.ReceiverLoops
import RmcatNs3.Lib.KeyRange
import RmcatNs3.Razor.LossList
import RmcatNs3.Razor.NackRequests
import RmcatNs3.Razor.StreamCalls
import RmcatNs3.Razor.StreamRuns
import RmcatNs3.Razor.FrameSplit
import RmcatNs3.Webrtc.SplitAgreement
import RmcatNs3.Lib.PacedRuns
import RmcatNs3.Lib.PacketHeaders
import RmcatNs3.Lib.LeastSquares
import RmcatNs3.Razor.FrameCut
import RmcatNs3.Razor.SimLimiter
import RmcatNs3.Razor.SimSession
import RmcatNs3.Razor.SessionControl
import RmcatNs3.Razor.ControlRuns
import RmcatNs3.Razor.SessionTimers
import RmcatNs3.Razor.SessionWire
import RmcatNs3.Razor.SessionRules
import RmcatNs3.Razor.VideoFeed
import RmcatNs3.Razor.VideoLink
import RmcatNs3.Razor.SessionRepeats
import RmcatNs3.Rmcat.RmcatReceiver
import RmcatNs3.Rmcat.RmcatSession
import RmcatNs3.Rmcat.SessionSamples
import RmcatNs3.Rmcat.SessionProgress
import RmcatNs3.Razor.Trendline
import RmcatNs3.Razor.DelayBwe
import RmcatNs3.Razor.RisingRate
import RmcatNs3.Razor.DelayBweRuns
import RmcatNs3.Scream.ScreamHeader
import RmcatNs3.Scream.ScreamSession
import RmcatNs3.Scream.SessionAcks
