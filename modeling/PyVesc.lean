import PyVesc.Resynchronisation
import PyVesc.CleanStream
import PyVesc.ReadRobustness
import PyVesc.StaleTail
import PyVesc.CanForwarding
import PyVesc.TunnelRequests
import PyVesc.NodeValues
import PyVesc.UploadSafety
import PyVesc.BeyondImage
import PyVesc.UploadReport
import PyVesc.ConfigParam
import PyVesc.ConfigRewrite
import PyVesc.ConfigTruncation
import PyVesc.ReplyWait
import PyVesc.TwoClients
import PyVesc.CanonicalPackets
import PyVesc.DamagedBody
import PyVesc.UniformScalars
import PyVesc.ScalarMixes
import PyVesc.NumericMessages
import PyVesc.TelemetrySnapshots
import PyVesc.DeclaredMessages
import PyVesc.OrderFreeReassembly
import PyVesc.NewestFrame
import PyVesc.CommandReading
import PyVesc.CommandLinks
import PyVesc.FloatCodec
import PyVesc.ParameterLists
import PyVesc.StatusDecoding
import PyVesc.ReplyStrings
import PyVesc.NodeScan
import PyVesc.ReassemblyBuffer
import PyVesc.NodeEnvelope
import PyVesc.OwnRequests
import PyVesc.FirmwareChecksum
import PyVesc.RecoveryDepth
import PyVesc.TcpStream
import PyVesc.ConfigGenerator
import PyVesc.GeneratedConfig
import PyVesc.ConfigByName
import PyVesc.Heartbeat
import PyVesc.HeartbeatRounds
import PyVesc.HeartbeatStop
import PyVesc.ScanThreads
import PyVesc.RequestThreads
import PyVesc.RequestLock
import PyVesc.RequestRefinement
import PyVesc.ConcurrentRequests
import PyVesc.StatusFeed
import PyVesc.Watchdog
import PyVesc.SubscriberCalls
import PyVesc.TcpSession
import PyVesc.TcpAccess
import PyVesc.TcpRefinement
import PyVesc.TcpProgress
import PyVesc.StringRead
import PyVesc.ConfigTransfer
import PyVesc.Measurements
import PyVesc.OwnEchoes
