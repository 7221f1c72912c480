import Ns3Quic.Lib.Run
import Ns3Quic.Lib.OrderedMultimap
import Ns3Quic.Lib.EventQueue
import Ns3Quic.Lib.Fold
import Ns3Quic.Lib.Iteration
import Ns3Quic.Lib.AlarmClock
import Ns3Quic.Lib.BinaryRounding
import Ns3Quic.Alarm.Shutdown
import Ns3Quic.Alarm.Reregister
import Ns3Quic.Alarm.AlarmClock
import Ns3Quic.CongestionControl.VegasBaseRtt
import Ns3Quic.CongestionControl.VegasGrowth
import Ns3Quic.CongestionControl.VegasIncrease
import Ns3Quic.CongestionControl.VegasLosses
import Ns3Quic.CongestionControl.VegasAvoidance
import Ns3Quic.CongestionControl.VegasSamples
import Ns3Quic.CongestionControl.VegasRule
import Ns3Quic.CongestionControl.CopaVelocity
import Ns3Quic.CongestionControl.CopaWindow
import Ns3Quic.CongestionControl.CopaChecks
import Ns3Quic.CongestionControl.CopaSlowStart
import Ns3Quic.CongestionControl.CopaDecision
import Ns3Quic.CongestionControl.HybridSlowStart
import Ns3Quic.CongestionControl.TcpCubicRecovery
import Ns3Quic.Trace.Dispatcher
import Ns3Quic.Trace.Goodput
import Ns3Quic.Trace.LossOrder
import Ns3Quic.Trace.TraceFolder
import Ns3Quic.App.EndToEnd
import Ns3Quic.App.ByteBudget
import Ns3Quic.App.SharedTraces
import Ns3Quic.Tcp.GoodputMeters
import Ns3Quic.Tcp.TcpClient
import Ns3Quic.Tcp.SessionStops
import Ns3Quic.Experiment.Dumbbell
import Ns3Quic.Experiment.TraceFiles
import Ns3Quic.Experiment.MakePath
import Ns3Quic.Experiment.Spreadsheet
import Ns3Quic.Session.Endpoint
import Ns3Quic.Session.EchoChannel
import Ns3Quic.Session.PeriodicWriter
import Ns3Quic.Stream.Reassembly
import Ns3Quic.Stream.Transfer
