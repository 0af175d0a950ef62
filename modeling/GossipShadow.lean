import GossipShadow.Lib.Table
import GossipShadow.Lib.Machine
import GossipShadow.Lib.Peekable
import GossipShadow.Types
import GossipShadow.TimeCache
import GossipShadow.Dog
import GossipShadow.Rpc
import GossipShadow.Behaviour
import GossipShadow.RouteLaws
import GossipShadow.RedundancyLaws
import GossipShadow.FrameLaws
import GossipShadow.QueueLaws
import GossipShadow.SendLaws
import GossipShadow.RecoveryLaws
import GossipShadow.Lib.Flood
import GossipShadow.Acceptance
import GossipShadow.Network
import GossipShadow.Traffic
import GossipShadow.DeliveryLaws
import GossipShadow.Protocol
import GossipShadow.CodecLaws
import GossipShadow.EventLaws
import GossipShadow.Lib.Latch
import GossipShadow.HaveTxLaws
import GossipShadow.ValidationLaws
import GossipShadow.Lib.Loop
import GossipShadow.Handler
import GossipShadow.HandlerLaws
import GossipShadow.Lib.Dict
import GossipShadow.Lib.Timeline
import GossipShadow.Experiment
import GossipShadow.ExperimentLaws
import GossipShadow.Lib.Forest
import GossipShadow.Overlay
import GossipShadow.Custody
import GossipShadow.Hands
import GossipShadow.TreeLaws
import GossipShadow.PublishLaws
import GossipShadow.Lib.Window
import GossipShadow.CacheLaws
import GossipShadow.OrderLaws
import GossipShadow.LifeLaws
import GossipShadow.Lib.Ledger
import GossipShadow.IdleLaws
import GossipShadow.Lib.Base58
import GossipShadow.NameLaws
import GossipShadow.Lib.Fallible
import GossipShadow.Interpreters
import GossipShadow.InterpreterLaws
import GossipShadow.ControllerLaws
import GossipShadow.PollLaws
import GossipShadow.OwnLaws
import GossipShadow.Labels
import GossipShadow.AuthorLaws
import GossipShadow.Parts
import GossipShadow.Balances
import GossipShadow.MetricsLaws
import GossipShadow.LinkLaws
import GossipShadow.CostLaws
import GossipShadow.OriginLaws
import GossipShadow.SilenceLaws
import GossipShadow.MaliceLaws
import GossipShadow.SwarmLaws
import GossipShadow.ForgeryLaws
import GossipShadow.PeerLaws
import GossipShadow.Mesh
import GossipShadow.Lib.Merge
import GossipShadow.Lib.Decimal
import GossipShadow.AnalyzeLogs
import GossipShadow.LogLaws
import GossipShadow.SnapshotLaws
import GossipShadow.Lib.Json
import GossipShadow.ParamsFile
import GossipShadow.ParamsLaws
import GossipShadow.ScriptLaws
