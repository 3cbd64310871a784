import WalkieSongie.BleTrains
import WalkieSongie.BleTrust
import WalkieSongie.BoardConvergence
import WalkieSongie.BoardFence
import WalkieSongie.BoardPattern
import WalkieSongie.BridgeAsks
import WalkieSongie.BridgeDriver
import WalkieSongie.CausalDag
import WalkieSongie.CausalRegister
import WalkieSongie.CentralRuns
import WalkieSongie.CommandCodec
import WalkieSongie.CompositeBindings
import WalkieSongie.CountedFrames
import WalkieSongie.DeltaStreams
import WalkieSongie.DrainWakeups
import WalkieSongie.DurableGrowth
import WalkieSongie.EditLevels
import WalkieSongie.ExtensionAdmission
import WalkieSongie.ExtensionLane
import WalkieSongie.ExtensionView
import WalkieSongie.FeedbackEvents
import WalkieSongie.FrontierDigest
import WalkieSongie.GossipFormats
import WalkieSongie.HostInput
import WalkieSongie.HostOutput
import WalkieSongie.HostProtocol
import WalkieSongie.InputModes
import WalkieSongie.IntentOutcomes
import WalkieSongie.KeyIntents
import WalkieSongie.KeyRuns
import WalkieSongie.LegacyMigration
import WalkieSongie.LiveGrants
import WalkieSongie.LockAgreement
import WalkieSongie.NativeRoom
import WalkieSongie.OptimisticLevels
import WalkieSongie.PeerSync
import WalkieSongie.PerformanceFeedback
import WalkieSongie.PitchIntents
import WalkieSongie.PitchLevels
import WalkieSongie.PitchProjection
import WalkieSongie.ProjectionGate
import WalkieSongie.ProjectionHorizon
import WalkieSongie.RealtimeReplay
import WalkieSongie.ReificationsKept
import WalkieSongie.RendezvousPeers
import WalkieSongie.RenewalStore
import WalkieSongie.RepairFraming
import WalkieSongie.RepairReady
import WalkieSongie.RepairRounds
import WalkieSongie.RepairTriggers
import WalkieSongie.ReplicaHandle
import WalkieSongie.ReplicaWorker
import WalkieSongie.RoomClear
import WalkieSongie.RoomGenerations
import WalkieSongie.RoomLaunches
import WalkieSongie.RoomProjection
import WalkieSongie.RoomQueue
import WalkieSongie.RoomShadow
import WalkieSongie.RoomUpkeep
import WalkieSongie.RoomValues
import WalkieSongie.RtcIce
import WalkieSongie.RtcRetirement
import WalkieSongie.ServiceWaits
import WalkieSongie.SessionAgreement
import WalkieSongie.SessionAnswer
import WalkieSongie.SessionEpochs
import WalkieSongie.SessionLease
import WalkieSongie.TaskScope
import WalkieSongie.TriggeredDeltas
import WalkieSongie.TurningHistory
import WalkieSongie.WindowStream
import WalkieSongie.HandleCommits
