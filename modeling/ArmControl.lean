import ArmControl.Lib.Run
import ArmControl.Lib.Effect
import ArmControl.Lib.Numerals
import ArmControl.Lib.Json
import ArmControl.Execution.StatusFold
import ArmControl.Execution.Codec
import ArmControl.Supervisor.AuthorityRequests
import ArmControl.Supervisor.RuntimeState
import ArmControl.Supervisor.AppliedEvidence
import ArmControl.Supervisor.RuntimeHistory
import ArmControl.RemoteRt.EnvelopeSender
import ArmControl.RemoteRt.ControlLink
import ArmControl.Rt.ArmStatus
import ArmControl.Rt.UploadSteps
import ArmControl.Rt.HandStop
import ArmControl.Rt.ReferenceContinuity
import ArmControl.Rt.ReferenceHighWater
import ArmControl.Rt.LatchDiscipline
import ArmControl.Rt.AuthorityScope
import ArmControl.Rt.FirstEnvelope
import ArmControl.Rt.GroupBarrier
import ArmControl.Rt.GroupFinality
import ArmControl.Rt.CommittedSlot
import ArmControl.Rt.SelectionStamp
import ArmControl.Rt.JournalDelivery
import ArmControl.Rt.JournalDrops
import ArmControl.Rt.Mailbox
import ArmControl.Rt.UploadIntegrity
import ArmControl.Rt.Wire
import ArmControl.RemoteRt.ReplyDecoding
import ArmControl.RemoteRt.UploadExact
import ArmControl.RemoteRt.WireAgreement
import ArmControl.Lib.ValueArith
import ArmControl.LeaderFollower.CollisionStop
import ArmControl.LeaderFollower.TargetGates
import ArmControl.LeaderFollower.FeedbackHistory
import ArmControl.LeaderFollower.WarningZone
import ArmControl.LeaderFollower.MappingLimits
import ArmControl.LeaderFollower.Follower
import ArmControl.LeaderFollower.Release
import ArmControl.LeaderFollower.DoraFeedback
import ArmControl.LeaderFollower.Takeover
import ArmControl.LeaderFollower.FaultReports
import ArmControl.MultiArm.PairRules
import ArmControl.Clients.TeleopRules
import ArmControl.Clients.ChunkRules
import ArmControl.Plants.DmWire
import ArmControl.Plants.SceneIsolation
import ArmControl.Plants.DmFailClosed
import ArmControl.Plants.SimRelease
import ArmControl.Plants.SimObserve
import ArmControl.EndEffectors.HandAgreement
import ArmControl.EndEffectors.SimHandRefines
import ArmControl.MultiArm.HandleTruth
import ArmControl.MultiArm.GroupStart
import ArmControl.Rt.StopEpoch
import ArmControl.Rt.FlowContinuity
import ArmControl.Rt.HoldAuthority
import ArmControl.Control.JogRampLimits
import ArmControl.RemoteRt.CommandSeq
import ArmControl.Motion.Densify
import ArmControl.Control.Admission
import ArmControl.Control.ServoGains
import ArmControl.Control.ServoLaws
import ArmControl.Control.ServoJogs
import ArmControl.Control.ServoSettling
import ArmControl.Control.ServoPlans
import ArmControl.Planning.Jog
import ArmControl.MultiArm.PairedFeedback
import ArmControl.MultiArm.PairRetirement
import ArmControl.MultiArm.ReleaseContext
import ArmControl.MultiArm.PairRelease
import ArmControl.LeaderFollower.S288Codec
import ArmControl.LeaderFollower.S288Bus
import ArmControl.Lib.Polyline
import ArmControl.Planning.BlendedPath
import ArmControl.Lib.Seqlock
import ArmControl.Rt.SlotSnapshots
import ArmControl.Config.Provenance
import ArmControl.Plants.SliceDeadmen
import ArmControl.Plants.WorldClock
