import ClusterPulse.Proof.AckDispatches
import ClusterPulse.Proof.AlertRuns
import ClusterPulse.Proof.GroundTruth
import ClusterPulse.Proof.OneDecision
import ClusterPulse.Proof.SafetyLimits
import ClusterPulse.Proof.SingleFiring
import ClusterPulse.Proof.AcceptedResults
import ClusterPulse.Proof.OneShot
import ClusterPulse.Agent.Scheduler
import ClusterPulse.Cluster
import ClusterPulse.Proof.OperationCalls
import ClusterPulse.Proof.AtMostOnce
import ClusterPulse.Agent.Deliveries
import ClusterPulse.Proof.Deliveries
import ClusterPulse.Collector.Scheduler
import ClusterPulse.Proof.OneLoop
import ClusterPulse.Proof.AuditLog
import ClusterPulse.Collector.NodeRegistry
import ClusterPulse.Proof.Staleness
import ClusterPulse.Proof.CollectorTime
import ClusterPulse.Proof.DispatchTimeout
import ClusterPulse.Proof.RetainedLimits
import ClusterPulse.Lib.Register
import ClusterPulse.Proof.DeliveryOrder
import ClusterPulse.Lib.Coupling
import ClusterPulse.Proof.SameTables
import ClusterPulse.Proof.Reapplied
import ClusterPulse.Proof.Redelivery
import ClusterPulse.Agent.Buffer
import ClusterPulse.Lib.Batches
import ClusterPulse.Lib.Slots
import ClusterPulse.Proof.BufferCorruption
import ClusterPulse.Proof.BufferFaults
import ClusterPulse.Proof.EvaluationRuns
import ClusterPulse.Proof.JobCutoffs
import ClusterPulse.Proof.SampleOrder
import ClusterPulse.Proof.StalenessRuns
import ClusterPulse.Proof.TotalEvaluation
import ClusterPulse.Proof.TransportErrors
import ClusterPulse.Agent.Remediation
import ClusterPulse.Collector.Authentication
import ClusterPulse.Collector.JobLoop
import ClusterPulse.Proof.ClearDirectory
import ClusterPulse.Proof.JobSpacing
import ClusterPulse.Proof.RuleSpecification
import ClusterPulse.Proof.StalenessAgreement
import ClusterPulse.Proof.TokenCheck
import ClusterPulse.Agent.Collectors
import ClusterPulse.Agent.Process
import ClusterPulse.Collector.Api
import ClusterPulse.Collector.Notifications
import ClusterPulse.Lib.Safety
import ClusterPulse.Lib.Silence
import ClusterPulse.Network
import ClusterPulse.Proof.Accounting
import ClusterPulse.Proof.AgentDisk
import ClusterPulse.Proof.AgentLife
import ClusterPulse.Proof.ApiCalls
import ClusterPulse.Proof.ApiInfluence
import ClusterPulse.Proof.Delivery
import ClusterPulse.Fleet
import ClusterPulse.Lib.Ghost
import ClusterPulse.Lib.Holdings
import ClusterPulse.Lib.Interference
import ClusterPulse.Lib.TableHistory
import ClusterPulse.Proof.Announcements
import ClusterPulse.Proof.FleetExecutions
import ClusterPulse.Proof.InterleavedLives
import ClusterPulse.Proof.KillLosses
import ClusterPulse.Proof.Notified
import ClusterPulse.Proof.AnsweredActions
import ClusterPulse.Lib.PurePath
import ClusterPulse.Lib.FileChanges
import ClusterPulse.Proof.BufferPlace
import ClusterPulse.Proof.BufferSite
