import ClusterPulse.Shared.Datetime

/-!
# The wire contract and the enumerations

The Agent to Collector contract (version 1) and the enumerations of `shared/constants.py` and
`collector/enums.py`, each with the value it is stored and sent under.
-/

namespace ClusterPulse

/-! ## Enumerations -/

/-- The metric kinds an Agent collector can produce. -/
inductive MetricType where
  | cpuUsagePercent
  | memoryUsagePercent
  | memoryUsedBytes
  | memoryAvailableBytes
  | diskUsagePercent
  | diskUsedBytes
  | diskFreeBytes
  | networkBytesSent
  | networkBytesRecv
deriving DecidableEq, Repr

def MetricType.value : MetricType → String
  | cpuUsagePercent => "cpu.usage_percent"
  | memoryUsagePercent => "memory.usage_percent"
  | memoryUsedBytes => "memory.used_bytes"
  | memoryAvailableBytes => "memory.available_bytes"
  | diskUsagePercent => "disk.usage_percent"
  | diskUsedBytes => "disk.used_bytes"
  | diskFreeBytes => "disk.free_bytes"
  | networkBytesSent => "network.bytes_sent"
  | networkBytesRecv => "network.bytes_recv"

/-- How urgently an alert condition demands attention. -/
inductive Severity where
  | warning
  | critical
deriving DecidableEq, Repr

/-- Which category of rule produced an evaluation result or an alert. -/
inductive RuleKind where
  | threshold
  | rateOfChange
  | staleness
deriving DecidableEq, Repr

def RuleKind.value : RuleKind → String
  | threshold => "threshold"
  | rateOfChange => "rate_of_change"
  | staleness => "staleness"

/-- An alert's position in its lifecycle. -/
inductive AlertStatus where
  | firing
  | resolved
deriving DecidableEq, Repr

/-- A remediation action's position in its dispatch/execution lifecycle. -/
inductive RemediationActionStatus where
  | blockedBySafetyLimit
  | dispatched
  | executed
  | failed
deriving DecidableEq, Repr

def RemediationActionStatus.value : RemediationActionStatus → String
  | blockedBySafetyLimit => "blocked_by_safety_limit"
  | dispatched => "dispatched"
  | executed => "executed"
  | failed => "failed"

/-- A remediation action kind. -/
inductive PlaybookActionType where
  | noop
  | clearDirectory
  | restartService
deriving DecidableEq, Repr

def PlaybookActionType.value : PlaybookActionType → String
  | noop => "noop"
  | clearDirectory => "clear_directory"
  | restartService => "restart_service"

/-- The terminal outcome the Agent reports back for a dispatched action. -/
inductive ActionResultStatus where
  | executed
  | failed
deriving DecidableEq, Repr

/-! ## Messages -/

/-- A `dict[str, str]`, in insertion order. -/
abbrev StrDict : Type := List (String × String)

/-- A single metric observation produced by one Agent collector. -/
structure MetricSample where
  metricType : MetricType
  value : Double
  unit : String
  labels : StrDict
deriving DecidableEq, Repr

/-- Everything one Agent collection cycle pushes to the Collector. -/
structure NodeMetricsPayload where
  nodeId : String
  collectedAt : Datetime
  samples : List MetricSample
  collectionErrors : List String
deriving DecidableEq

/-- One Playbook the Collector dispatched, carried on the `Ack`. -/
structure PendingAction where
  actionId : ℕ
  actionType : PlaybookActionType
  parameters : StrDict
deriving DecidableEq, Repr

/-- The Collector's acknowledgement of a received payload. -/
structure Ack where
  accepted : Bool
  receivedAt : Instant
  message : Option String := none
  pendingActions : List PendingAction
deriving DecidableEq, Repr

/-- The Agent's report of what happened when it ran a `PendingAction`. -/
structure ActionResult where
  status : ActionResultStatus
  message : Option String
deriving DecidableEq, Repr

end ClusterPulse
