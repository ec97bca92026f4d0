import ClusterPulse.Lib.TextFile
import ClusterPulse.Shared.Contracts

/-!
# The Collector's configuration

`CollectorSettings`, the rule configuration and the remediation policy, each with the validation
that its loader runs as fields: a value of these types has passed it.  Of the settings, the ones
that the modelled code reads.
-/

namespace ClusterPulse

/-! ## Settings -/

/-- `CollectorSettings`; the defaults are those of `shared/constants.py`. -/
structure CollectorSettings where
  heartbeatStaleAfterSeconds : Double := 90
  /-- Whether both Telegram settings are configured. -/
  notificationsEnabled : Bool := false
  escalationAfterSeconds : Double := 900
  remediationEnabled : Bool := false
  remediationAfterSeconds : Double := 1800
  maxRemediationsPerNodePerHour : ℕ := 3
  remediationCooldownSeconds : Double := 1800
  retentionEnabled : Bool := false
  metricsRetentionDays : ℕ := 7
  resolvedAlertsRetentionDays : ℕ := 30
  remediationActionsRetentionDays : ℕ := 90
  retentionBatchSize : ℕ := 10000
  remediationDispatchTimeoutSeconds : Double := 1800
  escalationAfterSeconds_ge : 0 ≤ escalationAfterSeconds := by decide +kernel
  remediationAfterSeconds_ge : 0 ≤ remediationAfterSeconds := by decide +kernel
  maxRemediationsPerNodePerHour_ge : 1 ≤ maxRemediationsPerNodePerHour := by decide
  remediationCooldownSeconds_ge : 0 ≤ remediationCooldownSeconds := by decide +kernel
  metricsRetentionDays_ge : 1 ≤ metricsRetentionDays := by decide
  resolvedAlertsRetentionDays_ge : 1 ≤ resolvedAlertsRetentionDays := by decide
  remediationActionsRetentionDays_ge : 1 ≤ remediationActionsRetentionDays := by decide
  retentionBatchSize_ge : 1 ≤ retentionBatchSize := by decide
  remediationDispatchTimeoutSeconds_gt : 0 < remediationDispatchTimeoutSeconds := by decide +kernel
  /-- `_require_alert_retention_within_remediation_retention`. -/
  alertRetention_le : retentionEnabled = true →
    resolvedAlertsRetentionDays ≤ remediationActionsRetentionDays := by decide
  /-- `_require_remediation_after_escalation`. -/
  escalation_le_remediation : remediationEnabled = true →
    ¬ remediationAfterSeconds < escalationAfterSeconds := by decide +kernel

/-- The defaults pass every check. -/
def CollectorSettings.default : CollectorSettings := {}

/-- They pass with the retention sweep too. -/
theorem CollectorSettings.default_retained (enabled : Bool) : enabled = true →
    default.resolvedAlertsRetentionDays ≤ default.remediationActionsRetentionDays :=
  fun _ => by decide

/-- They pass with remediation too. -/
theorem CollectorSettings.default_ordered (enabled : Bool) : enabled = true →
    ¬ default.remediationAfterSeconds < default.escalationAfterSeconds :=
  fun _ => by decide +kernel

/-! ## Rules -/

/-- How a measured value is compared against a configured bound. -/
inductive ComparisonOperator where
  | greaterThan
  | greaterThanOrEqual
  | lessThan
  | lessThanOrEqual
deriving DecidableEq, Repr

/-- Apply `operator` to `value` against `bound`. -/
def evaluateComparison (operator : ComparisonOperator) (value bound : Double) : Bool :=
  match operator with
  | .greaterThan => bound < value
  | .greaterThanOrEqual => bound ≤ value
  | .lessThan => value < bound
  | .lessThanOrEqual => value ≤ bound

/-- Fires when a metric's raw value crosses a fixed bound. -/
structure ThresholdRuleDefinition where
  metricType : MetricType
  comparison : ComparisonOperator
  threshold : Double
  severity : Severity
  description : String
deriving DecidableEq, Repr

/-- Fires when a metric changes by more than `maxDelta` within `windowSeconds`. -/
structure RateOfChangeRuleDefinition where
  metricType : MetricType
  comparison : ComparisonOperator
  maxDelta : Double
  windowSeconds : Double
  severity : Severity
  description : String
deriving DecidableEq, Repr

/-- The configured rules: at most one of each kind per metric type. -/
structure RulesConfig where
  thresholdRules : List ThresholdRuleDefinition := []
  rateOfChangeRules : List RateOfChangeRuleDefinition := []
  thresholdRules_unique :
    (thresholdRules.map ThresholdRuleDefinition.metricType).Nodup := by decide
  rateOfChangeRules_unique :
    (rateOfChangeRules.map RateOfChangeRuleDefinition.metricType).Nodup := by decide

/-! ## Playbooks -/

/-- A named remediation action mapped to the alert condition that triggers it. -/
structure PlaybookDefinition where
  ruleKey : String
  playbookName : String
  actionType : PlaybookActionType
  parameters : StrDict
  description : String
deriving DecidableEq, Repr

/-- `_validate_action_parameters`: a directory to clear is named, and nothing is restarted. -/
def PlaybookDefinition.validActionParameters (p : PlaybookDefinition) : Bool :=
  match p.actionType with
  | .noop => true
  | .clearDirectory => !TextFile.isBlank ((p.parameters.lookup "path").getD "").toList
  | .restartService => false

/-- The configured playbooks: at most one per rule key. -/
structure RemediationPolicy where
  playbooks : List PlaybookDefinition := []
  ruleKeys_unique : (playbooks.map PlaybookDefinition.ruleKey).Nodup := by decide
  actionParameters_valid :
    ∀ p ∈ playbooks, p.validActionParameters = true := by decide +kernel

end ClusterPulse
