import ClusterPulse.Collector.Services
import ClusterPulse.Collector.Jobs
import ClusterPulse.Lib.Serial

/-!
# The operations of the Collector

An `Operation` is one request or one job sweep, with the configuration in force when it runs.
A serial run takes a list of operations, each to its end; `timeline` lists its calls.  A `pool` runs
the operations next to each other.
-/

namespace ClusterPulse

/-- What an operation returns. -/
inductive Reply where
  | evaluated (outcome : EvaluationOutcome)
  | ack (ack : Ack)
  | alert (record : AlertRecord)
  | action (record : RemediationActionRecord)
  | timedOut (count : ℕ)
  | pruned (stats : RetentionRunStats)
  | swept (counts : StalenessCounts)

/-- A request or a job sweep. -/
inductive Operation where
  | evaluateAndApply (svc : AlertEvaluationService) (nodeId : String) (samples : List MetricSample)
      (collectedAt : Datetime)
  | ingest (svc : AlertEvaluationService) (payload : NodeMetricsPayload) (receivedAt : Instant)
  | acknowledge (alertId : ℕ) (acknowledgedBy : String) (now : Instant)
  | reportResult (actionId : ℕ) (result : ActionResult) (now : Instant)
  | reconciliation (settings : CollectorSettings) (now : Datetime)
  | retention (settings : CollectorSettings) (now : Datetime) (passes : ℕ)
  | staleness (settings : CollectorSettings) (firstRunDone : Bool) (now : Datetime)

namespace Operation

/-- The program of an operation. -/
def program : Operation → Repo Reply
  | evaluateAndApply svc nodeId samples collectedAt =>
    Reply.evaluated <$> svc.evaluateAndApply nodeId samples collectedAt
  | ingest svc payload receivedAt =>
    Reply.ack <$> MetricsIngestionService.ingest svc payload receivedAt
  | acknowledge alertId acknowledgedBy now =>
    Reply.alert <$> AlertEvaluationService.acknowledge alertId acknowledgedBy now
  | reportResult actionId result now =>
    Reply.action <$> RemediationActionService.reportResult actionId result now
  | reconciliation settings now => Reply.timedOut <$> ReconciliationJob.run settings now
  | retention settings now passes => Reply.pruned <$> RetentionJob.run settings now passes
  | staleness settings firstRunDone now =>
    Reply.swept <$> StalenessJob.run settings firstRunDone now

def IsIngest : Operation → Prop
  | ingest .. => True
  | _ => False

/-- The world after a serial run. -/
def runAll (env : Environment) (ops : List Operation) (w : World) : World :=
  ((Prog.serial (ops.map program)).run (handle env) w).2

/-- The calls of a serial run, each with the operation in progress and the worlds around it. -/
def timeline (env : Environment) (ops : List Operation) (w : World) :
    List (Prog.Step Operation World) :=
  Prog.timeline (handle env) program ops w

/-- The operations side by side, each with its own session. -/
def pool (ops : List Operation) (w : World) : Pool Call Call.Res PyError Reply World :=
  ⟨w, ops.map program⟩

end Operation

/-! ## A small deployment -/

namespace Scenario

/-- One rule, for a saturated processor, and a playbook for it that does nothing. -/
def deployment : Deployment where
  settings := { CollectorSettings.default with
    remediationEnabled := true
    escalation_le_remediation := CollectorSettings.default_ordered true }
  rulesConfig := { thresholdRules := [⟨.cpuUsagePercent, .greaterThan, 90, .critical, "cpu"⟩] }
  remediationPolicy :=
    { playbooks := [⟨"threshold:cpu.usage_percent", "relax", .noop, [], "do nothing"⟩] }

def service : AlertEvaluationService := deployment.alertEvaluationService

instance neZeroSeconds : NeZero 86400 := ⟨by decide⟩

/-- Some day in the year 2021, at `seconds` past midnight UTC. -/
def clock (seconds : Fin 86400) : Datetime :=
  .utc (738000 * Timedelta.day + seconds.val * Timedelta.second)
    (by unfold Timedelta.day Timedelta.hour Timedelta.second; positivity)
    (by
      have h := seconds.isLt
      show (738000 * 86400000000 + (seconds.val : ℤ) * 1000000 : ℤ) ≤ 3652059 * 86400000000 - 1
      omega)

/-- A payload with one processor sample. -/
def payload (seconds : Fin 86400) (usage : Double) : NodeMetricsPayload where
  nodeId := "node-1"
  collectedAt := clock seconds
  samples := [⟨.cpuUsagePercent, usage, "percent", []⟩]
  collectionErrors := []

/-- The ingestion of such a payload. -/
def push (seconds : Fin 86400) (usage : Double) : Operation :=
  .ingest service (payload seconds usage) (clock seconds).instant

/-- The alert of the processor rule has escalated and is due for remediation. -/
def dueWorld : World := Operation.runAll .calm [push 0 95, push 1000 96] .fresh

end Scenario

end ClusterPulse
