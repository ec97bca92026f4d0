import ClusterPulse.Collector.Alerting

/-!
# Ingestion and action results

`MetricsIngestionService.ingest` records the node, persists the samples and evaluates the rules,
swallowing whatever the evaluation raises.  `RemediationActionService.reportResult` accepts the
Agent's report on a dispatched action.  `Deployment` is the configuration a Collector process runs
with, and builds the services as `collector/api/deps.py` does.
-/

namespace ClusterPulse

/-! ## Ingestion -/

namespace MetricsIngestionService

/-- The wire form of a dispatched action. -/
def pendingAction (action : RemediationActionRecord) : PendingAction :=
  ⟨action.id, action.actionType, action.parameters⟩

/-- Evaluate the rules; any exception is logged and leaves no pending actions. -/
def evaluateRulesBestEffort (alertEvaluation : AlertEvaluationService)
    (payload : NodeMetricsPayload) : Repo (List PendingAction) :=
  Prog.tryCatch
    (do
      let outcome ← alertEvaluation.evaluateAndApply payload.nodeId payload.samples
        payload.collectedAt
      return outcome.dispatchedActions.map pendingAction)
    fun _ => return []

/-- Record that the node was seen and persist the samples. -/
def persist (payload : NodeMetricsPayload) (receivedAt : Instant) : Repo Unit := do
  let _ ← (Call.upsertSeen payload.nodeId payload.collectedAt).perform
  (Call.bulkInsert payload.nodeId payload.samples payload.collectedAt receivedAt).perform

/-- Persist `payload`, evaluate rules, and return an acknowledgement. -/
def ingest (alertEvaluation : AlertEvaluationService) (payload : NodeMetricsPayload)
    (receivedAt : Instant) : Repo Ack := do
  persist payload receivedAt
  let pendingActions ← evaluateRulesBestEffort alertEvaluation payload
  return { accepted := true, receivedAt, pendingActions }

end MetricsIngestionService

/-! ## Action results -/

namespace RemediationActionService

/-- `_RESULT_STATUS_TO_ACTION_STATUS`. -/
def actionStatus : ActionResultStatus → RemediationActionStatus
  | .executed => .executed
  | .failed => .failed

/-- The action with `actionId`, raising if it does not exist. -/
def getAction (actionId : ℕ) : Repo RemediationActionRecord := do
  let record ← (Call.getAction actionId).perform
  match (record : Option RemediationActionRecord) with
  | none => .throw (.remediationActionNotFoundError actionId)
  | some record => return record

/-- Record the Agent-reported terminal outcome of a dispatched action. -/
def reportResult (actionId : ℕ) (result : ActionResult) (now : Instant) :
    Repo RemediationActionRecord := do
  let current ← getAction actionId
  if current.status = .dispatched then
    (Call.markResult actionId (actionStatus result.status) result.message now).perform
  else .throw (.remediationActionNotDispatchedError actionId current.status.value)

end RemediationActionService

/-! ## Wiring -/

/-- What a Collector process is configured with. -/
structure Deployment where
  settings : CollectorSettings
  rulesConfig : RulesConfig
  remediationPolicy : RemediationPolicy

namespace Deployment

/-- `get_remediation_engine`. -/
def remediationEngine (d : Deployment) : RemediationEngine where
  policy := d.remediationPolicy
  enabled := d.settings.remediationEnabled
  maxActionsPerNodePerHour := d.settings.maxRemediationsPerNodePerHour
  cooldownSeconds := d.settings.remediationCooldownSeconds

/-- `get_alert_evaluation_service`. -/
def alertEvaluationService (d : Deployment) : AlertEvaluationService where
  ruleEngine := ⟨d.rulesConfig⟩
  notifier := d.settings.notificationsEnabled
  escalationAfterSeconds := d.settings.escalationAfterSeconds
  remediationEngine := some d.remediationEngine
  remediationAfterSeconds := d.settings.remediationAfterSeconds

end Deployment

end ClusterPulse
