import ClusterPulse.Collector.Rules
import ClusterPulse.Collector.Remediation

/-!
# The alert evaluation service

`AlertEvaluationService` applies rule results to the alert lifecycle: a breach opens an alert or
advances the open one, which may then escalate and be remediated; a result that is not a breach
resolves it.  The age checks subtract a stored instant from the payload's `collectedAt`, which
raises when that is naive.
-/

namespace ClusterPulse

/-- The alerts touched by one evaluation and the decisions that were dispatched. -/
structure EvaluationOutcome where
  transitions : List AlertRecord
  dispatchedActions : List RemediationActionRecord

/-- Applies the alert lifecycle from rule results. -/
structure AlertEvaluationService where
  ruleEngine : RuleEngine
  /-- Whether a notifier is configured. -/
  notifier : Bool
  escalationAfterSeconds : Double
  remediationEngine : Option RemediationEngine
  remediationAfterSeconds : Double

namespace AlertEvaluationService

variable (svc : AlertEvaluationService)

/-- The alert with `alertId`, raising if it does not exist. -/
def getAlert (alertId : ℕ) : Repo AlertRecord := do
  let record ← (Call.getAlert alertId).perform
  match (record : Option AlertRecord) with
  | none => .throw (.alertNotFoundError alertId)
  | some record => return record

/-- Acknowledge a firing alert at the clock reading `now`. -/
def acknowledge (alertId : ℕ) (acknowledgedBy : String) (now : Instant) : Repo AlertRecord := do
  let current ← getAlert alertId
  if current.status = .resolved then .throw (.alertAlreadyResolvedError alertId)
  else (Call.acknowledgeAlert alertId acknowledgedBy now).perform

def notify (message : Notification) : Repo Unit :=
  if svc.notifier then (Call.notify message).perform else return ()

/-- `(now - record.first_fired_at).total_seconds() >= threshold`. -/
def ageReaches (record : AlertRecord) (now : Datetime) (threshold : Double) : Except PyError Bool :=
  (now.since record.firstFiredAt).map fun age => decide (threshold ≤ age.totalSeconds)

def shouldEscalate (record : AlertRecord) (now : Datetime) : Except PyError Bool :=
  if record.acknowledgedAt.isSome || record.escalatedAt.isSome then .ok false
  else ageReaches record now svc.escalationAfterSeconds

def shouldRemediate (record : AlertRecord) (now : Datetime) : Except PyError Bool :=
  if svc.remediationEngine.isNone then .ok false
  else if record.acknowledgedAt.isSome || record.remediatedAt.isSome then .ok false
  else ageReaches record now svc.remediationAfterSeconds

def openAlert (nodeId : String) (result : RuleEvaluationResult) (firedAt : Datetime) :
    Repo AlertRecord := do
  let record ← (Call.createAlert nodeId result.ruleKey result.ruleKind result.severity
    result.description result.value result.bound firedAt).perform
  svc.notify (.opened record)
  return record

def maybeEscalate (firedAt : Datetime) (record : AlertRecord) : Repo AlertRecord := do
  if ← Prog.lift (svc.shouldEscalate record firedAt) then
    let escalated ← (Call.escalateAlert record.id firedAt).perform
    svc.notify (.escalated escalated)
    return escalated
  else return record

/-- The decision itself counts only when it was dispatched. -/
def dispatchedOnly (decision : RemediationActionRecord) : Option RemediationActionRecord :=
  if decision.status = .dispatched then some decision else none

/-- Record the decision on the alert, dispatched or blocked. -/
def markDecision (firedAt : Datetime) (record : AlertRecord) :
    Option RemediationActionRecord → Repo (AlertRecord × Option RemediationActionRecord)
  | none => return (record, none)
  | some decision => do
    let updated ← (Call.markRemediated record.id firedAt).perform
    return (updated, dispatchedOnly decision)

def maybeRemediate (nodeId : String) (result : RuleEvaluationResult) (firedAt : Datetime)
    (record : AlertRecord) : Repo (AlertRecord × Option RemediationActionRecord) := do
  let due ← Prog.lift (svc.shouldRemediate record firedAt)
  match due, svc.remediationEngine with
  | true, some engine =>
    let decision ← engine.decide nodeId record.id result.ruleKey firedAt
    markDecision firedAt record decision
  | _, _ => return (record, none)

def openOrAdvance (nodeId : String) (result : RuleEvaluationResult) (firedAt : Datetime) :
    Option AlertRecord → Repo (AlertRecord × Option RemediationActionRecord)
  | none => do
    let record ← svc.openAlert nodeId result firedAt
    return (record, none)
  | some current => do
    let advanced ← (Call.updateLastFired current.id result.value firedAt).perform
    let escalated ← svc.maybeEscalate firedAt advanced
    svc.maybeRemediate nodeId result firedAt escalated

def resolve (resolvedAt : Datetime) (current : AlertRecord) : Repo AlertRecord := do
  let record ← (Call.resolveAlert current.id resolvedAt).perform
  svc.notify (.resolved record)
  return record

/-- Apply one rule result: the alert it touched and the action it dispatched. -/
def apply (nodeId : String) (result : RuleEvaluationResult) (firedAt : Datetime) :
    Repo (Option AlertRecord × Option RemediationActionRecord) := do
  let current ← (Call.findOpenAlert nodeId result.ruleKey).perform
  if result.breached then
    let (record, dispatched) ← svc.openOrAdvance nodeId result firedAt current
    return (some record, dispatched)
  else match (current : Option AlertRecord) with
    | none => return (none, none)
    | some current =>
      let resolved ← svc.resolve firedAt current
      return (some resolved, none)

/-- One pass of the loop over the results. -/
def applyNext (nodeId : String) (collectedAt : Datetime) (outcome : EvaluationOutcome)
    (result : RuleEvaluationResult) : Repo EvaluationOutcome := do
  let (view, dispatched) ← svc.apply nodeId result collectedAt
  return ⟨outcome.transitions ++ view.toList, outcome.dispatchedActions ++ dispatched.toList⟩

/-- Apply the results in order. -/
def applyAll (nodeId : String) (collectedAt : Datetime) (results : List RuleEvaluationResult) :
    Repo EvaluationOutcome :=
  results.foldlM (svc.applyNext nodeId collectedAt) ⟨[], []⟩

/-- Evaluate the configured rules and apply any resulting alert transitions. -/
def evaluateAndApply (nodeId : String) (samples : List MetricSample) (collectedAt : Datetime) :
    Repo EvaluationOutcome := do
  let results ← svc.ruleEngine.evaluate nodeId samples collectedAt
  svc.applyAll nodeId collectedAt results

end AlertEvaluationService

end ClusterPulse
