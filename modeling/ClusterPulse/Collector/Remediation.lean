import ClusterPulse.Collector.Calls
import ClusterPulse.Collector.Config

/-!
# The remediation engine

`RemediationEngine.decide` checks the two Safety Limits for the playbook of an alert and records
the decision, dispatched or blocked, in the audit log.
-/

namespace ClusterPulse

/-- Applies the Safety Limits before dispatching a playbook. -/
structure RemediationEngine where
  policy : RemediationPolicy
  enabled : Bool
  maxActionsPerNodePerHour : ℕ
  cooldownSeconds : Double

namespace RemediationEngine

/-- `_by_rule_key.get`. -/
def byRuleKey? (e : RemediationEngine) (ruleKey : String) : Option PlaybookDefinition :=
  e.policy.playbooks.reverse.find? fun p => p.ruleKey == ruleKey

/-- A `Double` has one zero: for a configured cooldown of `-0.0` the source prints `-0s`, where this
prints `0s`. -/
def cooldownReason (elapsed cooldown : Double) : String :=
  "cooldown active: " ++ elapsed.toFixed ++ "s of " ++ cooldown.toFixed ++ "s since last action"

def rateLimitReason (recentCount maxActions : ℕ) : String :=
  "rate limit reached: " ++ toString recentCount ++ " actions in the last hour (max " ++
    toString maxActions ++ ")"

/-- The time since the last action for the playbook; none if there was no action. -/
def elapsedSince (now : Datetime) : Option RemediationActionRecord → Except PyError (Option Double)
  | none => .ok none
  | some last => (now.since last.createdAt).map fun d => some d.totalSeconds

/-- The second Safety Limit: actions of any status for the node in the last hour. -/
def checkRateLimit (e : RemediationEngine) (nodeId : String) (now : Datetime) :
    Repo (Option String) := do
  let since ← Prog.lift (now.minus Timedelta.hour)
  let recentCount ← (Call.countRecentActions nodeId since).perform
  if e.maxActionsPerNodePerHour ≤ recentCount then
    return some (rateLimitReason recentCount e.maxActionsPerNodePerHour)
  else return none

/-- Why the playbook may not be dispatched now, if it may not. -/
def checkSafetyLimits (e : RemediationEngine) (nodeId : String) (playbook : PlaybookDefinition)
    (now : Datetime) : Repo (Option String) := do
  let last ← (Call.findLastAction nodeId playbook.playbookName).perform
  match ← Prog.lift (elapsedSince now last) with
  | some elapsed =>
    if elapsed < e.cooldownSeconds then return some (cooldownReason elapsed e.cooldownSeconds)
    else e.checkRateLimit nodeId now
  | none => e.checkRateLimit nodeId now

/-- The status a decision is recorded with. -/
def statusFor : Option String → RemediationActionStatus
  | some _ => .blockedBySafetyLimit
  | none => .dispatched

/-- The recorded decision for an alert; none, and no record, if remediation is disabled or no
playbook is mapped to the rule key. -/
def decide (e : RemediationEngine) (nodeId : String) (alertId : ℕ) (ruleKey : String)
    (now : Datetime) : Repo (Option RemediationActionRecord) :=
  if e.enabled then
    match e.byRuleKey? ruleKey with
    | none => return none
    | some playbook => do
      let blockedReason ← e.checkSafetyLimits nodeId playbook now
      let action ← (Call.createAction nodeId alertId ruleKey playbook.playbookName
        playbook.actionType playbook.parameters (statusFor blockedReason) blockedReason now).perform
      return some action
  else return none

end RemediationEngine

end ClusterPulse
