import ClusterPulse.Collector.Calls
import ClusterPulse.Collector.Config

/-!
# The rule engine

`RuleEngine.evaluate` goes through the samples of a payload in order and emits, for each, the
result of the threshold rule of its metric type and then that of the rate-of-change rule, which
needs an earlier sample to compare against.
-/

namespace ClusterPulse

/-- The outcome of evaluating one rule against one sample. -/
structure RuleEvaluationResult where
  ruleKey : String
  ruleKind : RuleKind
  severity : Severity
  description : String
  breached : Bool
  value : Double
  bound : Double
deriving DecidableEq, Repr

/-- Evaluates the configured rules; the two dictionaries are looked up by metric type. -/
structure RuleEngine where
  rulesConfig : RulesConfig

/-- The key under which the alerts of a configured rule are filed. -/
def ruleKeyOf (kind : RuleKind) (metricType : MetricType) : String :=
  kind.value ++ ":" ++ metricType.value

theorem MetricType.value_injective : Function.Injective MetricType.value := by
  intro m m' h
  cases m <;> cases m' <;> first | rfl | simp [MetricType.value] at h

theorem ruleKeyOf_inj {kind : RuleKind} {m m' : MetricType} :
    ruleKeyOf kind m = ruleKeyOf kind m' ↔ m = m' := by
  constructor
  · intro h
    unfold ruleKeyOf at h
    rw [String.append_right_inj] at h
    exact MetricType.value_injective h
  · exact fun h => h ▸ rfl

/-- A threshold rule and a rate-of-change rule never share their alerts. -/
theorem ruleKeyOf_threshold_ne (m m' : MetricType) :
    ruleKeyOf .threshold m ≠ ruleKeyOf .rateOfChange m' := by
  intro h
  have hhead := congrArg (fun s => s.toList.head?) h
  simp [ruleKeyOf, RuleKind.value] at hhead

namespace RuleEngine

/-- `_threshold_rules.get`: in a dict comprehension the last entry of a key stays. -/
def thresholdRule? (e : RuleEngine) (m : MetricType) : Option ThresholdRuleDefinition :=
  e.rulesConfig.thresholdRules.reverse.find? fun r => r.metricType == m

/-- `_rate_of_change_rules.get`. -/
def rateOfChangeRule? (e : RuleEngine) (m : MetricType) : Option RateOfChangeRuleDefinition :=
  e.rulesConfig.rateOfChangeRules.reverse.find? fun r => r.metricType == m

def evaluateThreshold (rule : ThresholdRuleDefinition) (sample : MetricSample) :
    RuleEvaluationResult where
  ruleKey := ruleKeyOf .threshold rule.metricType
  ruleKind := .threshold
  severity := rule.severity
  description := rule.description
  breached := evaluateComparison rule.comparison sample.value rule.threshold
  value := sample.value
  bound := rule.threshold

/-- The result of a rate-of-change rule, given the sample to compare against. -/
def rateOfChangeResult (rule : RateOfChangeRuleDefinition) (sample : MetricSample)
    (previous : MetricSampleModel) : RuleEvaluationResult where
  ruleKey := ruleKeyOf .rateOfChange rule.metricType
  ruleKind := .rateOfChange
  severity := rule.severity
  description := rule.description
  breached := evaluateComparison rule.comparison (sample.value - previous.value) rule.maxDelta
  value := sample.value - previous.value
  bound := rule.maxDelta

/-- Compare `sample` against the most recent prior sample in the window, if there is one. -/
def evaluateRateOfChange (nodeId : String) (rule : RateOfChangeRuleDefinition)
    (sample : MetricSample) (collectedAt : Datetime) : Repo (Option RuleEvaluationResult) := do
  let previous ← (Call.findPreviousSample nodeId sample.metricType collectedAt
    rule.windowSeconds).perform
  return Option.map (rateOfChangeResult rule sample) previous

/-- The rules that apply to one sample. -/
def evaluateSample (e : RuleEngine) (nodeId : String) (collectedAt : Datetime)
    (results : List RuleEvaluationResult) (sample : MetricSample) :
    Repo (List RuleEvaluationResult) := do
  let results := results ++ ((e.thresholdRule? sample.metricType).map
    (evaluateThreshold · sample)).toList
  match e.rateOfChangeRule? sample.metricType with
  | none => return results
  | some rateRule =>
    let rateResult ← evaluateRateOfChange nodeId rateRule sample collectedAt
    return results ++ rateResult.toList

/-- Evaluate every applicable rule for each of `samples`. -/
def evaluate (e : RuleEngine) (nodeId : String) (samples : List MetricSample)
    (collectedAt : Datetime) : Repo (List RuleEvaluationResult) :=
  samples.foldlM (e.evaluateSample nodeId collectedAt) []

end RuleEngine

end ClusterPulse
