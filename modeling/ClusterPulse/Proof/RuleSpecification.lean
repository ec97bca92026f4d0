import ClusterPulse.Proof.TotalEvaluation

/-!
# What the rule engine computes

The specification reads the lists of the configured rules, not the dictionaries made of them, and the
samples as they were stored before the payload.  The engine runs after the payload has been inserted;
the window of a rate-of-change rule is open at `collected_at`, so the payload's own rows, those of an
earlier delivery of it and all later ones are out of its sight.
-/

namespace ClusterPulse

open Prog

/-! ## The specification -/

/-- What it means that a measured value breaches a bound. -/
def ComparisonOperator.Breaches (value bound : Double) : ComparisonOperator → Prop
  | .greaterThan => bound < value
  | .greaterThanOrEqual => bound ≤ value
  | .lessThan => value < bound
  | .lessThanOrEqual => value ≤ bound

/-- The result of a threshold rule for a sample. -/
structure IsThresholdResult (rule : ThresholdRuleDefinition) (sample : MetricSample)
    (r : RuleEvaluationResult) : Prop where
  ruleKey : r.ruleKey = "threshold:" ++ rule.metricType.value
  ruleKind : r.ruleKind = .threshold
  severity : r.severity = rule.severity
  description : r.description = rule.description
  value : r.value = sample.value
  bound : r.bound = rule.threshold
  breached : r.breached = true ↔ rule.comparison.Breaches sample.value rule.threshold

/-- The result of a rate-of-change rule for a sample and the value it is compared against. -/
structure IsRateResult (rule : RateOfChangeRuleDefinition) (sample : MetricSample)
    (previous : Double) (r : RuleEvaluationResult) : Prop where
  ruleKey : r.ruleKey = "rate_of_change:" ++ rule.metricType.value
  ruleKind : r.ruleKind = .rateOfChange
  severity : r.severity = rule.severity
  description : r.description = rule.description
  value : r.value = sample.value - previous
  bound : r.bound = rule.maxDelta
  breached : r.breached = true ↔ rule.comparison.Breaches (sample.value - previous) rule.maxDelta

/-- A stored sample of the node and the metric type, before `t` and no longer ago than the window. -/
structure IsPrior (σ : Store) (nodeId : String) (metricType : MetricType) (t : Instant)
    (window : Timedelta) (s : MetricSampleModel) : Prop where
  stored : s ∈ σ.metricSamples.rows
  nodeId : s.nodeId = nodeId
  metricType : s.metricType = metricType
  lower : t - window ≤ s.collectedAt
  upper : s.collectedAt < t

/-- What the threshold rules say of a sample: nothing or one result. -/
inductive ThresholdPart (cfg : RulesConfig) (sample : MetricSample) :
    List RuleEvaluationResult → Prop where
  | configured {rule : ThresholdRuleDefinition} {r : RuleEvaluationResult}
    (hrule : rule ∈ cfg.thresholdRules) (hmetric : rule.metricType = sample.metricType)
    (hr : IsThresholdResult rule sample r) : ThresholdPart cfg sample [r]
  | unconfigured (hnone : ∀ rule ∈ cfg.thresholdRules, rule.metricType ≠ sample.metricType) :
    ThresholdPart cfg sample []

/-- What the rate-of-change rules say of a sample: nothing, or one result against a stored sample
than which no other in the window is later. -/
inductive RatePart (cfg : RulesConfig) (σ : Store) (nodeId : String) (t : Instant)
    (sample : MetricSample) : List RuleEvaluationResult → Prop where
  | compared {rule : RateOfChangeRuleDefinition} {window : Timedelta} {previous : MetricSampleModel}
    {r : RuleEvaluationResult} (hrule : rule ∈ cfg.rateOfChangeRules)
    (hmetric : rule.metricType = sample.metricType)
    (hwindow : Timedelta.ofSeconds rule.windowSeconds = .ok window)
    (hprevious : IsPrior σ nodeId sample.metricType t window previous)
    (hlatest : ∀ s, IsPrior σ nodeId sample.metricType t window s →
      s.collectedAt ≤ previous.collectedAt)
    (hr : IsRateResult rule sample previous.value r) : RatePart cfg σ nodeId t sample [r]
  | nothingPrior {rule : RateOfChangeRuleDefinition} {window : Timedelta}
    (hrule : rule ∈ cfg.rateOfChangeRules) (hmetric : rule.metricType = sample.metricType)
    (hwindow : Timedelta.ofSeconds rule.windowSeconds = .ok window)
    (hnone : ∀ s, ¬ IsPrior σ nodeId sample.metricType t window s) :
    RatePart cfg σ nodeId t sample []
  | unconfigured (hnone : ∀ rule ∈ cfg.rateOfChangeRules, rule.metricType ≠ sample.metricType) :
    RatePart cfg σ nodeId t sample []

/-- What the rules say of the samples, in their order. -/
inductive Specified (cfg : RulesConfig) (σ : Store) (nodeId : String) (t : Instant) :
    List MetricSample → List RuleEvaluationResult → Prop where
  | nil : Specified cfg σ nodeId t [] []
  | cons {sample : MetricSample} {samples : List MetricSample}
    {threshold rate results : List RuleEvaluationResult}
    (hthreshold : ThresholdPart cfg sample threshold) (hrate : RatePart cfg σ nodeId t sample rate)
    (hrest : Specified cfg σ nodeId t samples results) :
    Specified cfg σ nodeId t (sample :: samples) (threshold ++ rate ++ results)

/-- The tables hold the same samples before `t`. -/
def SameBefore (t : Instant) (σ σ' : Store) : Prop :=
  ∀ s : MetricSampleModel, s.collectedAt < t →
    (s ∈ σ'.metricSamples.rows ↔ s ∈ σ.metricSamples.rows)

/-! ## Only the rows before the payload -/

section SameBefore

variable {σ σ' : Store} {nodeId : String} {t : Instant} {cfg : RulesConfig} {sample : MetricSample}
  {samples : List MetricSample} {results : List RuleEvaluationResult}

theorem SameBefore.isPrior_iff (h : SameBefore t σ σ') {metricType : MetricType}
    {window : Timedelta} (s : MetricSampleModel) :
    IsPrior σ' nodeId metricType t window s ↔ IsPrior σ nodeId metricType t window s :=
  ⟨fun hs => ⟨(h s hs.upper).1 hs.stored, hs.nodeId, hs.metricType, hs.lower, hs.upper⟩,
    fun hs => ⟨(h s hs.upper).2 hs.stored, hs.nodeId, hs.metricType, hs.lower, hs.upper⟩⟩

theorem SameBefore.symm (h : SameBefore t σ σ') : SameBefore t σ' σ := fun s hs => (h s hs).symm

theorem RatePart.of_sameBefore (h : SameBefore t σ σ') (hrate : RatePart cfg σ nodeId t sample results) :
    RatePart cfg σ' nodeId t sample results := by
  cases hrate with
  | compared hrule hmetric hwindow hprevious hlatest hr =>
    exact .compared hrule hmetric hwindow ((h.isPrior_iff _).2 hprevious)
      (fun s hs => hlatest s ((h.isPrior_iff s).1 hs)) hr
  | nothingPrior hrule hmetric hwindow hnone =>
    exact .nothingPrior hrule hmetric hwindow fun s hs => hnone s ((h.isPrior_iff s).1 hs)
  | unconfigured hnone => exact .unconfigured hnone

theorem Specified.of_sameBefore (h : SameBefore t σ σ')
    (hresults : Specified cfg σ nodeId t samples results) :
    Specified cfg σ' nodeId t samples results := by
  induction hresults with
  | nil => exact .nil
  | cons hthreshold hrate hrest ih => exact .cons hthreshold (hrate.of_sameBefore h) ih

/-- A payload's own rows are not before it. -/
theorem sameBefore_bulkInsert (σ : Store) (nodeId : String) (samples : List MetricSample)
    (collectedAt : Datetime) (receivedAt : Instant) : SameBefore collectedAt.instant σ
      (MetricsRepository.bulkInsert σ nodeId samples collectedAt receivedAt) := by
  intro s hs
  show s ∈ (samples.foldl _ σ.metricSamples).rows ↔ _
  generalize σ.metricSamples = table
  induction samples generalizing table with
  | nil => exact Iff.rfl
  | cons sample samples ih =>
    rw [List.foldl_cons, ih, MetricsRepository.insertSample, Table.mem_insert]
    refine or_iff_left ?_
    rintro rfl
    exact lt_irrefl _ hs

end SameBefore

/-! ## The dictionaries -/

section Dictionaries

variable {e : RuleEngine} {m : MetricType}

theorem RuleEngine.thresholdRule?_eq_some_iff {rule : ThresholdRuleDefinition} :
    e.thresholdRule? m = some rule ↔ rule ∈ e.rulesConfig.thresholdRules ∧ rule.metricType = m := by
  have hunique : (e.rulesConfig.thresholdRules.reverse.map
      ThresholdRuleDefinition.metricType).Nodup := by
    rw [List.map_reverse, List.nodup_reverse]
    exact e.rulesConfig.thresholdRules_unique
  rw [RuleEngine.thresholdRule?, find?_key_eq_some_iff hunique, List.mem_reverse]

theorem RuleEngine.thresholdRule?_eq_none_iff :
    e.thresholdRule? m = none ↔ ∀ rule ∈ e.rulesConfig.thresholdRules, rule.metricType ≠ m := by
  rw [RuleEngine.thresholdRule?, find?_key_eq_none_iff]
  simp

theorem RuleEngine.rateOfChangeRule?_eq_some_iff {rule : RateOfChangeRuleDefinition} :
    e.rateOfChangeRule? m = some rule ↔
      rule ∈ e.rulesConfig.rateOfChangeRules ∧ rule.metricType = m := by
  have hunique : (e.rulesConfig.rateOfChangeRules.reverse.map
      RateOfChangeRuleDefinition.metricType).Nodup := by
    rw [List.map_reverse, List.nodup_reverse]
    exact e.rulesConfig.rateOfChangeRules_unique
  rw [RuleEngine.rateOfChangeRule?, find?_key_eq_some_iff hunique, List.mem_reverse]

theorem RuleEngine.rateOfChangeRule?_eq_none_iff :
    e.rateOfChangeRule? m = none ↔
      ∀ rule ∈ e.rulesConfig.rateOfChangeRules, rule.metricType ≠ m := by
  rw [RuleEngine.rateOfChangeRule?, find?_key_eq_none_iff]
  simp

end Dictionaries

/-! ## Results -/

section Results

variable {sample : MetricSample} {r : RuleEvaluationResult} {e : RuleEngine}

theorem evaluateComparison_iff (operator : ComparisonOperator) (value bound : Double) :
    evaluateComparison operator value bound = true ↔ operator.Breaches value bound := by
  cases operator <;> exact decide_eq_true_iff

theorem isThresholdResult_iff {rule : ThresholdRuleDefinition} :
    IsThresholdResult rule sample r ↔ r = RuleEngine.evaluateThreshold rule sample := by
  constructor
  · rintro ⟨hkey, hkind, hseverity, hdescription, hvalue, hbound, hbreached⟩
    obtain ⟨_, _, _, _, breached, _, _⟩ := r
    rw [← evaluateComparison_iff, ← Bool.eq_iff_iff] at hbreached
    dsimp only at *
    subst hkey hkind hseverity hdescription hvalue hbound hbreached
    rfl
  · rintro rfl
    exact ⟨rfl, rfl, rfl, rfl, rfl, rfl, evaluateComparison_iff _ _ _⟩

theorem isRateResult_iff {rule : RateOfChangeRuleDefinition} {previous : MetricSampleModel} :
    IsRateResult rule sample previous.value r ↔
      r = RuleEngine.rateOfChangeResult rule sample previous := by
  constructor
  · rintro ⟨hkey, hkind, hseverity, hdescription, hvalue, hbound, hbreached⟩
    obtain ⟨_, _, _, _, breached, _, _⟩ := r
    rw [← evaluateComparison_iff, ← Bool.eq_iff_iff] at hbreached
    dsimp only at *
    subst hkey hkind hseverity hdescription hvalue hbound hbreached
    rfl
  · rintro rfl
    exact ⟨rfl, rfl, rfl, rfl, rfl, rfl, evaluateComparison_iff _ _ _⟩

theorem thresholdPart_iff {results : List RuleEvaluationResult} :
    ThresholdPart e.rulesConfig sample results ↔ results = e.thresholdResults sample := by
  unfold RuleEngine.thresholdResults
  constructor
  · intro h
    cases h with
    | configured hrule hmetric hr =>
      rw [RuleEngine.thresholdRule?_eq_some_iff.2 ⟨hrule, hmetric⟩, isThresholdResult_iff.1 hr]
      rfl
    | unconfigured hnone =>
      rw [RuleEngine.thresholdRule?_eq_none_iff.2 hnone]
      rfl
  · rintro rfl
    cases hrule : e.thresholdRule? sample.metricType with
    | none => exact .unconfigured (RuleEngine.thresholdRule?_eq_none_iff.1 hrule)
    | some rule =>
      obtain ⟨hmem, hmetric⟩ := RuleEngine.thresholdRule?_eq_some_iff.1 hrule
      exact .configured hmem hmetric (isThresholdResult_iff.2 rfl)

end Results

/-! ## The latest sample in the window -/

section Previous

variable {σ : Store} {nodeId : String} {metricType : MetricType} {t since : Datetime}
  {window : Timedelta} {windowSeconds : Double} {scan : Scan} {s : MetricSampleModel}

theorem mem_previousSamples_iff (scan : Scan) (hsince : t.minus window = .ok since) :
    s ∈ previousSamples scan σ.metricSamples nodeId metricType t.instant since.instant ↔
      IsPrior σ nodeId metricType t.instant window s := by
  rw [mem_previousSamples, Datetime.instant_of_minus hsince]
  constructor
  · rintro ⟨hstored, ⟨hnode, hmetric⟩, hupper, hlower⟩
    exact ⟨hstored, hnode, hmetric, hlower, hupper⟩
  · rintro ⟨hstored, hnode, hmetric, hlower, hupper⟩
    exact ⟨hstored, ⟨hnode, hmetric⟩, hupper, hlower⟩

theorem findPreviousSample_of_window (hwindow : Timedelta.ofSeconds windowSeconds = .ok window)
    (hsince : t.minus window = .ok since) :
    MetricsRepository.findPreviousSample scan σ nodeId metricType t windowSeconds =
      .ok (latest MetricSampleModel.collectedAt (previousSamples scan σ.metricSamples nodeId
        metricType t.instant since.instant)) := by
  rw [findPreviousSample_eq, hwindow]
  show Except.map _ (t.minus window) = _
  rw [hsince]
  rfl

/-- Without a sample in the window nothing is found, in any order. -/
theorem findPreviousSample_eq_none_iff (hwindow : Timedelta.ofSeconds windowSeconds = .ok window)
    (hsince : t.minus window = .ok since) :
    MetricsRepository.findPreviousSample scan σ nodeId metricType t windowSeconds = .ok none ↔
      ∀ s, ¬ IsPrior σ nodeId metricType t.instant window s := by
  rw [findPreviousSample_of_window hwindow hsince, Except.ok.injEq, latest_eq_none_iff,
    List.eq_nil_iff_forall_not_mem]
  exact forall_congr' fun s => not_congr (mem_previousSamples_iff scan hsince)

/-- A sample is found in some order if no other in the window is later. -/
theorem exists_findPreviousSample_iff (hwindow : Timedelta.ofSeconds windowSeconds = .ok window)
    (hsince : t.minus window = .ok since) :
    (∃ scan, MetricsRepository.findPreviousSample scan σ nodeId metricType t windowSeconds =
        .ok (some s)) ↔
      IsPrior σ nodeId metricType t.instant window s ∧
        ∀ s', IsPrior σ nodeId metricType t.instant window s' → s'.collectedAt ≤ s.collectedAt := by
  constructor
  · rintro ⟨scan, h⟩
    rw [findPreviousSample_of_window hwindow hsince] at h
    have hlatest := Except.ok.inj h
    exact ⟨(mem_previousSamples_iff scan hsince).1 (mem_of_latest hlatest), fun s' hs' =>
      le_of_latest hlatest ((mem_previousSamples_iff scan hsince).2 hs')⟩
  · rintro ⟨hprior, hlatest⟩
    obtain ⟨scan, rest, hfirst⟩ := exists_reorder_cons hprior.stored
    have hmem : ∀ s', s' ∈ previousSamples scan σ.metricSamples nodeId metricType t.instant
        since.instant → s'.collectedAt ≤ s.collectedAt := fun s' hs' =>
      hlatest s' ((mem_previousSamples_iff scan hsince).1 hs')
    have hself := (mem_previousSamples_iff scan hsince).2 hprior
    refine ⟨scan, ?_⟩
    rw [findPreviousSample_of_window hwindow hsince]
    unfold previousSamples at hmem hself ⊢
    have htest := (List.mem_filter.1 hself).2
    rw [hfirst, List.filter_cons, if_pos htest] at hmem ⊢
    exact congrArg Except.ok (latest_cons_of_le fun s' hs' => hmem s' (List.mem_cons_of_mem _ hs'))

end Previous

/-! ## The engine -/

/-- Every window of a configured rate-of-change rule can be subtracted from `t`. -/
def WindowsFit (cfg : RulesConfig) (t : Datetime) : Prop :=
  ∀ rule ∈ cfg.rateOfChangeRules,
    ∃ since, (Timedelta.ofSeconds rule.windowSeconds >>= t.minus) = .ok since

/-- The samples of a payload are inserted and then evaluated. -/
def RuleEngine.insertAndEvaluate (e : RuleEngine) (p : NodeMetricsPayload) (receivedAt : Instant) :
    Repo (List RuleEvaluationResult) := do
  (Call.bulkInsert p.nodeId p.samples p.collectedAt receivedAt).perform
  e.evaluate p.nodeId p.samples p.collectedAt

/-- The results that may be emitted, depending on the order in which the database scans. -/
def RuleEngine.MayEmit (e : RuleEngine) (p : NodeMetricsPayload) (receivedAt : Instant) (w : World)
    (results : List RuleEvaluationResult) : Prop :=
  ∃ env, env.Faultless ∧
    ((e.insertAndEvaluate p receivedAt).run (handle env) w).1 = .ok results

/-- The evaluation always returns, what it may emit is what is specified over the tables before the
payload, and tables with the same samples before the payload let it emit the same. -/
structure ComputesSpecification (e : RuleEngine) (p : NodeMetricsPayload) (receivedAt : Instant)
    (w : World) : Prop where
  returns : ∀ env, env.Faultless →
    ∃ results, ((e.insertAndEvaluate p receivedAt).run (handle env) w).1 = .ok results
  emits : ∀ results, e.MayEmit p receivedAt w results ↔
    Specified e.rulesConfig w.store p.nodeId p.collectedAt.instant p.samples results
  ignores : ∀ w', SameBefore p.collectedAt.instant w.store w'.store →
    ∀ results, e.MayEmit p receivedAt w' results ↔ e.MayEmit p receivedAt w results

section Engine

variable {e : RuleEngine} {σ : Store} {nodeId : String} {t : Datetime} {sample : MetricSample}
  {samples : List MetricSample} {results : List RuleEvaluationResult}

theorem WindowsFit.windowFits (h : WindowsFit e.rulesConfig t) (sample : MetricSample) :
    e.WindowFits t sample := fun rule hrule =>
  h rule (RuleEngine.rateOfChangeRule?_eq_some_iff.1 hrule).1

theorem exists_window {rule : RateOfChangeRuleDefinition} {since : Datetime}
    (h : (Timedelta.ofSeconds rule.windowSeconds >>= t.minus) = .ok since) :
    ∃ window, Timedelta.ofSeconds rule.windowSeconds = .ok window ∧ t.minus window = .ok since := by
  cases hwindow : Timedelta.ofSeconds rule.windowSeconds with
  | error err =>
    rw [hwindow] at h
    cases h
  | ok window =>
    rw [hwindow] at h
    exact ⟨window, rfl, h⟩

theorem ratePart_iff_of_none {rate : List RuleEvaluationResult}
    (hrule : e.rateOfChangeRule? sample.metricType = none) :
    RatePart e.rulesConfig σ nodeId t.instant sample rate ↔ rate = [] := by
  have hnone := RuleEngine.rateOfChangeRule?_eq_none_iff.1 hrule
  constructor
  · intro h
    cases h with
    | compared hmem hmetric => exact absurd hmetric (hnone _ hmem)
    | nothingPrior => rfl
    | unconfigured => rfl
  · intro h
    rw [h]
    exact .unconfigured hnone

theorem ratePart_iff_of_some {rule : RateOfChangeRuleDefinition} {rate : List RuleEvaluationResult}
    (hfit : WindowsFit e.rulesConfig t) (hrule : e.rateOfChangeRule? sample.metricType = some rule) :
    RatePart e.rulesConfig σ nodeId t.instant sample rate ↔ ∃ scan previous,
      MetricsRepository.findPreviousSample scan σ nodeId sample.metricType t rule.windowSeconds =
        .ok previous ∧
      rate = (previous.map (RuleEngine.rateOfChangeResult rule sample)).toList := by
  obtain ⟨hmem, hmetric⟩ := RuleEngine.rateOfChangeRule?_eq_some_iff.1 hrule
  obtain ⟨since, hfits⟩ := hfit rule hmem
  obtain ⟨window, hwindow, hsince⟩ := exists_window hfits
  -- The rule of the list is the one of the dictionary, as there is only one.
  have hsame : ∀ {rule'}, rule' ∈ e.rulesConfig.rateOfChangeRules →
      rule'.metricType = sample.metricType → rule' = rule := fun hmem' hmetric' =>
    List.inj_on_of_nodup_map e.rulesConfig.rateOfChangeRules_unique hmem' hmem
      (hmetric'.trans hmetric.symm)
  constructor
  · intro h
    cases h with
    | compared hmem' hmetric' hwindow' hprior hlatest hr =>
      obtain rfl := hsame hmem' hmetric'
      obtain rfl := Except.ok.inj (hwindow.symm.trans hwindow')
      obtain ⟨scan, hfound⟩ := (exists_findPreviousSample_iff hwindow hsince).2 ⟨hprior, hlatest⟩
      refine ⟨scan, _, hfound, ?_⟩
      rw [isRateResult_iff.1 hr]
      rfl
    | nothingPrior hmem' hmetric' hwindow' hnone =>
      obtain rfl := hsame hmem' hmetric'
      obtain rfl := Except.ok.inj (hwindow.symm.trans hwindow')
      exact ⟨id, none, (findPreviousSample_eq_none_iff hwindow hsince).2 hnone, rfl⟩
    | unconfigured hnone => exact absurd hmetric (hnone rule hmem)
  · intro h
    obtain ⟨scan, previous, hprevious, rfl⟩ := h
    cases previous with
    | none =>
      exact .nothingPrior hmem hmetric hwindow
        ((findPreviousSample_eq_none_iff hwindow hsince).1 hprevious)
    | some previous =>
      obtain ⟨hprior, hlatest⟩ := (exists_findPreviousSample_iff hwindow hsince).1 ⟨scan, hprevious⟩
      exact .compared hmem hmetric hwindow hprior hlatest (isRateResult_iff.2 rfl)

/-- What the dictionaries give for a sample is what the lists of the rules say of it. -/
theorem gives_iff (hfit : WindowsFit e.rulesConfig t) :
    e.Gives σ nodeId t sample results ↔ ∃ threshold rate,
      ThresholdPart e.rulesConfig sample threshold ∧
      RatePart e.rulesConfig σ nodeId t.instant sample rate ∧ results = threshold ++ rate := by
  unfold RuleEngine.Gives
  cases hrule : e.rateOfChangeRule? sample.metricType with
  | none => simp [thresholdPart_iff, ratePart_iff_of_none hrule]
  | some rule =>
    simp only [thresholdPart_iff, ratePart_iff_of_some hfit hrule]
    constructor
    · intro h
      obtain ⟨scan, previous, hprevious, hresults⟩ := h
      exact ⟨_, _, rfl, ⟨scan, previous, hprevious, rfl⟩, hresults⟩
    · intro h
      obtain ⟨_, _, rfl, ⟨scan, previous, hprevious, rfl⟩, hresults⟩ := h
      exact ⟨scan, previous, hprevious, hresults⟩

theorem emits_iff (hfit : WindowsFit e.rulesConfig t) :
    e.Emits σ nodeId t samples results ↔
      Specified e.rulesConfig σ nodeId t.instant samples results := by
  constructor
  · intro h
    induction h with
    | nil => exact .nil
    | cons hgives hrest ih =>
      obtain ⟨threshold, rate, hthreshold, hrate, rfl⟩ := (gives_iff hfit).1 hgives
      exact .cons hthreshold hrate ih
  · intro h
    induction h with
    | nil => exact .nil
    | cons hthreshold hrate hrest ih =>
      exact .cons ((gives_iff hfit).2 ⟨_, _, hthreshold, hrate, rfl⟩) ih

/-- The insertion, and then the evaluation over the tables with the payload's own rows. -/
theorem run_insertAndEvaluate {env : Environment} (henv : env.Faultless) (p : NodeMetricsPayload)
    (receivedAt : Instant) (w : World) :
    (e.insertAndEvaluate p receivedAt).run (handle env) w =
      (e.evaluate p.nodeId p.samples p.collectedAt).run (handle env)
        (w.after id (.bulkInsert p.nodeId p.samples p.collectedAt receivedAt)) := by
  unfold RuleEngine.insertAndEvaluate
  rw [run_bind, run_perform, handle_of_ok (henv _ _)]
  rfl

/-- It emits what the rules give over these tables, unless a window does not fit. -/
theorem ends_insertAndEvaluate {env : Environment} (henv : env.Faultless) (p : NodeMetricsPayload)
    (receivedAt : Instant) (w : World) :
    Ends (fun results _ => e.Emits
        (MetricsRepository.bulkInsert w.store p.nodeId p.samples p.collectedAt receivedAt) p.nodeId
        p.collectedAt p.samples results)
      (fun _ _ => ¬ ∀ sample ∈ p.samples, e.WindowFits p.collectedAt sample)
      ((e.insertAndEvaluate p receivedAt).run (handle env) w).1
      ((e.insertAndEvaluate p receivedAt).run (handle env) w).2 := by
  have hruns : Runs (handle env) (fun _ _ => True) (e.evaluate p.nodeId p.samples p.collectedAt)
      (w.after id (.bulkInsert p.nodeId p.samples p.collectedAt receivedAt)) _ :=
    RuleEngine.runs_evaluate_emits henv []
  have hends := hruns.run
  rw [← run_insertAndEvaluate henv] at hends
  rcases hrun : (e.insertAndEvaluate p receivedAt).run (handle env) w with ⟨err | results, w'⟩
  · rw [hrun] at hends
    exact hends
  · rw [hrun] at hends
    obtain ⟨-, given, hemits, rfl⟩ := hends
    exact hemits

/-- The engine may emit what is specified over the tables before the payload. -/
theorem mayEmit_iff {p : NodeMetricsPayload} (hfit : WindowsFit e.rulesConfig p.collectedAt)
    (receivedAt : Instant) (w : World) : e.MayEmit p receivedAt w results ↔
      Specified e.rulesConfig w.store p.nodeId p.collectedAt.instant p.samples results := by
  have hsame : SameBefore p.collectedAt.instant w.store
      (w.after id (.bulkInsert p.nodeId p.samples p.collectedAt receivedAt)).store :=
    sameBefore_bulkInsert w.store p.nodeId p.samples p.collectedAt receivedAt
  constructor
  · rintro ⟨env, henv, hrun⟩
    have hends := ends_insertAndEvaluate (e := e) henv p receivedAt w
    rw [hrun] at hends
    exact ((emits_iff hfit).1 hends).of_sameBefore hsame.symm
  · intro hspecified
    have hemits := (emits_iff hfit).2 (hspecified.of_sameBefore hsame)
    obtain ⟨env, henv, -, w', -, hrun⟩ :=
      RuleEngine.exists_run_evaluate Environment.calm_faultless hemits
    refine ⟨env, henv, ?_⟩
    rw [run_insertAndEvaluate henv]
    exact congrArg Prod.fst (hrun [])

/-- The rule engine computes its specification. -/
theorem evaluate_computes (cfg : RulesConfig) (p : NodeMetricsPayload) (receivedAt : Instant)
    (w : World) (hfit : WindowsFit cfg p.collectedAt) :
    ComputesSpecification ⟨cfg⟩ p receivedAt w where
  returns env henv := by
    have hends := ends_insertAndEvaluate (e := ⟨cfg⟩) henv p receivedAt w
    cases hrun : ((RuleEngine.insertAndEvaluate ⟨cfg⟩ p receivedAt).run (handle env) w).1 with
    | ok results => exact ⟨results, rfl⟩
    | error err =>
      rw [hrun] at hends
      exact absurd (fun sample _ => WindowsFit.windowFits hfit sample) hends
  emits results := mayEmit_iff hfit receivedAt w
  ignores w' hsame results := by
    rw [mayEmit_iff hfit, mayEmit_iff hfit]
    exact ⟨fun h => h.of_sameBefore hsame.symm, fun h => h.of_sameBefore hsame⟩

end Engine

namespace Scenario

/-- The processor load may rise by twenty per cent within five minutes. -/
def rateConfig : RulesConfig where
  thresholdRules := []
  rateOfChangeRules := [⟨.cpuUsagePercent, .greaterThan, 20, 300, .warning, "CPU load rises"⟩]
  thresholdRules_unique := List.nodup_nil
  rateOfChangeRules_unique := List.nodup_singleton _

theorem evaluate_computes_rate :
    WindowsFit rateConfig (payload 43200 95).collectedAt ∧
      ComputesSpecification ⟨rateConfig⟩ (payload 43200 95) (clock 43200).instant .fresh := by
  have hfit : WindowsFit rateConfig (payload 43200 95).collectedAt := by
    intro rule hrule
    obtain rfl := List.mem_singleton.1 hrule
    have hwindow : Timedelta.ofSeconds 300 = .ok 300000000 := by decide +kernel
    show ∃ since, (Timedelta.ofSeconds 300 >>= (clock 43200).minus) = .ok since
    rw [hwindow]
    show ∃ since, (clock 43200).minus 300000000 = .ok since
    unfold Datetime.minus
    exact ⟨_, dif_pos (by decide +kernel)⟩
  exact ⟨hfit, evaluate_computes rateConfig (payload 43200 95) _ .fresh hfit⟩

end Scenario

end ClusterPulse
