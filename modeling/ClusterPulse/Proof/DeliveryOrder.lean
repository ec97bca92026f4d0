import ClusterPulse.Lib.Register
import ClusterPulse.Proof.AlertRuns
import ClusterPulse.Proof.SingleFiring

/-!
# Alerts and the order of delivery

Payloads may reach the Collector out of order: an Agent with a long backlog sends its fresh payload
before the rest of the buffered ones.  An evaluation applies each result as if it were the latest, so
whether an alert of a threshold rule is firing is a register that every sample of its metric type
overwrites.  `deliveryOrder_iff`: two orders of the same payloads leave the same state of an alert
exactly if the samples ingested last agree.
-/

namespace ClusterPulse

open AlertRepository Prog

/-! ## Open alerts -/

/-- Whether the database holds an open alert for the key. -/
def firing (nodeId ruleKey : String) (t : AlertTable) : Bool := t.rows.any (isOpen nodeId ruleKey)

/-- The number of open alerts for a key. -/
def openCount (nodeId ruleKey : String) (t : AlertTable) : ℕ :=
  (view t).countP (isOpen nodeId ruleKey)

theorem openCount_eq (nodeId ruleKey : String) (t : AlertTable) :
    openCount nodeId ruleKey t = t.rows.countP (isOpen nodeId ruleKey) := by
  unfold openCount view
  rw [List.countP_map]
  rfl

theorem firing_eq (nodeId ruleKey : String) (t : AlertTable) :
    firing nodeId ruleKey t = decide (0 < openCount nodeId ruleKey t) := by
  rw [openCount_eq, Bool.eq_iff_iff, decide_eq_true_eq, List.countP_pos_iff]
  exact List.any_eq_true

theorem openCount_congr {t t' : AlertTable} (hview : view t' = view t) (nodeId ruleKey : String) :
    openCount nodeId ruleKey t' = openCount nodeId ruleKey t := by
  unfold openCount
  rw [hview]

theorem openCount_eq_zero {nodeId ruleKey : String} {t : AlertTable}
    (hnone : ∀ a ∈ t.rows, ¬ isOpen nodeId ruleKey a = true) : openCount nodeId ruleKey t = 0 := by
  rw [openCount_eq]
  exact List.countP_eq_zero.2 hnone

/-- No key has two open alerts. -/
theorem OneFiring.openCount_le {t : AlertTable} (h : OneFiring t) (nodeId ruleKey : String) :
    openCount nodeId ruleKey t ≤ 1 := by
  rw [openCount_eq]
  refine Table.countP_le_one fun a ha b hb hopenA hopenB => ?_
  obtain ⟨hnodeA, hkeyA, hfiringA⟩ := isOpen_eq_true_iff.1 hopenA
  obtain ⟨hnodeB, hkeyB, hfiringB⟩ := isOpen_eq_true_iff.1 hopenB
  exact h a ha b hb hfiringA hfiringB (hnodeA.trans hnodeB.symm) (hkeyA.trans hkeyB.symm)

/-- The only open row of a key. -/
theorem eq_of_countP_le_one {p : AlertRecord → Bool} {rows : List AlertRecord}
    (h : rows.countP p ≤ 1) {a b : AlertRecord} (ha : a ∈ rows) (hb : b ∈ rows) (hpa : p a = true)
    (hpb : p b = true) : a = b := by
  rw [List.countP_eq_length_filter] at h
  have ha' : a ∈ rows.filter p := List.mem_filter.2 ⟨ha, hpa⟩
  have hb' : b ∈ rows.filter p := List.mem_filter.2 ⟨hb, hpb⟩
  generalize rows.filter p = filtered at h ha' hb'
  match filtered with
  | [] => cases ha'
  | [c] => exact (List.mem_singleton.1 ha').trans (List.mem_singleton.1 hb').symm
  | _ :: _ :: _ => simp at h

/-! ## One result -/

theorem isOpen_writes {e : Emission} {nodeId ruleKey : String} {a : AlertRecord}
    (ha : isOpen nodeId ruleKey a = true) :
    isOpen nodeId ruleKey (e.writes a) = e.breached := by
  obtain ⟨hnode, hkey, hfiring⟩ := isOpen_eq_true_iff.1 ha
  unfold Emission.writes Emission.breached
  cases e.result.breached with
  | true => exact isOpen_eq_true_iff.2 ⟨hnode, hkey, hfiring⟩
  | false =>
    rw [if_neg (by decide), ← Bool.not_eq_true, isOpen_eq_true_iff]
    exact fun h => nomatch h.2.2

theorem isOpen_writes_of_not_keyed {e : Emission} {nodeId ruleKey : String} {a : AlertRecord}
    (ha : a.keyed e.nodeId e.result.ruleKey = true) (he : ¬ e.keyed nodeId ruleKey = true) :
    ¬ isOpen nodeId ruleKey (e.writes a) = true := by
  intro hopen
  have hkeyed := (isOpen_iff.1 hopen).1
  rw [keyed_writes] at hkeyed
  exact he (eq_of_keyed ha hkeyed)

theorem isOpen_opens (e : Emission) (nodeId ruleKey : String) (i : ℕ) :
    isOpen nodeId ruleKey (e.opens i).masked = e.keyed nodeId ruleKey :=
  Bool.and_true _

/-- The rows that a write to the open alert `a` leaves open. -/
theorem isOpen_written {e : Emission} {t : AlertTable}
    (hone : openCount e.nodeId e.result.ruleKey t ≤ 1) {a : AlertRecord} (ha : a ∈ t.rows)
    (hopen : isOpen e.nodeId e.result.ruleKey a = true) {b : AlertRecord} (hb : b ∈ view t)
    (nodeId ruleKey : String) :
    isOpen nodeId ruleKey (if b.id = a.id then e.writes b else b) =
      (if e.keyed nodeId ruleKey then isOpen nodeId ruleKey b && e.breached
        else isOpen nodeId ruleKey b) := by
  have hmem : a.masked ∈ view t := List.mem_map_of_mem ha
  have hkeyed : a.keyed e.nodeId e.result.ruleKey = true := (isOpen_iff.1 hopen).1
  by_cases hid : b.id = a.id
  · have heq : b = a.masked := List.inj_on_of_nodup_map (nodup_id_view t) hb hmem hid
    rw [if_pos hid]
    subst heq
    by_cases he : e.keyed nodeId ruleKey = true
    · obtain ⟨rfl, rfl⟩ := eq_key_of_keyed he
      have hopen' : isOpen e.nodeId e.result.ruleKey a.masked = true := hopen
      rw [if_pos he, isOpen_writes hopen', hopen', Bool.true_and]
    · have hclosed : ¬ isOpen nodeId ruleKey a.masked = true := fun h =>
        he (eq_of_keyed hkeyed (isOpen_iff.1 h).1)
      rw [if_neg he, Bool.eq_false_iff.2 hclosed]
      exact Bool.eq_false_iff.2 (isOpen_writes_of_not_keyed hkeyed he)
  · rw [if_neg hid]
    by_cases he : e.keyed nodeId ruleKey = true
    · obtain ⟨rfl, rfl⟩ := eq_key_of_keyed he
      have hclosed : ¬ isOpen e.nodeId e.result.ruleKey b = true := by
        intro h
        have heq : b = a.masked := eq_of_countP_le_one hone hb hmem h hopen
        exact hid (heq ▸ rfl)
      rw [if_pos he, Bool.eq_false_iff.2 hclosed, Bool.false_and]
    · rw [if_neg he]

/-- A breach leaves one open alert for its key, any other result leaves none. -/
theorem ViewStep.openCount {e : Emission} {t t' : AlertTable} (hstep : ViewStep e t t')
    (hone : ∀ nodeId ruleKey, openCount nodeId ruleKey t ≤ 1) (nodeId ruleKey : String) :
    openCount nodeId ruleKey t' = if e.keyed nodeId ruleKey then e.breached.toNat
      else openCount nodeId ruleKey t := by
  cases hstep with
  | opened i hnone hbreached hview =>
    have hcount : ClusterPulse.openCount nodeId ruleKey t' =
        ClusterPulse.openCount nodeId ruleKey t + if e.keyed nodeId ruleKey then 1 else 0 := by
      unfold ClusterPulse.openCount
      rw [hview, List.countP_append, List.countP_singleton, isOpen_opens]
    rw [hcount]
    by_cases he : e.keyed nodeId ruleKey = true
    · obtain ⟨rfl, rfl⟩ := eq_key_of_keyed he
      have hb : e.breached = true := hbreached
      rw [if_pos he, if_pos he, openCount_eq_zero hnone, hb]
      rfl
    · rw [if_neg he, if_neg he, add_zero]
  | written a ha hopen hview =>
    have hcount : ClusterPulse.openCount nodeId ruleKey t' = (view t).countP fun b =>
        if e.keyed nodeId ruleKey then isOpen nodeId ruleKey b && e.breached
        else isOpen nodeId ruleKey b := by
      unfold ClusterPulse.openCount
      rw [hview, List.countP_map]
      refine List.countP_congr fun b hb => ?_
      rw [Function.comp_apply, isOpen_written (hone _ _) ha hopen hb]
    rw [hcount]
    by_cases he : e.keyed nodeId ruleKey = true
    · obtain ⟨rfl, rfl⟩ := eq_key_of_keyed he
      simp only [if_pos he]
      cases hb : e.breached with
      | false => simp
      | true =>
        have hpos : 0 < (view t).countP (isOpen e.nodeId e.result.ruleKey) :=
          List.countP_pos_iff.2 ⟨a.masked, List.mem_map_of_mem ha, hopen⟩
        simp only [Bool.and_true, Bool.toNat_true]
        exact le_antisymm (hone e.nodeId e.result.ruleKey) hpos
    · simp only [if_neg he]
      rfl
  | idle hnone hbreached hview =>
    rw [openCount_congr hview]
    by_cases he : e.keyed nodeId ruleKey = true
    · obtain ⟨rfl, rfl⟩ := eq_key_of_keyed he
      have hb : e.breached = false := Bool.eq_false_iff.2 hbreached
      rw [if_pos he, openCount_eq_zero hnone, hb]
      rfl
    · rw [if_neg he]

/-- What the result writes to the register of a key. -/
def Emission.writesTo (nodeId ruleKey : String) (e : Emission) : Option Bool :=
  if e.keyed nodeId ruleKey then some e.breached else none

/-- No key has two open alerts, and each key is a register that its results overwrite, from the
table `t₀` on. -/
structure Overwrites (t₀ : AlertTable) (es : List Emission) (t : AlertTable) : Prop where
  openCount_le : ∀ nodeId ruleKey, openCount nodeId ruleKey t ≤ 1
  firing_eq : ∀ nodeId ruleKey, firing nodeId ruleKey t =
    Register.after (Emission.writesTo nodeId ruleKey) (firing nodeId ruleKey t₀) es

theorem overwrites_nil {t₀ : AlertTable} (h : OneFiring t₀) : Overwrites t₀ [] t₀ :=
  ⟨h.openCount_le, fun _ _ => rfl⟩

theorem stepwise_overwrites (t₀ : AlertTable) : Stepwise (Overwrites t₀) := by
  constructor
  · intro es t t' h hview
    refine ⟨fun nodeId ruleKey => ?_, fun nodeId ruleKey => ?_⟩
    · rw [openCount_congr hview]
      exact h.openCount_le nodeId ruleKey
    · rw [firing_eq, openCount_congr hview, ← firing_eq]
      exact h.firing_eq nodeId ruleKey
  · intro es e t t' h hstep
    have hcount := hstep.openCount h.openCount_le
    refine ⟨fun nodeId ruleKey => ?_, fun nodeId ruleKey => ?_⟩
    · rw [hcount]
      split_ifs
      · exact Bool.toNat_le _
      · exact h.openCount_le nodeId ruleKey
    · rw [Register.after_append, ← h.firing_eq, Register.after_cons, Register.after_nil, firing_eq,
        hcount, Emission.writesTo]
      split_ifs
      · cases e.breached with
        | false => rfl
        | true => rfl
      · exact (firing_eq nodeId ruleKey t).symm

/-! ## Threshold rules -/

namespace RuleEngine

variable (e : RuleEngine)

/-- The result of the threshold rule for a sample, if there is one for its metric type. -/
def thresholdResults (sample : MetricSample) : List RuleEvaluationResult :=
  ((e.thresholdRule? sample.metricType).map (evaluateThreshold · sample)).toList

/-- What the sample shows about the threshold rule of the metric type, if it is about it. -/
def verdict (m : MetricType) (sample : MetricSample) : Option Bool :=
  if sample.metricType = m then (e.thresholdRule? m).map fun rule =>
    evaluateComparison rule.comparison sample.value rule.threshold
  else none

variable {e}

theorem foldlM_evaluateSample (hrate : e.rulesConfig.rateOfChangeRules = []) (nodeId : String)
    (t : Datetime) : ∀ (samples : List MetricSample) (results : List RuleEvaluationResult),
      samples.foldlM (e.evaluateSample nodeId t) results =
        pure (results ++ samples.flatMap e.thresholdResults)
  | [], results => by
    rw [List.flatMap_nil, List.append_nil]
    rfl
  | sample :: samples, results => by
    have hnone : e.rateOfChangeRule? sample.metricType = none := by
      unfold rateOfChangeRule?
      rw [hrate]
      rfl
    have hsample : e.evaluateSample nodeId t results sample =
        pure (results ++ e.thresholdResults sample) := by
      unfold evaluateSample
      rw [hnone]
      rfl
    rw [List.foldlM_cons, hsample, List.flatMap_cons, ← List.append_assoc]
    exact foldlM_evaluateSample hrate nodeId t samples _

theorem evaluate_of_thresholds (hrate : e.rulesConfig.rateOfChangeRules = []) (nodeId : String)
    (samples : List MetricSample) (t : Datetime) :
    e.evaluate nodeId samples t = pure (samples.flatMap e.thresholdResults) :=
  foldlM_evaluateSample hrate nodeId t samples []

end RuleEngine

/-- The result of a sample writes what the sample shows. -/
theorem RuleEngine.after_thresholdResults (e : RuleEngine) (nodeId : String) (m : MetricType)
    (t : Datetime) (b : Bool) (sample : MetricSample) :
    Register.after (Emission.writesTo nodeId (ruleKeyOf .threshold m)) b
      ((e.thresholdResults sample).map (Emission.mk nodeId t)) = (e.verdict m sample).getD b := by
  unfold thresholdResults verdict
  cases hrule : e.thresholdRule? sample.metricType with
  | none =>
    split_ifs with hm
    · rw [← hm, hrule]
      rfl
    · rfl
  | some rule =>
    have hmetric : rule.metricType = sample.metricType := by
      unfold thresholdRule? at hrule
      have hbeq := List.find?_some hrule
      rwa [beq_iff_eq] at hbeq
    have hkeyed : (Emission.mk nodeId t (evaluateThreshold rule sample)).keyed nodeId
        (ruleKeyOf .threshold m) = true ↔ sample.metricType = m := by
      unfold Emission.keyed evaluateThreshold
      rw [Bool.and_eq_true, beq_iff_eq, beq_iff_eq, hmetric, ruleKeyOf_inj]
      exact and_iff_right rfl
    rw [Option.map_some, Option.toList_some, List.map_singleton, Register.after_cons,
      Register.after_nil, Emission.writesTo]
    by_cases hm : sample.metricType = m
    · rw [if_pos (hkeyed.2 hm), if_pos hm, ← hm, hrule]
      rfl
    · rw [if_neg (mt hkeyed.1 hm), if_neg hm]

theorem RuleEngine.after_flatMap_thresholdResults (e : RuleEngine) (nodeId : String)
    (m : MetricType) (t : Datetime) (samples : List MetricSample) (b : Bool) :
    Register.after (Emission.writesTo nodeId (ruleKeyOf .threshold m)) b
        ((samples.flatMap e.thresholdResults).map (Emission.mk nodeId t)) =
      Register.after (e.verdict m) b samples := by
  induction samples generalizing b with
  | nil => rfl
  | cons sample samples ih =>
    rw [List.flatMap_cons, List.map_append, Register.after_append, e.after_thresholdResults, ih]
    rfl

/-! ## Deliveries -/

/-- A payload with the reading of the Collector's clock at its receipt. -/
structure Receipt where
  payload : NodeMetricsPayload
  receivedAt : Instant

/-- The serial ingestion of what was received, in this order. -/
def ingestAll (env : Environment) (svc : AlertEvaluationService) (receipts : List Receipt)
    (w : World) : World :=
  Operation.runAll env (receipts.map fun r => .ingest svc r.payload r.receivedAt) w

/-- The samples, in the order in which they were received. -/
def samplesOf (receipts : List Receipt) : List MetricSample :=
  receipts.flatMap fun r => r.payload.samples

variable {env env' : Environment} {svc : AlertEvaluationService} {nodeId : String}

/-- The results that an ingestion emits. -/
theorem emitted_ingest (hrate : svc.ruleEngine.rulesConfig.rateOfChangeRules = [])
    (payload : NodeMetricsPayload) (receivedAt : Instant) (w : World) :
    (Operation.ingest svc payload receivedAt).emitted env w =
      (payload.samples.flatMap svc.ruleEngine.thresholdResults).map
        (Emission.mk payload.nodeId payload.collectedAt) := by
  show svc.emits env payload.nodeId payload.samples payload.collectedAt _ = _
  unfold AlertEvaluationService.emits
  rw [RuleEngine.evaluate_of_thresholds hrate]
  rfl

/-- The payloads come from the node, with timely readings of its clock. -/
def SentBy (nodeId : String) (receipts : List Receipt) : Prop :=
  ∀ r ∈ receipts, r.payload.nodeId = nodeId ∧ Timely r.payload.collectedAt

/-- Whether the alert of a threshold rule is firing is a register that the samples overwrite. -/
theorem firing_ingestAll (henv : env.Faultless)
    (hrate : svc.ruleEngine.rulesConfig.rateOfChangeRules = []) {receipts : List Receipt}
    (hsent : SentBy nodeId receipts) {w : World} (hw : OneFiring w.store.alerts) (m : MetricType) :
    firing nodeId (ruleKeyOf .threshold m) (ingestAll env svc receipts w).store.alerts =
      Register.after (svc.ruleEngine.verdict m)
        (firing nodeId (ruleKeyOf .threshold m) w.store.alerts) (samplesOf receipts) := by
  -- from any point of the run on
  suffices hrun : ∀ (es : List Emission) (w' : World), Overwrites w.store.alerts es w'.store.alerts →
      firing nodeId (ruleKeyOf .threshold m) (ingestAll env svc receipts w').store.alerts =
        Register.after (svc.ruleEngine.verdict m)
          (firing nodeId (ruleKeyOf .threshold m) w'.store.alerts) (samplesOf receipts) from
    hrun [] w (overwrites_nil hw)
  induction receipts with
  | nil => exact fun _ _ _ => rfl
  | cons r receipts ih =>
    intro es w' hw'
    obtain ⟨rfl, ht⟩ := hsent r List.mem_cons_self
    have hnext := (stepwise_overwrites w.store.alerts).ingest svc henv ht r.receivedAt hw'
    have hfiring := hnext.firing_eq r.payload.nodeId (ruleKeyOf .threshold m)
    rw [Register.after_append, ← hw'.firing_eq, emitted_ingest hrate,
      RuleEngine.after_flatMap_thresholdResults] at hfiring
    unfold ingestAll samplesOf at ih ⊢
    rw [List.map_cons, Operation.runAll_cons, List.flatMap_cons, Register.after_append, ← hfiring]
    exact ih (fun r' hr' => hsent r' (List.mem_cons_of_mem _ hr')) _ _ hnext

/-- Two orders of the same payloads leave the same state of the alert of a threshold rule exactly if
the samples of its metric type that were ingested last agree. -/
theorem deliveryOrder_iff (henv : env.Faultless) (henv' : env'.Faultless)
    (hrate : svc.ruleEngine.rulesConfig.rateOfChangeRules = []) {receipts receipts' : List Receipt}
    (hsent : SentBy nodeId receipts)
    (hperm : (receipts.map Receipt.payload).Perm (receipts'.map Receipt.payload)) {w : World}
    (hw : OneFiring w.store.alerts) (m : MetricType) :
    firing nodeId (ruleKeyOf .threshold m) (ingestAll env svc receipts w).store.alerts =
        firing nodeId (ruleKeyOf .threshold m) (ingestAll env' svc receipts' w).store.alerts ↔
      Register.last (svc.ruleEngine.verdict m) (samplesOf receipts) =
        Register.last (svc.ruleEngine.verdict m) (samplesOf receipts') := by
  have hsent' : SentBy nodeId receipts' := by
    intro r' hr'
    obtain ⟨r, hr, hpayload⟩ := List.mem_map.1 (hperm.mem_iff.2 (List.mem_map_of_mem hr'))
    rw [← hpayload]
    exact hsent r hr
  have hsamples : (samplesOf receipts).Perm (samplesOf receipts') := by
    have h := hperm.flatMap_right NodeMetricsPayload.samples
    rw [List.flatMap_map, List.flatMap_map] at h
    exact h
  rw [firing_ingestAll henv hrate hsent hw, firing_ingestAll henv' hrate hsent' hw]
  exact Register.after_eq_after_iff hsamples

namespace Scenario

/-- The processor was saturated and is idle again. -/
def inOrder : List Receipt :=
  [⟨payload 0 95, (clock 2001).instant⟩, ⟨payload 1000 50, (clock 2002).instant⟩]

/-- The Agent delivers its fresh payload first and the buffered one after it. -/
def freshFirst : List Receipt :=
  [⟨payload 1000 50, (clock 2001).instant⟩, ⟨payload 0 95, (clock 2002).instant⟩]

theorem sentBy_freshFirst : SentBy "node-1" freshFirst := by
  intro r hr
  simp only [freshFirst, List.mem_cons, List.not_mem_nil, or_false] at hr
  rcases hr with rfl | rfl
  · exact ⟨rfl, (clockReading_clock _).timely⟩
  · exact ⟨rfl, (clockReading_clock _).timely⟩

theorem deliveryOrder_iff_freshFirst :
    (firing "node-1" "threshold:cpu.usage_percent"
          (ingestAll .calm service freshFirst .fresh).store.alerts =
        firing "node-1" "threshold:cpu.usage_percent"
          (ingestAll .calm service inOrder .fresh).store.alerts ↔
      Register.last (service.ruleEngine.verdict .cpuUsagePercent) (samplesOf freshFirst) =
        Register.last (service.ruleEngine.verdict .cpuUsagePercent) (samplesOf inOrder)) ∧
    Register.last (service.ruleEngine.verdict .cpuUsagePercent) (samplesOf freshFirst) = some true ∧
    Register.last (service.ruleEngine.verdict .cpuUsagePercent) (samplesOf inOrder) = some false :=
  ⟨deliveryOrder_iff Environment.calm_faultless Environment.calm_faultless rfl sentBy_freshFirst
    (by decide +kernel) (by decide) .cpuUsagePercent, by decide +kernel, by decide +kernel⟩

/-- The buffered payload opens an alert that the fresh one has shown to be over. -/
theorem not_deliveryOrder : ¬ ∀ (env : Environment) (svc : AlertEvaluationService)
    (nodeId : String) (receipts sorted : List Receipt) (m : MetricType), env.Faultless →
      svc.ruleEngine.rulesConfig.rateOfChangeRules = [] → SentBy nodeId receipts →
      (∀ r ∈ receipts, (r.payload.samples.map MetricSample.metricType).Nodup) →
      (receipts.map Receipt.payload).Perm (sorted.map Receipt.payload) →
      (sorted.map fun r => r.payload.collectedAt.instant).Pairwise (· < ·) →
        firing nodeId (ruleKeyOf .threshold m)
            (ingestAll env svc receipts .fresh).store.alerts =
          firing nodeId (ruleKeyOf .threshold m)
            (ingestAll env svc sorted .fresh).store.alerts := by
  intro h
  have hsame := h .calm service "node-1" freshFirst inOrder .cpuUsagePercent
    Environment.calm_faultless rfl sentBy_freshFirst (by decide +kernel) (by decide +kernel)
    (by decide +kernel)
  exact absurd hsame (by decide +kernel)

end Scenario

end ClusterPulse
