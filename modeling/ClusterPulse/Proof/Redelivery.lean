import ClusterPulse.Proof.AlertRuns
import ClusterPulse.Proof.NodeSightings
import ClusterPulse.Proof.Reapplied

/-!
# A payload that arrives twice

The Agent sends a payload again when the answer to it was lost.  In every state that a run reaches
without having opened a second alert for a key, the second ingestion changes nothing but the
samples, and no later ingestion or acknowledgement tells the two states apart: the samples are there
twice, with the same readings.
-/

namespace ClusterPulse

open AlertRepository Prog

/-! ## The keys of an evaluation -/

/-- The results have different keys, of rules for these metric types. -/
structure KeyedBy (metrics : List MetricType) (results : List RuleEvaluationResult) : Prop where
  nodup : (results.map RuleEvaluationResult.ruleKey).Nodup
  keyed : ∀ r ∈ results, ∃ m ∈ metrics,
    r.ruleKey = ruleKeyOf .threshold m ∨ r.ruleKey = ruleKeyOf .rateOfChange m

section Keys

variable {metrics : List MetricType} {results : List RuleEvaluationResult}
  {result : RuleEvaluationResult} {m : MetricType}

theorem KeyedBy.concat (h : KeyedBy metrics results)
    (hkey : result.ruleKey = ruleKeyOf .threshold m ∨ result.ruleKey = ruleKeyOf .rateOfChange m)
    (hm : m ∈ metrics) (hnew : ∀ r ∈ results, r.ruleKey ≠ result.ruleKey) :
    KeyedBy metrics (results ++ [result]) := by
  refine ⟨?_, fun r hr => ?_⟩
  · rw [List.map_append, List.map_singleton, List.nodup_append]
    refine ⟨h.nodup, List.nodup_singleton _, ?_⟩
    rintro k hk _ hk' rfl
    obtain ⟨r, hr, rfl⟩ := List.mem_map.1 hk
    exact hnew r hr (List.mem_singleton.1 hk')
  · rcases List.mem_append.1 hr with hr | hr
    · exact h.keyed r hr
    · rw [List.mem_singleton.1 hr]
      exact ⟨m, hm, hkey⟩

theorem KeyedBy.cons (h : KeyedBy metrics results) (m : MetricType) :
    KeyedBy (m :: metrics) results := by
  refine ⟨h.nodup, fun r hr => ?_⟩
  obtain ⟨m', hm', hkey⟩ := h.keyed r hr
  exact ⟨m', List.mem_cons_of_mem _ hm', hkey⟩

/-- No result has a key of another metric type. -/
theorem KeyedBy.ne_of_not_mem (h : KeyedBy metrics results) (hm : m ∉ metrics) {ruleKey : String}
    (hkey : ruleKey = ruleKeyOf .threshold m ∨ ruleKey = ruleKeyOf .rateOfChange m) :
    ∀ r ∈ results, r.ruleKey ≠ ruleKey := by
  intro r hr heq
  obtain ⟨m', hm', hkey'⟩ := h.keyed r hr
  have hne : m ≠ m' := fun h => hm (h ▸ hm')
  rw [heq] at hkey'
  obtain rfl | rfl := hkey <;> obtain hkey' | hkey' := hkey'
  · exact hne (ruleKeyOf_inj.1 hkey')
  · exact ruleKeyOf_threshold_ne _ _ hkey'
  · exact ruleKeyOf_threshold_ne _ _ hkey'.symm
  · exact hne (ruleKeyOf_inj.1 hkey')

variable {env : Environment} {w : World} {nodeId : String} {t : Datetime} {e : RuleEngine}

theorem RuleEngine.metricType_of_thresholdRule? {rule : ThresholdRuleDefinition}
    (h : e.thresholdRule? m = some rule) : rule.metricType = m := by
  have htest := List.find?_some h
  rwa [beq_iff_eq] at htest

theorem RuleEngine.metricType_of_rateOfChangeRule? {rule : RateOfChangeRuleDefinition}
    (h : e.rateOfChangeRule? m = some rule) : rule.metricType = m := by
  have htest := List.find?_some h
  rwa [beq_iff_eq] at htest

/-- The result of the threshold rule leaves the key of the rate-of-change rule free. -/
theorem KeyedBy.threshold (h : KeyedBy metrics results) {sample : MetricSample}
    (hnew : sample.metricType ∉ metrics) {results' : List RuleEvaluationResult}
    (hresults' : results' = results ++ ((e.thresholdRule? sample.metricType).map
      (RuleEngine.evaluateThreshold · sample)).toList) :
    KeyedBy (sample.metricType :: metrics) results' ∧
      ∀ r ∈ results', r.ruleKey ≠ ruleKeyOf .rateOfChange sample.metricType := by
  subst hresults'
  have hfree : ∀ r ∈ results, r.ruleKey ≠ ruleKeyOf .rateOfChange sample.metricType :=
    h.ne_of_not_mem hnew (.inr rfl)
  cases hrule : e.thresholdRule? sample.metricType with
  | none =>
    rw [Option.map_none, Option.toList_none, List.append_nil]
    exact ⟨h.cons _, hfree⟩
  | some rule =>
    rw [Option.map_some, Option.toList_some]
    have hkey : (RuleEngine.evaluateThreshold rule sample).ruleKey =
        ruleKeyOf .threshold sample.metricType := by
      rw [← RuleEngine.metricType_of_thresholdRule? hrule]
      rfl
    refine ⟨(h.cons _).concat (.inl hkey) List.mem_cons_self
      (h.ne_of_not_mem hnew (.inl hkey)), fun r hr => ?_⟩
    rcases List.mem_append.1 hr with hr | hr
    · exact hfree r hr
    · rw [List.mem_singleton.1 hr, hkey]
      exact ruleKeyOf_threshold_ne _ _

/-- The results of one more sample. -/
theorem RuleEngine.keyedBy_evaluateSample {sample : MetricSample} (h : KeyedBy metrics results)
    (hnew : sample.metricType ∉ metrics) :
    Runs (handle env) (fun _ _ => True) (e.evaluateSample nodeId t results sample) w (Ends
      (fun results' _ => KeyedBy (sample.metricType :: metrics) results') fun _ _ => True) := by
  obtain ⟨hthreshold, hfree⟩ := h.threshold (e := e) hnew rfl
  unfold RuleEngine.evaluateSample
  dsimp only
  cases hrule : e.rateOfChangeRule? sample.metricType with
  | none => exact hthreshold
  | some rule =>
    have hrate : Runs (handle env) (fun _ _ => True) (evaluateRateOfChange nodeId rule sample t) w
        (Ends (fun result _ => ∀ r ∈ result, r.ruleKey = ruleKeyOf .rateOfChange sample.metricType)
          fun _ _ => True) := by
      unfold RuleEngine.evaluateRateOfChange
      refine (runs_of_forall (fun _ _ => trivial) _).bind (fun previous w₁ _ => ?_)
        fun _ _ _ => trivial
      intro r hr
      obtain ⟨s, -, rfl⟩ := Option.map_eq_some_iff.1 hr
      rw [← metricType_of_rateOfChangeRule? hrule]
      rfl
    refine hrate.andThen fun result w₁ hresult => ?_
    cases result with
    | none =>
      rw [Option.toList_none, List.append_nil]
      exact hthreshold
    | some r =>
      have hkey := hresult r rfl
      rw [Option.toList_some]
      exact hthreshold.concat (.inr hkey) List.mem_cons_self (hkey ▸ hfree)

/-- Different metric types give results with different keys. -/
theorem RuleEngine.runs_evaluate_nodup (samples : List MetricSample)
    (hsamples : (samples.map MetricSample.metricType).Nodup) :
    Runs (handle env) (fun _ _ => True) (e.evaluate nodeId samples t) w (Ends
      (fun results _ => (results.map RuleEvaluationResult.ruleKey).Nodup) fun _ _ => True) := by
  have hall : ∀ (samples : List MetricSample) (metrics : List MetricType)
      (results : List RuleEvaluationResult) (w : World),
      (samples.map MetricSample.metricType).Nodup →
      (∀ sample ∈ samples, sample.metricType ∉ metrics) → KeyedBy metrics results →
      Runs (handle env) (fun _ _ => True) (samples.foldlM (e.evaluateSample nodeId t) results) w
        (Ends (fun results' _ => (results'.map RuleEvaluationResult.ruleKey).Nodup)
          fun _ _ => True) := by
    intro samples
    induction samples with
    | nil => exact fun _ _ _ _ _ h => h.nodup
    | cons sample samples ih =>
      intro metrics results w hnodup hnew h
      rw [List.map_cons, List.nodup_cons] at hnodup
      rw [List.foldlM_cons]
      refine (keyedBy_evaluateSample h (hnew sample List.mem_cons_self)).andThen ?_
      refine fun results' w₁ h' => ih _ results' w₁ hnodup.2 (fun s hs => ?_) h'
      rw [List.mem_cons, not_or]
      refine ⟨fun heq => hnodup.1 ?_, hnew s (List.mem_cons_of_mem _ hs)⟩
      rw [← heq]
      exact List.mem_map_of_mem hs
  exact hall samples [] [] w hsamples (fun _ _ => List.not_mem_nil) ⟨List.nodup_nil, nofun⟩

end Keys

/-! ## The second ingestion -/

/-- The two worlds show the same node rows, alerts, decisions and messages. -/
structure Indistinct (w w' : World) : Prop where
  nodes : w'.store.nodes = w.store.nodes
  alerts : w'.store.alerts = w.store.alerts
  actions : w'.store.remediationActions = w.store.remediationActions
  sent : w'.sent = w.sent

theorem Agree.indistinct {S : SampleTable → SampleTable → Prop} {w w' : World} (h : Agree S w w') :
    Indistinct w w' := ⟨h.nodes, h.alerts, h.actions, h.sent⟩

/-- A node that was seen at a time is seen at that time again. -/
theorem NodeRepository.upsertSeen_again {σ σ' : Store} {nodeId : String} {seenAt : Datetime}
    (h : σ'.nodes = (upsertSeen σ nodeId seenAt).2.nodes) :
    (upsertSeen σ' nodeId seenAt).2.nodes = σ'.nodes := by
  have hseen : (∃ n ∈ σ'.nodes, n.nodeId = nodeId) ∧
      ∀ n ∈ σ'.nodes, n.nodeId = nodeId → n.lastSeenAt = seenAt.instant := by
    rw [h]
    exact ⟨exists_mem_upsertSeen σ nodeId seenAt, fun n hn hid => (of_mem_upsertSeen hn hid).1⟩
  obtain ⟨⟨n, hn, hid⟩, hlast⟩ := hseen
  unfold upsertSeen
  cases hfind : σ'.nodes.find? fun n => n.nodeId == nodeId with
  | none => exact absurd hid (by simpa using List.find?_eq_none.1 hfind n hn)
  | some node =>
    refine (List.map_congr_left fun n hn => ?_).trans (List.map_id _)
    split_ifs with hid
    · rw [← hlast n hn hid, id]
    · rfl

section Twice

variable {payloads : Set NodeMetricsPayload} {env env' : Environment} {w w' w₁ w₂ : World}
  {svc : AlertEvaluationService} {nodeId : String} {t : Datetime} {samples : List MetricSample}

/-- What a payload leaves in the tables before its rules are evaluated. -/
theorem MetricsIngestionService.persist_writes (henv : env.Faultless) (payload : NodeMetricsPayload)
    (receivedAt : Instant) (w : World) :
    let w₁ := ((persist payload receivedAt).run (handle env) w).2
    w₁.store.nodes =
        (NodeRepository.upsertSeen w.store payload.nodeId payload.collectedAt).2.nodes ∧
      w₁.store.alerts = w.store.alerts ∧
      w₁.store.remediationActions = w.store.remediationActions ∧ w₁.sent = w.sent ∧
      w₁.recorded = w.recorded ∧
      readings w₁.store.metricSamples = readings w.store.metricSamples ∪ payload.readings := by
  intro w₁
  have hw₁ : w₁ = (w.after (env.scan w.calls) (.upsertSeen payload.nodeId payload.collectedAt)).after
      (env.scan (w.calls + 1)) (.bulkInsert payload.nodeId payload.samples payload.collectedAt
        receivedAt) := by
    show ((persist payload receivedAt).run (handle env) w).2 = _
    unfold persist
    rw [run_perform_bind (henv _ _) rfl, run_perform, handle_of_ok (henv _ _)]
    rfl
  rw [hw₁]
  refine ⟨rfl, ?_, ?_, ?_, ?_, ?_⟩
  · rw [World.after_alerts]
    exact World.after_alerts ..
  · rw [World.after_actions]
    exact World.after_actions ..
  · rw [World.after_sent, World.after_sent]
    simp [Call.message]
  · rw [World.after_recorded, World.after_recorded]
    simp [Call.audit]
  · refine (readings_bulkInsert _ payload receivedAt).trans ?_
    exact congrArg (readings · ∪ _)
      (exec_metricSamples _ _ _ (fun _ _ _ _ h => by cases h) fun _ _ h => by cases h)

/-- An evaluation writes neither node rows nor samples. -/
theorem AlertEvaluationService.evaluateAndApply_keeps :
    let w₁ := ((svc.evaluateAndApply nodeId samples t).run (handle env) w).2
    w₁.store.nodes = w.store.nodes ∧ w₁.store.metricSamples = w.store.metricSamples := by
  have honly : Only (Call.IsAlerting nodeId t) (svc.evaluateAndApply nodeId samples t) :=
    svc.only_evaluateAndApply samples
  refine (honly.runs (fun w' : World => w'.store.nodes = w.store.nodes ∧
    w'.store.metricSamples = w.store.metricSamples) (fun c w' hc hw' => ?_) ⟨rfl, rfl⟩).run
  rcases handle_cases env c w' with ⟨e, -, heq⟩ | ⟨-, heq⟩ <;> rw [heq]
  · exact hw'
  · refine ⟨(exec_nodes _ c _ ?_).trans hw'.1, (exec_metricSamples _ c _ ?_ ?_).trans hw'.2⟩
    · rintro n t rfl
      exact hc.elim
    · rintro n s t r rfl
      exact hc.elim
    · rintro n b rfl
      exact hc.elim

/-- The results that an evaluation has applied are there, and have no effect, in the second. -/
theorem untouched_evaluateAndApply (henv : env.Faultless) (hpayloads : Distinct payloads)
    (hescalation : 0 < svc.escalationAfterSeconds) (hremediation : 0 < svc.remediationAfterSeconds)
    (hone : OneFiring w₁.store.alerts) (hsingle : (samples.map MetricSample.metricType).Nodup)
    (hagree : AgreeElsewhere ((svc.evaluateAndApply nodeId samples t).run (handle env) w₁).2 w₂)
    (hsamples : SameReadings payloads w₁.store.metricSamples w₂.store.metricSamples) :
    Untouched w₂ ((svc.evaluateAndApply nodeId samples t).run (handle env) w₂).2 := by
  have hsame : SameAnswer env env (svc.ruleEngine.evaluate nodeId samples t) w₁ w₂ :=
    sameAnswer_evaluate henv henv hpayloads hsamples svc.ruleEngine samples
  have hkeys := Runs.run (h := handle env) (p := svc.ruleEngine.evaluate nodeId samples t) (s := w₁)
    (RuleEngine.runs_evaluate_nodup samples hsingle)
  unfold AlertEvaluationService.evaluateAndApply at hagree ⊢
  unfold SameAnswer Coupled at hsame
  rw [run_bind] at hagree ⊢
  generalize (svc.ruleEngine.evaluate nodeId samples t).run (handle env) w₁ = x
    at hsame hkeys hagree
  generalize (svc.ruleEngine.evaluate nodeId samples t).run (handle env) w₂ = x' at hsame ⊢
  cases hsame with
  | raised e hE => exact hE.2
  | @returned _ results w₁' w₂' hQ =>
    obtain ⟨rfl, hw₁', hw₂'⟩ := hQ
    have hone' : OneFiring w₁'.store.alerts := hw₁'.store ▸ hone
    have hspent : Spent env svc nodeId t ((svc.applyAll nodeId t results).run (handle env) w₁').2
        results :=
      (spent_applyAll henv hescalation hremediation _ ⟨[], []⟩ w₁' hkeys hone').run.1
    exact hw₂'.trans (untouched_applyAll henv _ ⟨[], []⟩ w₂' hspent
      (hagree.untouched (.refl _) hw₂')).run

/-- The second ingestion adds samples, with the readings that are there, and nothing else. -/
theorem agree_ingest_again (henv : env.Faultless) (hpayloads : Distinct payloads)
    (hescalation : 0 < svc.escalationAfterSeconds) (hremediation : 0 < svc.remediationAfterSeconds)
    {payload : NodeMetricsPayload} (hpayload : payload ∈ payloads)
    (hsourced : Sourced payloads w.store.metricSamples) (hone : OneFiring w.store.alerts)
    (receivedAt receivedAt' : Instant) :
    let once := ((MetricsIngestionService.ingest svc payload receivedAt).run (handle env) w).2
    Agree (SameReadings payloads) once
      ((MetricsIngestionService.ingest svc payload receivedAt').run (handle env) once).2 := by
  intro once
  have hagree : Agree (SameReadings payloads) w w := .refl hone ⟨hsourced, rfl⟩
  have hone' : OneFiring once.store.alerts :=
    have hsame : Same (SameReadings payloads) env env
        (MetricsIngestionService.ingest svc payload receivedAt) w w :=
      same_ingest henv henv hpayloads hagree hpayload receivedAt
    hsame.oneFiring
  have honce : once = _ := MetricsIngestionService.run_ingest henv payload receivedAt w
  rw [MetricsIngestionService.run_ingest henv]
  obtain ⟨hnodes₁, halerts₁, -, -, -, hreadings₁⟩ :=
    MetricsIngestionService.persist_writes henv payload receivedAt w
  obtain ⟨hnodes₂, halerts₂, hactions₂, hsent₂, hrecorded₂, hreadings₂⟩ :=
    MetricsIngestionService.persist_writes henv payload receivedAt' once
  generalize ((MetricsIngestionService.persist payload receivedAt).run (handle env) w).2 = w₁ at *
  generalize ((MetricsIngestionService.persist payload receivedAt').run (handle env) once).2 = w₂ at *
  have hkeeps : let w₂ := ((svc.evaluateAndApply payload.nodeId payload.samples
      payload.collectedAt).run (handle env) w₁).2
      w₂.store.nodes = w₁.store.nodes ∧ w₂.store.metricSamples = w₁.store.metricSamples :=
    svc.evaluateAndApply_keeps
  obtain ⟨hnodes, hsamples⟩ := hkeeps
  rw [← honce] at hnodes hsamples
  have hsourced₁ : Sourced payloads w₁.store.metricSamples := by
    intro x hx
    rw [hreadings₁] at hx
    exact hx.elim (hsourced x) fun hx => ⟨payload, hpayload, hx⟩
  have hsame : readings w₂.store.metricSamples = readings w₁.store.metricSamples := by
    rw [hreadings₂, hsamples, hreadings₁, Set.union_assoc, Set.union_self]
  have hagain : Agree (SameReadings payloads) once w₂ := by
    refine ⟨?_, halerts₂, hactions₂, hsent₂, hrecorded₂, ?_, hone'⟩
    · rw [hnodes₂]
      exact NodeRepository.upsertSeen_again (hnodes.trans hnodes₁)
    · rw [hsamples]
      exact ⟨hsourced₁, hsame⟩
  have hone₁ : OneFiring w₁.store.alerts := halerts₁ ▸ hone
  refine hagain.untouched (.refl _) (untouched_evaluateAndApply henv hpayloads hescalation
    hremediation hone₁ (hpayloads.single payload hpayload) ?_ ⟨hsourced₁, hsame⟩)
  rw [← honce]
  exact hagain.mono fun _ => trivial

/-! ## What comes after -/

/-- The ingestion of one of the payloads, under any configuration, or an acknowledgement. -/
def Operation.IsRequestOf (payloads : Set NodeMetricsPayload) : Operation → Prop
  | .ingest _ payload _ => payload ∈ payloads
  | .acknowledge .. => True
  | _ => False

theorem same_request (henv : env.Faultless) (henv' : env'.Faultless) (hpayloads : Distinct payloads)
    {op : Operation} (hop : op.IsRequestOf payloads) (h : Agree (SameReadings payloads) w w') :
    Same (SameReadings payloads) env env' op.program w w' := by
  cases op with
  | ingest svc payload receivedAt =>
    exact (same_ingest henv henv' hpayloads h hop receivedAt).andThen fun _ _ _ h₁ => same_pure h₁ _
  | acknowledge alertId acknowledgedBy now =>
    have hupdate := AlertEvaluationService.update_acknowledge alertId acknowledgedBy now
    exact (same_of_only hupdate henv henv' h).andThen fun _ _ _ h₁ => same_pure h₁ _
  | _ => exact hop.elim

/-- No sequence of requests tells two worlds apart that agree up to duplicate samples. -/
theorem agree_runAll (henv : env.Faultless) (henv' : env'.Faultless) (hpayloads : Distinct payloads)
    {later : List Operation} (hlater : ∀ op ∈ later, op.IsRequestOf payloads)
    (h : Agree (SameReadings payloads) w w') :
    Agree (SameReadings payloads) (Operation.runAll env later w)
      (Operation.runAll env' later w') := by
  induction later generalizing w w' with
  | nil => exact h
  | cons op later ih =>
    rw [Operation.runAll_cons, Operation.runAll_cons]
    refine ih (fun op' hop' => hlater op' (List.mem_cons_of_mem _ hop')) ?_
    exact (same_request henv henv' hpayloads (hlater op List.mem_cons_self) h).states
      (fun _ _ _ _ hQ => hQ.2) fun _ _ hE => hE

end Twice

/-! ## Reachable states -/

/-- The samples of an ingestion come from one of the payloads. -/
def Operation.StoresFrom (payloads : Set NodeMetricsPayload) : Operation → Prop
  | .ingest _ payload _ => payload ∈ payloads
  | _ => True

/-- The call stores the samples of one of the payloads, if it stores any. -/
def Call.StoresFrom (payloads : Set NodeMetricsPayload) : Call → Prop
  | .bulkInsert nodeId samples collectedAt _ =>
    ∃ p ∈ payloads, p.nodeId = nodeId ∧ p.samples = samples ∧ p.collectedAt = collectedAt
  | _ => True

section Reachable

variable {payloads : Set NodeMetricsPayload} {env env₀ : Environment}

theorem Sourced.handle {c : Call} (hc : c.StoresFrom payloads) {w : World}
    (hw : Sourced payloads w.store.metricSamples) :
    Sourced payloads (handle env c w).2.store.metricSamples := by
  rcases handle_cases env c w with ⟨e, -, heq⟩ | ⟨-, heq⟩ <;> rw [heq]
  · exact hw
  · cases c with
    | bulkInsert nodeId samples collectedAt receivedAt =>
      obtain ⟨p, hp, rfl, rfl, rfl⟩ := hc
      exact hw.bulkInsert hp receivedAt
    | pruneSamplesBefore cutoff batchSize =>
      rintro _ ⟨s, hs, rfl⟩
      exact hw _ ⟨s, (Table.mem_delete.1 hs).1, rfl⟩
    | _ =>
      show Sourced payloads (exec _ _ w.store).2.metricSamples
      rw [exec_metricSamples]
      · exact hw
      · nofun
      · nofun

theorem Operation.only_storesFrom {op : Operation} (hop : op.StoresFrom payloads) :
    Only (Call.StoresFrom payloads) op.program := by
  cases op with
  | ingest svc payload receivedAt =>
    have hinsert : Call.StoresFrom payloads (.bulkInsert payload.nodeId payload.samples
        payload.collectedAt receivedAt) := ⟨payload, hop, rfl, rfl, rfl⟩
    have hevaluate : Only (Call.StoresFrom payloads)
        (MetricsIngestionService.evaluateRulesBestEffort svc payload) := by
      refine (MetricsIngestionService.only_evaluateRulesBestEffort payload).mono fun c hc => ?_
      cases c with
      | bulkInsert => exact hc.elim
      | _ => trivial
    have hpersist : Only (Call.StoresFrom payloads)
        (MetricsIngestionService.persist payload receivedAt) :=
      (only_perform trivial).bind fun _ => only_perform hinsert
    have hingest : Only (Call.StoresFrom payloads)
        (MetricsIngestionService.ingest svc payload receivedAt) :=
      hpersist.bind fun _ => hevaluate.bind fun _ => only_pure _
    exact hingest.bind fun _ => only_pure _
  | evaluateAndApply svc nodeId samples t =>
    have hevaluate : Only (Call.StoresFrom payloads) (svc.evaluateAndApply nodeId samples t) := by
      refine (svc.only_evaluateAndApply samples).mono fun c hc => ?_
      cases c with
      | bulkInsert => exact hc.elim
      | _ => trivial
    exact hevaluate.bind fun _ => only_pure _
  | staleness settings firstRunDone now =>
    have hsweep : Only (Call.StoresFrom payloads) (StalenessJob.run settings firstRunDone now) := by
      refine (StalenessJob.only_run settings firstRunDone now).mono fun c hc => ?_
      cases c with
      | bulkInsert => exact hc.elim
      | _ => trivial
    exact hsweep.bind fun _ => only_pure _
  | acknowledge | reportResult | reconciliation | retention =>
    refine (Operation.only_program _).mono fun c hc => ?_
    cases c with
    | bulkInsert => simp [Operation.Makes] at hc
    | _ => trivial

/-- What a run keeps in which every alert is opened when none is open for its key. -/
structure Reached (payloads : Set NodeMetricsPayload)
    (P : Pool Call Call.Res PyError Reply World) : Prop where
  oneFiring : OneFiring P.state.store.alerts
  sourced : Sourced payloads P.state.store.metricSamples
  threads : ∀ (i : ℕ) (p : Repo Reply), P.threads[i]? = some p → Only (Call.StoresFrom payloads) p

theorem Reached.called {P : Pool Call Call.Res PyError Reply World} {i : ℕ} {c : Call}
    {k : Except PyError c.Res → Repo Reply} (hk : P.threads[i]? = some (.call c k))
    (hc : OpensWhenNone P i) (h : Reached payloads P) :
    Reached payloads (P.called (handle env) i c k) := by
  have honly := h.threads i _ hk
  refine ⟨?_, h.sourced.handle honly.1, fun j p hp => ?_⟩
  · have hopens := hc c (Pool.nextCall_eq_some_iff.2 ⟨k, hk⟩)
    rw [Pool.state_called]
    rcases handle_cases env c P.state with ⟨e, -, heq⟩ | ⟨-, heq⟩ <;> rw [heq]
    · exact h.oneFiring
    · rw [World.after_alerts]
      exact h.oneFiring.alerts hopens
  · rw [Pool.threads_called hk] at hp
    by_cases hj : j = i
    · rw [if_pos hj] at hp
      obtain rfl := Option.some.inj hp
      exact honly.2 _
    · rw [if_neg hj] at hp
      exact h.threads j p hp

theorem reached_run {ops : List Operation} (hops : ∀ op ∈ ops, op.StoresFrom payloads)
    {sched : List ℕ}
    (hmeets : Pool.Meets (handle env) OpensWhenNone sched (Operation.pool ops .fresh)) :
    Reached payloads (Pool.run (handle env) sched (Operation.pool ops .fresh)) := by
  have hfresh : Reached payloads (Operation.pool ops .fresh) := by
    refine ⟨?_, ?_, fun i p hp => ?_⟩
    · show OneFiring World.fresh.store.alerts
      decide
    · rintro _ ⟨s, hs, -⟩
      cases hs
    · obtain ⟨op, hop, rfl⟩ := List.mem_map.1 (List.mem_of_getElem? hp)
      exact Operation.only_storesFrom (hops op hop)
  exact Pool.run_invariant_of_meets (Reached payloads)
    (fun P i c k hk hc => Reached.called hk hc) hmeets hfresh

/-- The worlds once and twice ingested show the same, and so do the worlds after any requests. -/
def Idempotent (payloads : Set NodeMetricsPayload) (env : Environment) (once twice : World) : Prop :=
  ∀ later : List Operation, (∀ op ∈ later, op.IsRequestOf payloads) →
    Indistinct (Operation.runAll env later once) (Operation.runAll env later twice)

/-- For every run that opens an alert only when none is open for its key: any operations side by
side, any interleaving, any scan orders and any failing calls. -/
theorem idempotent_of_opensWhenNone (hpayloads : Distinct payloads) {ops : List Operation}
    (hops : ∀ op ∈ ops, op.StoresFrom payloads) {sched : List ℕ}
    (hmeets : Pool.Meets (handle env₀) OpensWhenNone sched (Operation.pool ops .fresh))
    (henv : env.Faultless) {svc : AlertEvaluationService}
    (hescalation : 0 < svc.escalationAfterSeconds) (hremediation : 0 < svc.remediationAfterSeconds)
    {payload : NodeMetricsPayload} (hpayload : payload ∈ payloads)
    (receivedAt receivedAt' : Instant) :
    let w := (Pool.run (handle env₀) sched (Operation.pool ops .fresh)).state
    Idempotent payloads env (Operation.runAll env [.ingest svc payload receivedAt] w)
      (Operation.runAll env [.ingest svc payload receivedAt, .ingest svc payload receivedAt'] w) := by
  intro w later hlater
  have hreached := reached_run hops hmeets
  refine (agree_runAll henv henv hpayloads hlater ?_).indistinct
  simp only [Operation.runAll_cons, Operation.runAll_nil, Operation.program,
    Operation.run_map_program]
  exact agree_ingest_again henv hpayloads hescalation hremediation hpayload hreached.sourced
    hreached.oneFiring receivedAt receivedAt'

end Reachable

namespace Scenario

/-- A saturated processor and, later, an idle one. -/
def twoPayloads : Set NodeMetricsPayload := {payload 0 95, payload 3000 50}

theorem distinct_twoPayloads : Distinct twoPayloads := by
  have hmem : ∀ p ∈ twoPayloads, p = payload 0 95 ∨ p = payload 3000 50 := fun _ hp => hp
  refine ⟨fun p hp => ?_, fun p hp q hq _ htime => ?_⟩
  · obtain rfl | rfl := hmem p hp <;> decide
  · obtain rfl | rfl := hmem p hp <;> obtain rfl | rfl := hmem q hq
    · rfl
    · exact absurd htime (by decide +kernel)
    · exact absurd htime (by decide +kernel)
    · rfl

/-- The first evaluation has opened its alert before the second looks. -/
def inTurn : List ℕ := [0, 1, 0, 1, 0, 0, 1, 1]

/-- The state that a schedule of the two requests reaches. -/
def resentWorld (sched : List ℕ) : World :=
  (Pool.run (handle .calm) sched (Operation.pool resent .fresh)).state

theorem storesFrom_resent : ∀ op ∈ resent, op.StoresFrom twoPayloads := by
  intro op hop
  simp only [resent, List.mem_cons, List.not_mem_nil, or_false] at hop
  obtain rfl | rfl := hop <;> exact .inl rfl

theorem idempotent_inTurn : Idempotent twoPayloads .calm
    (Operation.runAll .calm [push 3000 50] (resentWorld inTurn))
    (Operation.runAll .calm [push 3000 50, push 3000 50] (resentWorld inTurn)) :=
  idempotent_of_opensWhenNone distinct_twoPayloads storesFrom_resent (by decide +kernel)
    Environment.calm_faultless (by decide +kernel) (by decide +kernel) (.inr rfl) _ _

/-- After the race, each of the two ingestions resolves one of the two alerts. -/
theorem not_idempotent : ¬ ∀ (payloads : Set NodeMetricsPayload) (env₀ env : Environment)
    (ops : List Operation) (sched : List ℕ) (svc : AlertEvaluationService)
    (payload : NodeMetricsPayload) (receivedAt receivedAt' : Instant), Distinct payloads →
      (∀ op ∈ ops, op.StoresFrom payloads) → env.Faultless → 0 < svc.escalationAfterSeconds →
      0 < svc.remediationAfterSeconds → payload ∈ payloads →
        let w := (Pool.run (handle env₀) sched (Operation.pool ops .fresh)).state
        Idempotent payloads env (Operation.runAll env [.ingest svc payload receivedAt] w)
          (Operation.runAll env [.ingest svc payload receivedAt, .ingest svc payload receivedAt']
            w) := by
  intro h
  have hall : Idempotent twoPayloads .calm
      (Operation.runAll .calm [push 3000 50] (resentWorld race))
      (Operation.runAll .calm [push 3000 50, push 3000 50] (resentWorld race)) :=
    h twoPayloads .calm .calm resent race service (payload 3000 50) (clock 3000).instant
      (clock 3000).instant distinct_twoPayloads storesFrom_resent Environment.calm_faultless
      (by decide +kernel) (by decide +kernel) (.inr rfl)
  have hsame := hall [] (List.forall_mem_nil _)
  rw [Operation.runAll_nil, Operation.runAll_nil] at hsame
  have hcount : (Operation.runAll .calm [push 3000 50, push 3000 50]
        (resentWorld race)).store.alerts.rows.countP (fun a => a.status == .firing) =
      (Operation.runAll .calm [push 3000 50]
        (resentWorld race)).store.alerts.rows.countP fun a => a.status == .firing := by
    rw [hsame.alerts]
  exact absurd hcount (by decide +kernel)

end Scenario

end ClusterPulse
