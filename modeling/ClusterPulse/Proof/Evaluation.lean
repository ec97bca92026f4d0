import ClusterPulse.Proof.AlertSteps

/-!
# The evaluation takes alert steps

`AlertEvaluationService.evaluateAndApply`, followed from one helper to the next.  Between calls the
alert it works on is the row in the table (`Live`), and once escalation has been considered the
alert is escalated if it is old enough for remediation, because the remediation threshold is not
below the escalation threshold.
-/

namespace ClusterPulse

open AlertRepository Prog

/-- `a` is the current row of a firing alert. -/
structure Live (w : World) (a : AlertRecord) : Prop where
  get? : w.store.alerts.get? a.id = some a
  firing : a.status = .firing

theorem Live.of_same {w w' : World} {a : AlertRecord} (h : Live w a) (hw : SameAlerts w w') :
    Live w' a := ⟨hw.alerts ▸ h.get?, h.firing⟩

theorem Live.of_modify {w w' : World} {a : AlertRecord} {f : AlertRecord → AlertRecord}
    {hf : ∀ a, (f a).id = a.id} (h : Live w a) (hstatus : (f a).status = a.status)
    (halerts : w'.store.alerts = w.store.alerts.modify a.id f hf) : Live w' (f a) := by
  refine ⟨?_, hstatus.trans h.firing⟩
  rw [halerts, hf, Table.get?_modify_self, h.get?, Option.map_some]

/-- What `find_open_alert` finds is live. -/
theorem live_of_findOpenAlert {w : World} {scan : Scan} {nodeId ruleKey : String} {a : AlertRecord}
    (h : findOpenAlert scan w.store nodeId ruleKey = some a) : Live w a := by
  have hmem : a ∈ w.store.alerts.rows := mem_reorder.1 (List.mem_of_find?_eq_some h)
  have hopen : isOpen nodeId ruleKey a = true := List.find?_some h
  refine ⟨Table.get?_of_mem hmem, ?_⟩
  simp only [isOpen, Bool.and_eq_true, beq_iff_eq] at hopen
  exact hopen.2

namespace AlertEvaluationService

/-! ## The age checks -/

theorem ageReaches_eq_ok {a : AlertRecord} {t : Datetime} {threshold : Double} {b : Bool}
    (h : ageReaches a t threshold = .ok b) :
    b = true ↔ threshold ≤ Timedelta.totalSeconds (t.instant - a.firstFiredAt) := by
  unfold ageReaches at h
  rcases hs : t.since a.firstFiredAt with e | age
  · rw [hs] at h
    cases h
  · rw [hs] at h
    cases h
    rw [Datetime.since_of_ok hs, decide_eq_true_iff]

variable {svc : AlertEvaluationService}

theorem shouldEscalate_eq_ok {a : AlertRecord} {t : Datetime} {b : Bool}
    (h : svc.shouldEscalate a t = .ok b) :
    b = true ↔ a.acknowledgedAt = none ∧ a.escalatedAt = none ∧
      svc.escalationAfterSeconds ≤ Timedelta.totalSeconds (t.instant - a.firstFiredAt) := by
  unfold shouldEscalate at h
  split_ifs at h with hset
  · cases h
    simp only [Bool.or_eq_true, Option.isSome_iff_ne_none] at hset
    simp only [Bool.false_eq_true, false_iff, not_and]
    intro hack hesc
    exact absurd hset (by simp [hack, hesc])
  · rw [ageReaches_eq_ok h]
    simp only [Bool.or_eq_true, not_or, Option.isSome_iff_ne_none, not_not] at hset
    simp [hset.1, hset.2]

theorem shouldRemediate_eq_ok_true {a : AlertRecord} {t : Datetime}
    (h : svc.shouldRemediate a t = .ok true) :
    a.acknowledgedAt = none ∧ a.remediatedAt = none ∧
      svc.remediationAfterSeconds ≤ Timedelta.totalSeconds (t.instant - a.firstFiredAt) := by
  unfold shouldRemediate at h
  by_cases hengine : svc.remediationEngine.isNone
  · rw [if_pos hengine] at h
    cases h
  rw [if_neg hengine] at h
  by_cases hset : a.acknowledgedAt.isSome || a.remediatedAt.isSome
  · rw [if_pos hset] at h
    cases h
  rw [if_neg hset] at h
  simp only [Bool.or_eq_true, not_or, Option.isSome_iff_ne_none, not_not] at hset
  exact ⟨hset.1, hset.2, (ageReaches_eq_ok h).1 rfl⟩

theorem aware_of_ageReaches {a : AlertRecord} {t : Datetime} {threshold : Double} {b : Bool}
    (h : ageReaches a t threshold = .ok b) : t.utcoffset.isSome := by
  unfold ageReaches Datetime.since at h
  rcases ht : t.utcoffset with _ | o
  · rw [ht] at h
    cases h
  · rfl

theorem aware_of_shouldRemediate {a : AlertRecord} {t : Datetime}
    (h : svc.shouldRemediate a t = .ok true) : t.utcoffset.isSome := by
  unfold shouldRemediate at h
  split_ifs at h
  · cases h
  · cases h
  · exact aware_of_ageReaches h

/-- Remediation, when it is enabled, does not come before escalation. -/
def Ordered (svc : AlertEvaluationService) : Prop :=
  ∀ e ∈ svc.remediationEngine, e.enabled = true →
    svc.escalationAfterSeconds ≤ svc.remediationAfterSeconds

/-- Escalation has been considered for `a`. -/
def Considered (svc : AlertEvaluationService) (t : Datetime) (a : AlertRecord) : Prop :=
  a.acknowledgedAt = none →
    svc.escalationAfterSeconds ≤ Timedelta.totalSeconds (t.instant - a.firstFiredAt) →
      a.escalatedAt.isSome

end AlertEvaluationService

/-! ## The helpers -/

section Helpers

variable {env : Environment} {service : Option AlertEvaluationService} {w : World}
  {svc : AlertEvaluationService} {nodeId : String} {t : Datetime}

theorem RuleEngine.runs_evaluate (e : RuleEngine) (samples : List MetricSample) (hw : Settled w) :
    Runs (handle env) (AlertStep service) (e.evaluate nodeId samples t) w
      (Ends (fun _ w' => SameAlerts w w') fun _ => Settled) := by
  unfold RuleEngine.evaluate
  refine Runs.foldlM (fun results sample w' hsame => ?_) samples [] w (SameAlerts.refl w)
  unfold RuleEngine.evaluateSample
  split
  · exact hsame
  · unfold RuleEngine.evaluateRateOfChange
    have hquiet : (Call.findPreviousSample nodeId sample.metricType t
      (‹RateOfChangeRuleDefinition›).windowSeconds).Quiet := ⟨fun _ _ => rfl, fun _ => rfl⟩
    rw [bind_assoc]
    refine (hquiet.runs (hsame.settled hw)).andThen ?_
    rintro previous w'' ⟨hsame', -⟩
    exact hsame.trans hsame'

theorem AlertEvaluationService.runs_notify (m : Notification) (hw : Settled w) :
    Runs (handle env) (AlertStep service) (svc.notify m) w
      (Ends (fun _ w' => SameAlerts w w') fun _ => Settled) := by
  unfold AlertEvaluationService.notify
  split_ifs
  · have hquiet : (Call.notify m).Quiet := ⟨fun _ _ => rfl, fun _ => rfl⟩
    refine hquiet.runs hw |>.post ?_
    rintro (e | a) w' hQ
    · exact hQ
    · exact hQ.1
  · exact SameAlerts.refl w

theorem AlertEvaluationService.runs_openAlert (result : RuleEvaluationResult) (hw : Settled w) :
    Runs (handle env) (AlertStep service) (svc.openAlert nodeId result t) w
      (Ends (fun _ => Settled) fun _ => Settled) := by
  unfold AlertEvaluationService.openAlert
  have hnew : Runs (handle env) (AlertStep service) (Call.createAlert nodeId result.ruleKey
      result.ruleKind result.severity result.description result.value result.bound t).perform w
      (Ends (fun _ => Settled) fun _ => Settled) :=
    (Call.runs_change hw (fun _ => rfl) fun _ =>
      .insert _ (fun _ => id_newAlert ..) rfl rfl rfl).post fun r w' hQ =>
      match r with
      | .ok _ => hQ.1
      | .error _ => hQ
  refine hnew.andThen fun record w' hw' => ?_
  exact (AlertEvaluationService.runs_notify _ hw').andThen fun _ w'' hsame => hsame.settled hw'

/-- A write to a live alert, from a settled world. -/
theorem runs_write (c : Call) {a : AlertRecord} {f : AlertRecord → AlertRecord}
    (hf : ∀ a, (f a).id = a.id) (hw : Settled w) (ha : Live w a) (haudit : ∀ n, c.audit n = none)
    (hc : ∀ scan σ, c.alerts scan σ = σ.alerts.modify a.id f hf)
    (hwrite : AlertWrite service a (f a)) :
    Runs (handle env) (AlertStep service) c.perform w (Ends
      (fun r w' => Settled w' ∧ (∃ scan, (exec scan c w.store).1 = .ok r) ∧
        w'.store.alerts = w.store.alerts.modify a.id f hf)
      fun _ => Settled) := by
  have hchange : ∀ scan, AlertChange service w.store.alerts (c.alerts scan w.store) :=
    fun scan => hc scan w.store ▸ .write a.id f hf a ha.get? ha.firing hwrite
  refine (Call.runs_change hw haudit hchange).post ?_
  rintro (e | r) w' hQ
  · exact hQ
  · obtain ⟨hw', -, scan, hr, halerts⟩ := hQ
    exact ⟨hw', ⟨scan, hr⟩, halerts.trans (hc _ _)⟩

theorem AlertEvaluationService.runs_maybeEscalate {a : AlertRecord} (hw : Settled w)
    (ha : Live w a) :
    Runs (handle env) (AlertStep (some svc)) (svc.maybeEscalate t a) w (Ends
      (fun a' w' => Settled w' ∧ Live w' a' ∧ svc.Considered t a') fun _ => Settled) := by
  unfold AlertEvaluationService.maybeEscalate
  rcases hdue : svc.shouldEscalate a t with e | due
  · exact hw
  have hiff := AlertEvaluationService.shouldEscalate_eq_ok hdue
  rw [lift_ok, pure_bind']
  cases due with
  | false =>
    refine ⟨hw, ha, fun hack hage => ?_⟩
    by_contra hesc
    exact absurd (hiff.2 ⟨hack, by simpa using hesc, hage⟩) (by decide)
  | true =>
    obtain ⟨hack, hesc, hage⟩ := hiff.1 rfl
    have hwrite : AlertWrite (some svc) a (escalated t a) := .escalate svc t rfl hack hesc hage
    refine (runs_write (.escalateAlert a.id t) (id_escalated · t) hw ha (fun _ => rfl)
      (fun _ _ => rfl) hwrite).andThen ?_
    rintro a' w' ⟨hw', ⟨scan, hr⟩, halerts⟩
    obtain rfl : escalated t a = a' := Except.ok.inj ((update_of_get? ha.get?).symm.trans hr)
    refine (AlertEvaluationService.runs_notify _ hw').andThen fun _ w'' hsame => ?_
    exact ⟨hsame.settled hw', (ha.of_modify rfl halerts).of_same hsame, fun _ _ => rfl⟩

/-! ## Remediation -/

theorem RemediationEngine.runs_checkRateLimit (e : RemediationEngine) {w₀ : World}
    (hw : Settled w) (hsame : SameAlerts w₀ w) :
    Runs (handle env) (AlertStep service) (e.checkRateLimit nodeId t) w
      (Ends (fun _ w' => SameAlerts w₀ w') fun _ => Settled) := by
  unfold RemediationEngine.checkRateLimit
  rcases t.minus Timedelta.hour with err | since
  · exact hw
  have hquiet : (Call.countRecentActions nodeId since).Quiet := ⟨fun _ _ => rfl, fun _ => rfl⟩
  refine (hquiet.runs hw).andThen ?_
  rintro count w' ⟨hsame', -⟩
  split_ifs
  · exact hsame.trans hsame'
  · exact hsame.trans hsame'

theorem RemediationEngine.runs_checkSafetyLimits (e : RemediationEngine)
    (playbook : PlaybookDefinition) (hw : Settled w) :
    Runs (handle env) (AlertStep service) (e.checkSafetyLimits nodeId playbook t) w
      (Ends (fun _ w' => SameAlerts w w') fun _ => Settled) := by
  unfold RemediationEngine.checkSafetyLimits
  have hquiet : (Call.findLastAction nodeId playbook.playbookName).Quiet :=
    ⟨fun _ _ => rfl, fun _ => rfl⟩
  refine (hquiet.runs hw).andThen ?_
  rintro last w' ⟨hsame, -⟩
  have hrate : Runs (handle env) (AlertStep service) (e.checkRateLimit nodeId t) w'
      (Ends (fun _ w'' => SameAlerts w w'') fun _ => Settled) :=
    e.runs_checkRateLimit (hsame.settled hw) hsame
  rcases elapsedSince t last with err | _ | elapsed
  · exact hsame.settled hw
  · exact hrate
  · simp only [lift_ok, pure_bind']
    split_ifs
    · exact hsame
    · exact hrate

/-- The alert is decided on only if it has no decision yet. -/
theorem runs_createAction {i : ℕ} {ruleKey playbookName : String}
    {actionType : PlaybookActionType} {parameters : StrDict} {status : RemediationActionStatus}
    {reason : Option String} (hw : Settled w) (hi : i < w.store.alerts.next)
    (hfresh : ∀ r ∈ w.recorded, r.alertId ≠ i) :
    Runs (handle env) (AlertStep service) (Call.createAction nodeId i ruleKey playbookName
      actionType parameters status reason t).perform w
      (Ends (fun _ w' => w'.store.alerts = w.store.alerts ∧ Deciding i w') fun _ => Settled) := by
  refine Call.runs_perform (fun _ _ => ?_) fun _ => ?_
  · have hsame : SameAlerts w { w with calls := w.calls + 1 } := ⟨rfl, rfl⟩
    exact ⟨hsame.alertStep, hsame.settled hw⟩
  · have halerts := World.after_alerts w (env.scan w.calls) (.createAction nodeId i ruleKey
      playbookName actionType parameters status reason t)
    exact ⟨.decide _ hfresh halerts rfl, halerts, hw.decide hi halerts rfl⟩

theorem RemediationEngine.runs_decide (e : RemediationEngine) {i : ℕ} (ruleKey : String)
    (hw : Settled w) (hi : i < w.store.alerts.next) (hfresh : ∀ r ∈ w.recorded, r.alertId ≠ i) :
    Runs (handle env) (AlertStep service) (e.decide nodeId i ruleKey t) w (Ends
      (fun decision w' => w'.store.alerts = w.store.alerts ∧
        match decision with
        | none => Settled w'
        | some _ => e.enabled = true ∧ Deciding i w')
      fun _ => Settled) := by
  unfold RemediationEngine.decide
  by_cases henabled : e.enabled = true
  swap
  · rw [if_neg henabled]
    exact ⟨rfl, hw⟩
  rw [if_pos henabled]
  rcases e.byRuleKey? ruleKey with _ | playbook
  · exact ⟨rfl, hw⟩
  refine (e.runs_checkSafetyLimits playbook hw).andThen fun blockedReason w₁ hsame => ?_
  have hi₁ : i < w₁.store.alerts.next := hsame.alerts ▸ hi
  have hfresh₁ : ∀ r ∈ w₁.recorded, r.alertId ≠ i := hsame.recorded ▸ hfresh
  refine (runs_createAction (hsame.settled hw) hi₁ hfresh₁).andThen ?_
  rintro action w₂ ⟨halerts, hdeciding⟩
  exact ⟨halerts.trans hsame.alerts, henabled, hdeciding⟩

namespace AlertEvaluationService

theorem runs_markDecision (hmark : env.MarksRemediated) {a : AlertRecord}
    (decision : RemediationActionRecord) (hw : Deciding a.id w) (ha : Live w a)
    (hwrite : AlertWrite service a (remediated t a)) :
    Runs (handle env) (AlertStep service) (markDecision t a (some decision)) w
      (Ends (fun _ => Settled) fun _ => Settled) := by
  have halerts := World.after_alerts w (env.scan w.calls) (.markRemediated a.id t)
  have hsettled := hw.mark (id_remediated · t) (fun _ => rfl) halerts (by simp [Call.audit])
  have hstep : AlertStep service w (w.after (env.scan w.calls) (.markRemediated a.id t)) :=
    .change (halerts ▸ .write a.id _ (id_remediated · t) a ha.get? ha.firing hwrite)
      (by simp [Call.audit])
  have hcall : Runs (handle env) (AlertStep service) (Call.markRemediated a.id t).perform w
      (fun _ => Settled) := by
    refine Call.runs_perform (fun e he => ?_) fun _ => ⟨hstep, hsettled⟩
    rw [hmark] at he
    cases he
  exact hcall.bind (fun _ _ h => h) fun _ _ h => h

theorem runs_maybeRemediate (hmark : env.MarksRemediated) (hord : svc.Ordered)
    (result : RuleEvaluationResult) {a : AlertRecord} (hw : Settled w) (ha : Live w a)
    (hconsidered : svc.Considered t a) :
    Runs (handle env) (AlertStep (some svc)) (svc.maybeRemediate nodeId result t a) w
      (Ends (fun _ => Settled) fun _ => Settled) := by
  unfold maybeRemediate
  rcases hdue : svc.shouldRemediate a t with e | due
  · exact hw
  rw [lift_ok, pure_bind']
  cases due with
  | false => exact hw
  | true =>
    obtain ⟨hack, hrem, hage⟩ := shouldRemediate_eq_ok_true hdue
    rcases hengine : svc.remediationEngine with _ | engine
    · exact hw
    -- a decision for this alert would have left it marked
    have hfresh : ∀ r ∈ w.recorded, r.alertId ≠ a.id := by
      intro r hr hid
      have hset := hw.remediated r hr a (hid ▸ ha.get?)
      rw [hrem] at hset
      cases hset
    refine (engine.runs_decide result.ruleKey hw (Table.lt_next_of_get? ha.get?) hfresh).andThen ?_
    rintro (_ | decision) w' ⟨halerts, hdecision⟩
    · exact hdecision
    · obtain ⟨henabled, hdeciding⟩ := hdecision
      have hle := hord engine hengine henabled
      have hesc := hconsidered hack (Double.le_trans hle hage)
      exact runs_markDecision hmark decision hdeciding ⟨halerts ▸ ha.get?, ha.firing⟩
        (.remediate svc t rfl hack hrem hesc hage)

/-! ## The service -/

theorem runs_openOrAdvance (hmark : env.MarksRemediated) (hord : svc.Ordered)
    (result : RuleEvaluationResult) {current : Option AlertRecord} (hw : Settled w)
    (hcurrent : ∀ a ∈ current, Live w a) :
    Runs (handle env) (AlertStep (some svc)) (svc.openOrAdvance nodeId result t current) w
      (Ends (fun _ => Settled) fun _ => Settled) := by
  cases current with
  | none => exact (runs_openAlert result hw).andThen fun _ _ hw' => hw'
  | some a =>
    have ha := hcurrent a rfl
    refine (runs_write (.updateLastFired a.id result.value t) (id_advanced · result.value t) hw ha
      (fun _ => rfl) (fun _ _ => rfl) (.advance result.value t)).andThen ?_
    rintro a' w₁ ⟨hw₁, ⟨scan, hr⟩, halerts⟩
    obtain rfl : advanced result.value t a = a' :=
      Except.ok.inj ((update_of_get? ha.get?).symm.trans hr)
    refine (runs_maybeEscalate hw₁ (ha.of_modify rfl halerts)).andThen ?_
    rintro a₂ w₂ ⟨hw₂, ha₂, hconsidered⟩
    exact runs_maybeRemediate hmark hord result hw₂ ha₂ hconsidered

theorem runs_resolve {a : AlertRecord} (hw : Settled w) (ha : Live w a) :
    Runs (handle env) (AlertStep service) (svc.resolve t a) w
      (Ends (fun _ => Settled) fun _ => Settled) := by
  unfold resolve
  refine (runs_write (.resolveAlert a.id t) (id_resolved · t) hw ha (fun _ => rfl)
    (fun _ _ => rfl) (.resolve t)).andThen ?_
  rintro a' w₁ ⟨hw₁, -, -⟩
  exact (runs_notify _ hw₁).andThen fun _ w₂ hsame => hsame.settled hw₁

theorem runs_apply (hmark : env.MarksRemediated) (hord : svc.Ordered)
    (result : RuleEvaluationResult) (hw : Settled w) :
    Runs (handle env) (AlertStep (some svc)) (svc.apply nodeId result t) w
      (Ends (fun _ => Settled) fun _ => Settled) := by
  unfold apply
  have hquiet : (Call.findOpenAlert nodeId result.ruleKey).Quiet := ⟨fun _ _ => rfl, fun _ => rfl⟩
  refine (hquiet.runs hw).andThen ?_
  rintro current w₁ ⟨hsame, scan, hfind⟩
  have hw₁ := hsame.settled hw
  have hcurrent : ∀ a ∈ current, Live w₁ a := by
    rintro a rfl
    exact (live_of_findOpenAlert (Except.ok.inj hfind)).of_same hsame
  split_ifs
  · exact (runs_openOrAdvance hmark hord result hw₁ hcurrent).andThen fun _ _ hw₂ => hw₂
  · cases current with
    | none => exact hw₁
    | some a => exact (runs_resolve hw₁ (hcurrent a rfl)).andThen fun _ _ hw₂ => hw₂

theorem runs_evaluateAndApply (hmark : env.MarksRemediated) (hord : svc.Ordered)
    (samples : List MetricSample) (hw : Settled w) :
    Runs (handle env) (AlertStep (some svc)) (svc.evaluateAndApply nodeId samples t) w
      (Ends (fun _ => Settled) fun _ => Settled) := by
  refine (svc.ruleEngine.runs_evaluate samples hw).andThen fun results w₁ hsame => ?_
  refine Runs.foldlM (fun outcome result w₂ hw₂ => ?_) results _ w₁ (hsame.settled hw)
  exact (runs_apply hmark hord result hw₂).andThen fun _ _ hw₃ => hw₃

end AlertEvaluationService

end Helpers

end ClusterPulse
