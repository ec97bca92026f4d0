import ClusterPulse.Proof.OperationCalls
import ClusterPulse.Proof.SingleFiring

/-!
# Calls checked against the tables they meet

`Operation.Makes` lists the calls of an operation; here each call is checked against the tables at
the time it is made.  An evaluation opens alerts under the keys of configured rules, writes only to
alerts of its node under such keys, and files its decisions under the alert they are about.
-/

namespace ClusterPulse

open AlertRepository Prog

/-! ## Alerts that stay -/

/-- The alert `i` exists and is one of the node and the rule key. -/
def IsAlertOf (t : AlertTable) (i : ℕ) (nodeId ruleKey : String) : Prop :=
  ∃ a, t.get? i = some a ∧ a.nodeId = nodeId ∧ a.ruleKey = ruleKey

variable {scan : Scan} {σ : Store} {c : Call}

/-- A batch of alerts holds resolved ones that no action refers to. -/
theorem AlertRepository.of_pruned {cutoff : Instant} {batchSize : ℕ} {a : AlertRecord}
    (ha : a ∈ σ.alerts.rows)
    (hgone : a ∉ (pruneResolvedBefore scan σ cutoff batchSize).2.alerts.rows) :
    a.status = .resolved ∧ isReferenced σ a = false := by
  have hdoomed : ((((reorder scan σ.alerts.rows).filter fun a => a.status == .resolved &&
      a.resolvedAt.any (fun t => decide (t < cutoff)) && !isReferenced σ a).take batchSize).map
        AlertRecord.id).contains a.id = true := by
    by_contra hkept
    exact hgone (Table.mem_delete.2 ⟨ha, by simpa using hkept⟩)
  obtain ⟨b, hb, hid⟩ := List.mem_map.1 (List.contains_iff_mem.1 hdoomed)
  have hmem := List.mem_of_mem_take hb
  rw [List.mem_filter, mem_reorder] at hmem
  obtain rfl : b = a := List.inj_on_of_nodup_map σ.alerts.nodup hmem.1 ha hid
  have htest := hmem.2
  simp only [Bool.and_eq_true, beq_iff_eq, Bool.not_eq_true'] at htest
  exact ⟨htest.1.1, htest.2⟩

/-- An update leaves the node and the rule key of every alert alone. -/
theorem IsAlertOf.modify {t : AlertTable} {i j : ℕ} {nodeId ruleKey : String}
    (h : IsAlertOf t i nodeId ruleKey) {f : AlertRecord → AlertRecord}
    {hf : ∀ a, (f a).id = a.id} (hnode : ∀ a, (f a).nodeId = a.nodeId)
    (hkey : ∀ a, (f a).ruleKey = a.ruleKey) : IsAlertOf (t.modify j f hf) i nodeId ruleKey := by
  obtain ⟨a, ha, hn, hk⟩ := h
  by_cases hi : i = j
  · subst hi
    refine ⟨f a, ?_, (hnode a).trans hn, (hkey a).trans hk⟩
    rw [Table.get?_modify_self, ha, Option.map_some]
  · exact ⟨a, (Table.get?_modify_of_ne hi).trans ha, hn, hk⟩

/-- An alert is there after every call that does not prune it. -/
theorem IsAlertOf.alerts {i : ℕ} {nodeId ruleKey : String}
    (h : IsAlertOf σ.alerts i nodeId ruleKey)
    (hkept : ∀ cutoff batchSize, c = .pruneResolvedBefore cutoff batchSize →
      ∃ r ∈ σ.remediationActions.rows, r.alertId = i) :
    IsAlertOf (c.alerts scan σ) i nodeId ruleKey := by
  cases c with
  | createAlert =>
    obtain ⟨a, ha, hnode, hkey⟩ := h
    refine ⟨a, ?_, hnode, hkey⟩
    simp only [Call.alerts]
    exact Table.get?_insert_of_get? ha
  | updateLastFired | resolveAlert | acknowledgeAlert | escalateAlert | markRemediated =>
    simp only [Call.alerts]
    exact h.modify (fun _ => rfl) fun _ => rfl
  | pruneResolvedBefore cutoff batchSize =>
    obtain ⟨a, ha, hnode, hkey⟩ := h
    obtain ⟨r, hr, hid⟩ := hkept cutoff batchSize rfl
    refine ⟨a, ?_, hnode, hkey⟩
    have hreferenced : isReferenced σ a = true :=
      List.any_eq_true.2 ⟨r, hr, beq_iff_eq.2 (hid.trans (Table.key_of_get? ha).symm)⟩
    have hthere : a ∈ (AlertRepository.pruneResolvedBefore scan σ cutoff batchSize).2.alerts.rows := by
      by_contra hgone
      have hnot := (AlertRepository.of_pruned (Table.mem_of_get? ha) hgone).2
      exact Bool.false_ne_true (hnot.symm.trans hreferenced)
    exact Table.get?_eq_some_iff.2 ⟨hthere, Table.key_of_get? ha⟩
  | _ => exact h

/-! ## Programs whose calls are checked -/

/-- Around a call that `A` admits. -/
def CallStep (env : Environment) (A : Store → Call → Prop) (w w' : World) : Prop :=
  ∃ c, A w.store c ∧ w' = (handle env c w).2

/-- `A` admits every call that the program makes when it runs from `w`. -/
abbrev AllCalls {α : Type} (env : Environment) (A : Store → Call → Prop) (p : Repo α) (w : World) :
    Prop :=
  Runs (handle env) (CallStep env A) p w fun _ _ => True

section Rules

variable {env : Environment} {A : Store → Call → Prop} {w : World} {α β γ : Type}

theorem AllCalls.mono {A' : Store → Call → Prop} {p : Repo α} (hp : AllCalls env A p w)
    (hA : ∀ σ c, A σ c → A' σ c) : AllCalls env A' p w := by
  refine Runs.mono hp (fun w₁ w₂ h => ?_) fun _ _ _ => trivial
  obtain ⟨c, hc, rfl⟩ := h
  exact ⟨c, hA _ c hc, rfl⟩

/-- What the admitted calls keep, the program keeps. -/
theorem AllCalls.keeps {p : Repo α} (hp : AllCalls env A p w) (I : World → Prop)
    (hI : ∀ c w₁, A w₁.store c → I w₁ → I (handle env c w₁).2) (hw : I w) :
    Runs (handle env) (CallStep env A) p w fun _ w' => I w' := by
  induction p generalizing w with
  | pure a => exact hw
  | throw e => exact hw
  | call op k ih =>
    refine ⟨hp.1, ih _ hp.2 ?_⟩
    obtain ⟨c, hc, heq⟩ := hp.1
    exact heq ▸ hI c w hc hw

theorem allCalls_bind {p : Repo α} {f : α → Repo β} {Q : Except PyError α → World → Prop}
    (hp : Runs (handle env) (CallStep env A) p w Q)
    (hf : ∀ a w', Q (.ok a) w' → AllCalls env A (f a) w') : AllCalls env A (p >>= f) w :=
  hp.bind hf fun _ _ _ => trivial

theorem AllCalls.map {p : Repo α} (hp : AllCalls env A p w) (f : α → β) :
    AllCalls env A (f <$> p) w :=
  allCalls_bind hp fun _ _ _ => trivial

theorem allCalls_perform {c : Call} (hc : A w.store c) : AllCalls env A c.perform w :=
  Prog.runs_perform ⟨c, hc, rfl⟩ trivial

theorem allCalls_of_only {C : Call → Prop} {p : Repo α} (hp : Only C p)
    (hC : ∀ c σ, C c → A σ c) : AllCalls env A p w :=
  hp.runs_step (fun _ => True) (fun c _ hc _ => ⟨⟨c, hC c _ hc, rfl⟩, trivial⟩) trivial

end Rules

/-! ## The calls of an evaluation -/

/-- The key of some threshold or rate-of-change rule. -/
def IsRuleKey (ruleKey : String) : Prop :=
  ∃ kind metricType, kind ≠ RuleKind.staleness ∧ ruleKey = ruleKeyOf kind metricType

/-- What an evaluation of a node may ask of these tables. -/
def Call.IsEvaluationOf (nodeId : String) (σ : Store) : Call → Prop
  | .createAlert nodeId' ruleKey .. => nodeId' = nodeId ∧ IsRuleKey ruleKey
  | .updateLastFired alertId _ _ => ∃ k, IsRuleKey k ∧ IsAlertOf σ.alerts alertId nodeId k
  | .resolveAlert alertId _ => ∃ k, IsRuleKey k ∧ IsAlertOf σ.alerts alertId nodeId k
  | .escalateAlert alertId _ => ∃ k, IsRuleKey k ∧ IsAlertOf σ.alerts alertId nodeId k
  | .markRemediated alertId _ => ∃ k, IsRuleKey k ∧ IsAlertOf σ.alerts alertId nodeId k
  | .createAction nodeId' alertId ruleKey _ _ _ status reason _ =>
    nodeId' = nodeId ∧ IsAlertOf σ.alerts alertId nodeId ruleKey ∧
      status = RemediationEngine.statusFor reason
  | c => c.IsQuery

theorem Call.IsQuery.isEvaluationOf {c : Call} (hc : c.IsQuery) (nodeId : String) (σ : Store) :
    c.IsEvaluationOf nodeId σ := by
  cases c with
  | createAlert | updateLastFired | resolveAlert | escalateAlert | markRemediated | createAction =>
    exact hc.elim
  | _ => exact hc

section Evaluation

variable {env : Environment} {w : World} {nodeId ruleKey : String} {t : Datetime}
  {svc : AlertEvaluationService}

/-- An evaluation prunes no alert. -/
theorem IsAlertOf.handle {i : ℕ} {n k : String} (h : IsAlertOf w.store.alerts i n k)
    (hc : c.IsEvaluationOf nodeId w.store) : IsAlertOf (handle env c w).2.store.alerts i n k := by
  rcases handle_cases env c w with ⟨e, -, heq⟩ | ⟨-, heq⟩ <;> rw [heq]
  · exact h
  · rw [World.after_alerts]
    refine h.alerts fun cutoff batchSize hprune => ?_
    subst hprune
    exact hc.elim

/-- An alert stays there during an evaluation. -/
theorem AllCalls.alert_kept {α : Type} {p : Repo α}
    (hp : AllCalls env (Call.IsEvaluationOf nodeId) p w) {i : ℕ} {n k : String}
    (halert : IsAlertOf w.store.alerts i n k) :
    Runs (handle env) (CallStep env (Call.IsEvaluationOf nodeId)) p w
      fun _ w' => IsAlertOf w'.store.alerts i n k :=
  hp.keeps (fun w' => IsAlertOf w'.store.alerts i n k) (fun _ _ hc h => h.handle hc) halert

theorem allCalls_query {α : Type} {p : Repo α} (hp : Only Call.IsQuery p) :
    AllCalls env (Call.IsEvaluationOf nodeId) p w :=
  allCalls_of_only hp fun _ σ hc => hc.isEvaluationOf nodeId σ

/-- A write to an alert of the node, which answers with an id. -/
theorem runs_written (c : Call) (id : c.Res → ℕ) {i : ℕ} (hc : c.IsEvaluationOf nodeId w.store)
    (hid : ∀ scan r, (exec scan c w.store).1 = .ok r → id r = i)
    (halert : IsAlertOf w.store.alerts i nodeId ruleKey) :
    Runs (handle env) (CallStep env (Call.IsEvaluationOf nodeId)) c.perform w (Ends
      (fun r w' => id r = i ∧ IsAlertOf w'.store.alerts i nodeId ruleKey) fun _ _ => True) := by
  refine Prog.runs_perform ⟨c, hc, rfl⟩ ?_
  rcases hr : (ClusterPulse.handle env c w).1 with e | r
  · trivial
  · refine ⟨?_, halert.handle hc⟩
    rcases handle_cases env c w with ⟨e, -, heq⟩ | ⟨-, heq⟩ <;> rw [heq] at hr
    · cases hr
    · exact hid _ r hr

theorem RemediationEngine.allCalls_decide (e : RemediationEngine) {i : ℕ}
    (halert : IsAlertOf w.store.alerts i nodeId ruleKey) :
    AllCalls env (Call.IsEvaluationOf nodeId) (e.decide nodeId i ruleKey t) w := by
  unfold RemediationEngine.decide
  split_ifs
  swap
  · trivial
  cases e.byRuleKey? ruleKey with
  | none => trivial
  | some playbook =>
    have hlimits : Only Call.IsQuery (e.checkSafetyLimits nodeId playbook t) :=
      (e.only_checkSafetyLimits playbook).mono fun _ => Call.IsRead.query
    refine allCalls_bind ((allCalls_query hlimits).alert_kept halert) ?_
    intro reason w₁ halert₁
    have hcreate : Call.IsEvaluationOf nodeId w₁.store (.createAction nodeId i ruleKey
      playbook.playbookName playbook.actionType playbook.parameters
      (RemediationEngine.statusFor reason) reason t) := ⟨rfl, halert₁, rfl⟩
    exact (allCalls_perform hcreate).map _

namespace AlertEvaluationService

theorem allCalls_maybeRemediate (result : RuleEvaluationResult) (hkey : IsRuleKey result.ruleKey)
    {a : AlertRecord} (halert : IsAlertOf w.store.alerts a.id nodeId result.ruleKey) :
    AllCalls env (Call.IsEvaluationOf nodeId) (svc.maybeRemediate nodeId result t a) w := by
  unfold maybeRemediate
  rcases svc.shouldRemediate a t with e | due
  · trivial
  rw [lift_ok, pure_bind']
  rcases due, svc.remediationEngine with ⟨_ | _, _ | engine⟩
  · trivial
  · trivial
  · trivial
  · refine allCalls_bind ((engine.allCalls_decide halert).alert_kept halert) ?_
    intro decision w₁ halert₁
    cases decision with
    | none => trivial
    | some decision =>
      have hmark : Call.IsEvaluationOf nodeId w₁.store (.markRemediated a.id t) :=
        ⟨result.ruleKey, hkey, halert₁⟩
      exact (allCalls_perform hmark).map _

/-- Escalation returns the alert it was given. -/
theorem runs_maybeEscalate_guarded {a : AlertRecord} (hkey : IsRuleKey ruleKey)
    (halert : IsAlertOf w.store.alerts a.id nodeId ruleKey) :
    Runs (handle env) (CallStep env (Call.IsEvaluationOf nodeId)) (svc.maybeEscalate t a) w (Ends
      (fun a' w' => a'.id = a.id ∧ IsAlertOf w'.store.alerts a.id nodeId ruleKey)
      fun _ _ => True) := by
  unfold maybeEscalate
  rcases svc.shouldEscalate a t with e | due
  · trivial
  rw [lift_ok, pure_bind']
  cases due with
  | false => exact ⟨rfl, halert⟩
  | true =>
    have hid : ∀ scan r, (exec scan (.escalateAlert a.id t) w.store).1 = .ok r →
        AlertRecord.id r = a.id := fun _ _ => id_of_update
    refine (runs_written (.escalateAlert a.id t) AlertRecord.id ⟨ruleKey, hkey, halert⟩ hid
      halert).andThen ?_
    rintro a' w₁ ⟨hid', halert'⟩
    refine ((allCalls_query (svc.only_notify _)).alert_kept halert').bind ?_ fun _ _ _ => trivial
    exact fun _ w₂ halert₂ => ⟨hid', halert₂⟩

theorem allCalls_openOrAdvance (result : RuleEvaluationResult) (hkey : IsRuleKey result.ruleKey)
    {current : Option AlertRecord}
    (hcurrent : ∀ a ∈ current, IsAlertOf w.store.alerts a.id nodeId result.ruleKey) :
    AllCalls env (Call.IsEvaluationOf nodeId) (svc.openOrAdvance nodeId result t current) w := by
  cases current with
  | none =>
    have hcreate : Call.IsEvaluationOf nodeId w.store (.createAlert nodeId result.ruleKey
      result.ruleKind result.severity result.description result.value result.bound t) :=
      ⟨rfl, hkey⟩
    have hopen : AllCalls env (Call.IsEvaluationOf nodeId) (svc.openAlert nodeId result t) w :=
      allCalls_bind (allCalls_perform hcreate) fun record w₁ _ =>
        allCalls_bind (allCalls_query (svc.only_notify _)) fun _ _ _ => trivial
    exact hopen.map _
  | some a =>
    have halert := hcurrent a rfl
    have hid : ∀ scan r, (exec scan (.updateLastFired a.id result.value t) w.store).1 = .ok r →
        AlertRecord.id r = a.id := fun _ _ => id_of_update
    refine allCalls_bind (runs_written (.updateLastFired a.id result.value t) AlertRecord.id
      ⟨result.ruleKey, hkey, halert⟩ hid halert) ?_
    rintro a₁ w₁ ⟨hid₁, halert₁⟩
    refine allCalls_bind (runs_maybeEscalate_guarded hkey (hid₁.symm ▸ halert₁)) ?_
    rintro a₂ w₂ ⟨hid₂, halert₂⟩
    exact allCalls_maybeRemediate result hkey (hid₂.symm ▸ halert₂)

/-- What `find_open_alert` finds is an alert of the node and the rule key. -/
theorem runs_findOpenAlert (nodeId ruleKey : String) :
    Runs (handle env) (CallStep env (Call.IsEvaluationOf nodeId))
      (Call.findOpenAlert nodeId ruleKey).perform w (Ends
        (fun current w₁ => ∀ a ∈ (current : Option AlertRecord),
          IsAlertOf w₁.store.alerts a.id nodeId ruleKey) fun _ _ => True) := by
  refine Prog.runs_perform ⟨.findOpenAlert nodeId ruleKey, trivial, rfl⟩ ?_
  rcases handle_cases env (.findOpenAlert nodeId ruleKey) w with ⟨e, -, heq⟩ | ⟨-, heq⟩
  · rw [heq]
    trivial
  · rw [heq]
    intro a ha
    have hkey := isOpen_eq_true_iff.1 (List.find?_some ha)
    exact ⟨a, (live_of_findOpenAlert ha).get?, hkey.1, hkey.2.1⟩

theorem allCalls_apply (result : RuleEvaluationResult) (hkey : IsRuleKey result.ruleKey) :
    AllCalls env (Call.IsEvaluationOf nodeId) (svc.apply nodeId result t) w := by
  refine allCalls_bind (runs_findOpenAlert nodeId result.ruleKey) ?_
  intro current w₁ hcurrent
  split_ifs
  · exact (allCalls_openOrAdvance result hkey hcurrent).map _
  · cases current with
    | none => trivial
    | some a =>
      have hresolve : Call.IsEvaluationOf nodeId w₁.store (.resolveAlert a.id t) :=
        ⟨result.ruleKey, hkey, hcurrent a rfl⟩
      have hbody : AllCalls env (Call.IsEvaluationOf nodeId) (svc.resolve t a) w₁ :=
        allCalls_bind (allCalls_perform hresolve) fun record w₂ _ =>
          allCalls_bind (allCalls_query (svc.only_notify _)) fun _ _ _ => trivial
      exact hbody.map _

end AlertEvaluationService

/-- The results of an evaluation have the keys of configured rules. -/
theorem RuleEngine.runs_evaluate_keys (e : RuleEngine) (samples : List MetricSample) :
    Runs (handle env) (CallStep env (Call.IsEvaluationOf nodeId)) (e.evaluate nodeId samples t) w
      (Ends (fun results _ => ∀ r ∈ results, IsRuleKey r.ruleKey) fun _ _ => True) := by
  unfold RuleEngine.evaluate
  refine Runs.foldlM (fun results sample w' hresults => ?_) samples [] w (by simp)
  unfold RuleEngine.evaluateSample
  have hthreshold : ∀ r ∈ results ++ ((e.thresholdRule? sample.metricType).map
      (evaluateThreshold · sample)).toList, IsRuleKey r.ruleKey := by
    intro r hr
    rcases List.mem_append.1 hr with hr | hr
    · exact hresults r hr
    · obtain ⟨rule, -, rfl⟩ := Option.map_eq_some_iff.1 (Option.mem_toList.1 hr)
      exact ⟨.threshold, rule.metricType, nofun, rfl⟩
  split
  · exact hthreshold
  · rename_i rule _
    unfold RuleEngine.evaluateRateOfChange
    rw [bind_assoc]
    have hfind : Only Call.IsQuery (Call.findPreviousSample nodeId sample.metricType t
      rule.windowSeconds).perform := only_perform trivial
    refine (allCalls_query hfind).bind (fun previous w₁ _ => ?_) fun _ _ _ => trivial
    intro r hr
    rcases List.mem_append.1 hr with hr | hr
    · exact hthreshold r hr
    · obtain ⟨_, -, rfl⟩ := Option.map_eq_some_iff.1 (Option.mem_toList.1 hr)
      exact ⟨.rateOfChange, rule.metricType, nofun, rfl⟩

/-- Every call of an evaluation is one of the node. -/
theorem AlertEvaluationService.allCalls_evaluateAndApply (samples : List MetricSample) :
    AllCalls env (Call.IsEvaluationOf nodeId) (svc.evaluateAndApply nodeId samples t) w := by
  refine allCalls_bind (svc.ruleEngine.runs_evaluate_keys samples) fun results w₁ hresults => ?_
  have hresults : ∀ r ∈ results, IsRuleKey r.ruleKey := hresults
  unfold applyAll
  generalize (⟨[], []⟩ : EvaluationOutcome) = outcome
  induction results generalizing w₁ outcome with
  | nil => trivial
  | cons result results ih =>
    obtain ⟨hkey, hrest⟩ := List.forall_mem_cons.1 hresults
    rw [List.foldlM_cons]
    have hnext : AllCalls env (Call.IsEvaluationOf nodeId) (svc.applyNext nodeId t outcome result)
        w₁ := allCalls_bind (allCalls_apply result hkey) fun _ _ _ => trivial
    exact allCalls_bind hnext fun outcome' w₂ _ => ih w₂ hrest hrest outcome'

theorem MetricsIngestionService.allCalls_evaluateRulesBestEffort (payload : NodeMetricsPayload) :
    AllCalls env (Call.IsEvaluationOf payload.nodeId) (evaluateRulesBestEffort svc payload) w := by
  have hevaluate : AllCalls env (Call.IsEvaluationOf payload.nodeId) (svc.evaluateAndApply
      payload.nodeId payload.samples payload.collectedAt) w :=
    AlertEvaluationService.allCalls_evaluateAndApply payload.samples
  exact (hevaluate.map fun outcome => outcome.dispatchedActions.map pendingAction).tryCatch
    (fun _ _ _ => trivial) fun _ _ _ => trivial

end Evaluation

end ClusterPulse
