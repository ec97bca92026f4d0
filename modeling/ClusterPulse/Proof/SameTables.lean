import ClusterPulse.Lib.Coupling
import ClusterPulse.Proof.OperationCalls
import ClusterPulse.Proof.SingleFiring

/-!
# Runs from the same tables

Two worlds agree if they differ in the samples only, which some relation connects.  From worlds that
agree, an operation returns the same and leaves worlds that agree again, whatever the two scan
orders: at most one alert is open for a key, and of the rows that rank equal only the common value
matters.
-/

namespace ClusterPulse

open AlertRepository Prog

abbrev SampleTable : Type := Table MetricSampleModel MetricSampleModel.id

/-! ## Worlds that agree -/

/-- The tables agree, with samples related by `S`, the same messages have been sent and the same
decisions recorded; and no key has two open alerts. -/
structure Agree (S : SampleTable → SampleTable → Prop) (w w' : World) : Prop where
  nodes : w'.store.nodes = w.store.nodes
  alerts : w'.store.alerts = w.store.alerts
  actions : w'.store.remediationActions = w.store.remediationActions
  sent : w'.sent = w.sent
  recorded : w'.recorded = w.recorded
  samples : S w.store.metricSamples w'.store.metricSamples
  oneFiring : OneFiring w.store.alerts

/-- Some calls have been made that changed nothing. -/
def Untouched (w w' : World) : Prop := w' = { w with calls := w'.calls }

theorem Untouched.refl (w : World) : Untouched w w := rfl

theorem Untouched.trans {w w' w'' : World} (h : Untouched w w') (h' : Untouched w' w'') :
    Untouched w w'' := by
  unfold Untouched at *
  rw [h', h]

theorem Untouched.symm {w w' : World} (h : Untouched w w') : Untouched w' w := by
  unfold Untouched
  rw [h]

theorem Untouched.store {w w' : World} (h : Untouched w w') : w'.store = w.store := by
  rw [h]

theorem Agree.refl {S : SampleTable → SampleTable → Prop} {w : World}
    (hone : OneFiring w.store.alerts) (hS : S w.store.metricSamples w.store.metricSamples) :
    Agree S w w := ⟨rfl, rfl, rfl, rfl, rfl, hS, hone⟩

theorem Agree.mono {S S' : SampleTable → SampleTable → Prop} {w w' : World} (h : Agree S w w')
    (hS : S w.store.metricSamples w'.store.metricSamples →
      S' w.store.metricSamples w'.store.metricSamples) : Agree S' w w' :=
  ⟨h.nodes, h.alerts, h.actions, h.sent, h.recorded, hS h.samples, h.oneFiring⟩

theorem Agree.untouched {S : SampleTable → SampleTable → Prop} {w w' t t' : World}
    (h : Agree S w w') (ht : Untouched w t) (ht' : Untouched w' t') : Agree S t t' := by
  rw [ht, ht']
  exact ⟨h.nodes, h.alerts, h.actions, h.sent, h.recorded, h.samples, h.oneFiring⟩

/-! ## Calls -/

/-- The calls whose answers and effects the tables other than the samples determine. -/
def Call.IsDetermined : Call → Prop
  | .upsertSeen .. | .createAlert .. | .updateLastFired .. | .resolveAlert .. | .acknowledgeAlert ..
  | .escalateAlert .. | .markRemediated .. | .getAlert .. | .createAction .. | .markResult ..
  | .countRecentActions .. | .getAction .. | .notify .. => True
  | _ => False

/-- The determined calls that open no alert. -/
def Call.IsUpdate : Call → Prop
  | .createAlert .. => False
  | c => c.IsDetermined

theorem Call.IsUpdate.isDetermined {c : Call} (hc : c.IsUpdate) : c.IsDetermined := by
  cases c with
  | createAlert => exact hc.elim
  | _ => exact hc

theorem Call.IsUpdate.opensNew {c : Call} (hc : c.IsUpdate) (t : AlertTable) : c.OpensNew t := by
  cases c with
  | createAlert => exact hc.elim
  | _ => trivial

/-- What a determined call does, from tables that agree. -/
theorem exec_determined {c : Call} (hc : c.IsDetermined) {σ σ' : Store} (scan scan' : Scan)
    (hnodes : σ'.nodes = σ.nodes) (halerts : σ'.alerts = σ.alerts)
    (hactions : σ'.remediationActions = σ.remediationActions) :
    (exec scan' c σ').1 = (exec scan c σ).1 ∧
      (exec scan' c σ').2 = { (exec scan c σ).2 with metricSamples := σ'.metricSamples } ∧
      (exec scan c σ).2.metricSamples = σ.metricSamples := by
  obtain ⟨nodes, samples, alerts, actions⟩ := σ
  obtain ⟨nodes', samples', alerts', actions'⟩ := σ'
  dsimp only at hnodes halerts hactions
  subst hnodes halerts hactions
  cases c with
  | upsertSeen nodeId seenAt =>
    simp only [exec, NodeRepository.upsertSeen]
    split <;> exact ⟨rfl, rfl, rfl⟩
  | updateLastFired alertId | resolveAlert alertId | acknowledgeAlert alertId
  | escalateAlert alertId | markRemediated alertId =>
    simp only [exec, updateLastFired, resolveAlert, acknowledgeAlert, escalateAlert, markRemediated,
      update]
    cases alerts'.get? alertId <;> exact ⟨rfl, rfl, rfl⟩
  | markResult actionId =>
    simp only [exec, RemediationActionRepository.markResult]
    cases actions'.get? actionId <;> exact ⟨rfl, rfl, rfl⟩
  | createAlert | getAlert | createAction | countRecentActions | getAction | notify =>
    exact ⟨rfl, rfl, rfl⟩
  | _ => exact hc.elim

section Calls

variable {S : SampleTable → SampleTable → Prop} {env env' : Environment} {w w' : World}

/-- The program returns the same from both worlds, and leaves worlds that agree. -/
abbrev Same {α : Type} (S : SampleTable → SampleTable → Prop) (env env' : Environment) (p : Repo α)
    (w w' : World) : Prop :=
  Coupled (handle env) (handle env') (fun a b t t' => b = a ∧ Agree S t t') (Agree S) p p w w'

theorem Agree.handle (h : Agree S w w') (henv : env.Faultless) (henv' : env'.Faultless) {c : Call}
    (hc : c.IsDetermined) (hopens : c.OpensNew w.store.alerts) :
    Related (fun a b t t' => b = a ∧ Agree S t t') (Agree S) (ClusterPulse.handle env c w)
      (ClusterPulse.handle env' c w') := by
  obtain ⟨hanswer, hstore, hsamples⟩ := exec_determined hc (env.scan w.calls) (env'.scan w'.calls)
    h.nodes h.alerts h.actions
  have hagree : Agree S (w.after (env.scan w.calls) c) (w'.after (env'.scan w'.calls) c) := by
    refine ⟨(congrArg Store.nodes hstore).trans rfl, (congrArg Store.alerts hstore).trans rfl,
      (congrArg Store.remediationActions hstore).trans rfl, ?_, ?_, ?_, ?_⟩
    · rw [World.after_sent, World.after_sent, h.sent]
    · rw [World.after_recorded, World.after_recorded, h.recorded, h.actions]
    · show S (exec _ c w.store).2.metricSamples (exec _ c w'.store).2.metricSamples
      rw [hstore, hsamples]
      exact h.samples
    · rw [World.after_alerts]
      exact h.oneFiring.alerts hopens
  rw [handle_of_ok (henv _ _), handle_of_ok (henv' _ _), hanswer]
  cases (exec (env.scan w.calls) c w.store).1 with
  | ok r => exact .returned ⟨rfl, hagree⟩
  | error e => exact .raised e hagree

theorem same_lift {α : Type} (h : Agree S w w') (x : Except PyError α) :
    Same S env env' (lift x) w w' := by
  cases x with
  | ok a => exact .returned ⟨rfl, h⟩
  | error e => exact .raised e h

theorem same_pure {α : Type} (h : Agree S w w') (a : α) : Same S env env' (.pure a) w w' :=
  .returned ⟨rfl, h⟩

theorem Same.andThen {α β : Type} {p : Repo α} {f : α → Repo β} (hp : Same S env env' p w w')
    (hf : ∀ a t t', Agree S t t' → Same S env env' (f a) t t') :
    Same S env env' (p >>= f) w w' := by
  refine hp.bind ?_
  rintro a b t t' ⟨rfl, hagree⟩
  exact hf b t t' hagree

/-- A program that does the same from tables that agree keeps one alert open for a key. -/
theorem Same.oneFiring {α : Type} {p : Repo α} (hp : Same S env env' p w w') :
    OneFiring (p.run (ClusterPulse.handle env) w).2.store.alerts :=
  hp.states (R := fun t _ => OneFiring t.store.alerts) (fun _ _ _ _ hQ => hQ.2.oneFiring)
    fun _ _ hE => hE.oneFiring

/-- A program that makes updates only. -/
theorem same_of_only {α : Type} {p : Repo α} (hp : Only Call.IsUpdate p) (henv : env.Faultless)
    (henv' : env'.Faultless) (h : Agree S w w') : Same S env env' p w w' := by
  induction p generalizing w w' with
  | pure a => exact same_pure h a
  | throw e => exact .raised e h
  | call op k ih =>
    have hcall := h.handle henv henv' hp.1.isDetermined (hp.1.opensNew _)
    unfold Same Coupled
    rw [run_call, run_call]
    generalize ClusterPulse.handle env op w = x at hcall ⊢
    generalize ClusterPulse.handle env' op w' = x' at hcall ⊢
    cases hcall with
    | returned hQ =>
      obtain ⟨rfl, hagree⟩ := hQ
      exact ih _ (hp.2 _) hagree
    | raised e hagree => exact ih _ (hp.2 _) hagree

/-- A query leaves everything as it is. -/
theorem untouched_handle (env : Environment) {c : Call} (hc : c.IsRead) (w : World) :
    Untouched w (ClusterPulse.handle env c w).2 := by
  rcases handle_cases env c w with ⟨e, -, h⟩ | ⟨-, h⟩ <;> rw [h]
  · rfl
  · cases c with
    | findPreviousSample | findOpenAlert | findLastAction | countRecentActions =>
      unfold Untouched World.after
      simp only [exec, Call.message, Call.audit, Option.toList_none, List.append_nil]
    | _ => exact hc.elim

/-- A query that two worlds answer with `r` and `r'`. -/
theorem coupled_read {c : Call} (hc : c.IsRead) (henv : env.Faultless) (henv' : env'.Faultless)
    {Q : c.Res → c.Res → Prop} {r r' : c.Res}
    (hr : (exec (env.scan w.calls) c w.store).1 = .ok r)
    (hr' : (exec (env'.scan w'.calls) c w'.store).1 = .ok r') (hQ : Q r r') :
    Coupled (handle env) (handle env') (fun a b t t' => Q a b ∧ Untouched w t ∧ Untouched w' t')
      (fun t t' => Untouched w t ∧ Untouched w' t') c.perform c.perform w w' := by
  refine coupled_perform c c ?_
  have hw := untouched_handle env hc w
  have hw' := untouched_handle env' hc w'
  rw [handle_of_ok (henv _ _)] at hw ⊢
  rw [handle_of_ok (henv' _ _)] at hw' ⊢
  rw [hr, hr']
  exact .returned ⟨hQ, hw, hw'⟩

/-- A query that raises in both worlds. -/
theorem coupled_read_of_error {c : Call} (hc : c.IsRead) (henv : env.Faultless)
    (henv' : env'.Faultless) {Q : c.Res → c.Res → World → World → Prop} {e : PyError}
    (he : (exec (env.scan w.calls) c w.store).1 = .error e)
    (he' : (exec (env'.scan w'.calls) c w'.store).1 = .error e) :
    Coupled (handle env) (handle env') Q (fun t t' => Untouched w t ∧ Untouched w' t') c.perform
      c.perform w w' := by
  refine coupled_perform c c ?_
  have hw := untouched_handle env hc w
  have hw' := untouched_handle env' hc w'
  rw [handle_of_ok (henv _ _)] at hw ⊢
  rw [handle_of_ok (henv' _ _)] at hw' ⊢
  rw [he, he']
  exact .raised e ⟨hw, hw'⟩

/-- At most one alert is open for a key, so every scan finds it. -/
theorem findOpenAlert_eq {t : AlertTable} (h : OneFiring t) {σ : Store} (hσ : σ.alerts = t)
    (scan : Scan) (nodeId ruleKey : String) :
    findOpenAlert scan σ nodeId ruleKey = t.rows.find? (isOpen nodeId ruleKey) := by
  unfold findOpenAlert
  rw [hσ]
  refine find?_reorder fun a ha b hb hopen hopen' => ?_
  obtain ⟨hnode, hkey, hfiring⟩ := isOpen_eq_true_iff.1 hopen
  obtain ⟨hnode', hkey', hfiring'⟩ := isOpen_eq_true_iff.1 hopen'
  have hid := h a ha b hb hfiring hfiring' (hnode.trans hnode'.symm) (hkey.trans hkey'.symm)
  exact List.inj_on_of_nodup_map t.nodup ha hb hid

end Calls

/-! ## The audit log -/

/-- The last actions that two scans find have the same time. -/
theorem map_createdAt_findLastAction {σ σ' : Store}
    (hactions : σ'.remediationActions = σ.remediationActions) (scan scan' : Scan)
    (nodeId playbookName : String) :
    (RemediationActionRepository.findLastAction scan' σ' nodeId playbookName).map
        RemediationActionRecord.createdAt =
      (RemediationActionRepository.findLastAction scan σ nodeId playbookName).map
        RemediationActionRecord.createdAt := by
  unfold RemediationActionRepository.findLastAction
  rw [hactions]
  refine map_latest_eq (fun a ha => ⟨a, ?_, rfl⟩) fun a ha => ⟨a, ?_, rfl⟩
  · rwa [List.mem_filter, mem_reorder] at ha ⊢
  · rwa [List.mem_filter, mem_reorder] at ha ⊢

theorem RemediationEngine.elapsedSince_congr {now : Datetime}
    {last last' : Option RemediationActionRecord}
    (h : last'.map RemediationActionRecord.createdAt = last.map RemediationActionRecord.createdAt) :
    elapsedSince now last' = elapsedSince now last := by
  cases last with
  | none =>
    rw [Option.map_none, Option.map_eq_none_iff] at h
    rw [h]
  | some a =>
    obtain ⟨b, rfl, hb⟩ := Option.map_eq_some_iff.1 h
    simp only [elapsedSince, hb]

section Services

variable {S : SampleTable → SampleTable → Prop} {env env' : Environment} {w w' : World}
  {svc : AlertEvaluationService} {nodeId : String} {t : Datetime}

theorem RemediationEngine.same_checkRateLimit (henv : env.Faultless) (henv' : env'.Faultless)
    (h : Agree S w w') (e : RemediationEngine) :
    Same S env env' (e.checkRateLimit nodeId t) w w' := by
  unfold RemediationEngine.checkRateLimit
  refine (same_lift h _).andThen fun since w₁ w₁' h₁ => ?_
  have hcount : Only Call.IsUpdate (Call.countRecentActions nodeId since).perform :=
    only_perform trivial
  refine (same_of_only hcount henv henv' h₁).andThen fun count w₂ w₂' h₂ => ?_
  split_ifs
  · exact same_pure h₂ _
  · exact same_pure h₂ _

theorem RemediationEngine.same_checkSafetyLimits (henv : env.Faultless) (henv' : env'.Faultless)
    (h : Agree S w w') (e : RemediationEngine) (playbook : PlaybookDefinition) :
    Same S env env' (e.checkSafetyLimits nodeId playbook t) w w' := by
  unfold RemediationEngine.checkSafetyLimits
  have hlast := coupled_read (c := .findLastAction nodeId playbook.playbookName) trivial henv henv'
    (Q := fun r r' : Option RemediationActionRecord =>
      r'.map RemediationActionRecord.createdAt = r.map RemediationActionRecord.createdAt) rfl rfl
    (map_createdAt_findLastAction h.actions (env.scan w.calls) (env'.scan w'.calls) nodeId
      playbook.playbookName)
  refine (hlast.mono (fun _ _ _ _ hQ => hQ) fun _ _ hE => h.untouched hE.1 hE.2).bind ?_
  rintro last last' w₁ w₁' ⟨hcreated, hw₁, hw₁'⟩
  rw [RemediationEngine.elapsedSince_congr hcreated]
  refine (same_lift (h.untouched hw₁ hw₁') _).andThen fun elapsed w₂ w₂' h₂ => ?_
  cases elapsed with
  | none => exact e.same_checkRateLimit henv henv' h₂
  | some elapsed =>
    dsimp only
    split_ifs
    · exact same_pure h₂ _
    · exact e.same_checkRateLimit henv henv' h₂

theorem RemediationEngine.same_decide (henv : env.Faultless) (henv' : env'.Faultless)
    (h : Agree S w w') (e : RemediationEngine) (alertId : ℕ) (ruleKey : String) :
    Same S env env' (e.decide nodeId alertId ruleKey t) w w' := by
  unfold RemediationEngine.decide
  split_ifs
  swap
  · exact same_pure h _
  cases e.byRuleKey? ruleKey with
  | none => exact same_pure h _
  | some playbook =>
    refine (e.same_checkSafetyLimits henv henv' h playbook).andThen fun reason w₁ w₁' h₁ => ?_
    have hcreate : Only Call.IsUpdate (Call.createAction nodeId alertId ruleKey
        playbook.playbookName playbook.actionType playbook.parameters
        (RemediationEngine.statusFor reason) reason t).perform := only_perform trivial
    exact (same_of_only hcreate henv henv' h₁).andThen fun action w₂ w₂' h₂ => same_pure h₂ _

namespace AlertEvaluationService

theorem update_notify (m : Notification) : Only Call.IsUpdate (svc.notify m) := by
  unfold notify
  split_ifs
  · exact only_perform trivial
  · exact only_pure _

theorem update_maybeEscalate (a : AlertRecord) : Only Call.IsUpdate (svc.maybeEscalate t a) := by
  refine (only_lift _).bind fun due => ?_
  split_ifs
  · exact (only_perform trivial).bind fun _ => (update_notify _).bind fun _ => only_pure _
  · exact only_pure _

theorem update_resolve (a : AlertRecord) : Only Call.IsUpdate (svc.resolve t a) :=
  (only_perform trivial).bind fun _ => (update_notify _).bind fun _ => only_pure _

theorem update_markDecision (a : AlertRecord) (decision : Option RemediationActionRecord) :
    Only Call.IsUpdate (markDecision t a decision) := by
  cases decision with
  | none => exact only_pure _
  | some decision => exact (only_perform trivial).bind fun _ => only_pure _

theorem update_acknowledge (alertId : ℕ) (acknowledgedBy : String) (now : Instant) :
    Only Call.IsUpdate (acknowledge alertId acknowledgedBy now) := by
  have hget : Only Call.IsUpdate (getAlert alertId) := by
    refine (only_perform trivial).bind fun record => ?_
    cases record with
    | none => trivial
    | some a => exact only_pure _
  refine hget.bind fun current => ?_
  split_ifs
  · trivial
  · exact only_perform trivial

theorem same_maybeRemediate (henv : env.Faultless) (henv' : env'.Faultless) (h : Agree S w w')
    (result : RuleEvaluationResult) (a : AlertRecord) :
    Same S env env' (svc.maybeRemediate nodeId result t a) w w' := by
  unfold maybeRemediate
  refine (same_lift h _).andThen fun due w₁ w₁' h₁ => ?_
  rcases due, svc.remediationEngine with ⟨_ | _, _ | engine⟩
  · exact same_pure h₁ _
  · exact same_pure h₁ _
  · exact same_pure h₁ _
  · refine (engine.same_decide henv henv' h₁ a.id result.ruleKey).andThen ?_
    exact fun decision w₂ w₂' h₂ => same_of_only (update_markDecision a decision) henv henv' h₂

/-- An alert is opened where none is open. -/
theorem same_openAlert (henv : env.Faultless) (henv' : env'.Faultless) (h : Agree S w w')
    (result : RuleEvaluationResult) (hnone : NoneOpen w.store.alerts nodeId result.ruleKey) :
    Same S env env' (svc.openAlert nodeId result t) w w' := by
  have hcreate : Same S env env' (Call.createAlert nodeId result.ruleKey result.ruleKind
      result.severity result.description result.value result.bound t).perform w w' :=
    coupled_perform _ _ (h.handle henv henv' trivial hnone)
  refine hcreate.andThen fun record w₁ w₁' h₁ => ?_
  exact (same_of_only (update_notify _) henv henv' h₁).andThen fun _ w₂ w₂' h₂ => same_pure h₂ _

theorem same_openOrAdvance (henv : env.Faultless) (henv' : env'.Faultless) (h : Agree S w w')
    (result : RuleEvaluationResult) {current : Option AlertRecord}
    (hnone : current = none → NoneOpen w.store.alerts nodeId result.ruleKey) :
    Same S env env' (svc.openOrAdvance nodeId result t current) w w' := by
  cases current with
  | none =>
    exact (same_openAlert henv henv' h result (hnone rfl)).andThen fun _ _ _ h₁ => same_pure h₁ _
  | some a =>
    have hupdate : Only Call.IsUpdate (Call.updateLastFired a.id result.value t).perform :=
      only_perform trivial
    refine (same_of_only hupdate henv henv' h).andThen fun a₁ w₁ w₁' h₁ => ?_
    refine (same_of_only (update_maybeEscalate a₁) henv henv' h₁).andThen fun a₂ w₂ w₂' h₂ => ?_
    exact same_maybeRemediate henv henv' h₂ result a₂

/-- Both worlds find the alert that is open for the key. -/
theorem same_findOpenAlert (henv : env.Faultless) (henv' : env'.Faultless) (h : Agree S w w')
    (ruleKey : String) :
    Coupled (handle env) (handle env') (fun a b w₁ w₁' => b = a ∧ Agree S w₁ w₁' ∧
        a = w.store.alerts.rows.find? (isOpen nodeId ruleKey) ∧ Untouched w w₁) (Agree S)
      (Call.findOpenAlert nodeId ruleKey).perform (Call.findOpenAlert nodeId ruleKey).perform
      w w' := by
  have hfind := findOpenAlert_eq h.oneFiring rfl (env.scan w.calls) nodeId ruleKey
  have hfind' := findOpenAlert_eq h.oneFiring h.alerts (env'.scan w'.calls) nodeId ruleKey
  refine (coupled_read (c := .findOpenAlert nodeId ruleKey) trivial henv henv'
    (Q := fun a b : Option AlertRecord => b = a ∧
      a = w.store.alerts.rows.find? (isOpen nodeId ruleKey)) rfl rfl
    ⟨hfind'.trans hfind.symm, hfind⟩).mono ?_ fun _ _ hE => h.untouched hE.1 hE.2
  rintro a b w₁ w₁' ⟨⟨hba, ha⟩, hw₁, hw₁'⟩
  exact ⟨hba, h.untouched hw₁ hw₁', ha, hw₁⟩

theorem same_apply (henv : env.Faultless) (henv' : env'.Faultless) (h : Agree S w w')
    (result : RuleEvaluationResult) :
    Same S env env' (svc.apply nodeId result t) w w' := by
  refine (same_findOpenAlert henv henv' h result.ruleKey).bind ?_
  intro current current' w₁ w₁' hQ
  obtain ⟨hcurrent, h₁, hfind, hw₁⟩ := hQ
  rw [hcurrent]
  split_ifs
  · refine Same.andThen (same_openOrAdvance henv henv' h₁ result fun hnone a ha => ?_)
      fun _ _ _ h₂ => same_pure h₂ _
    rw [hnone] at hfind
    rw [hw₁.store] at ha
    exact Bool.eq_false_iff.2 (List.find?_eq_none.1 hfind.symm a ha)
  · cases current with
    | none => exact same_pure h₁ _
    | some a =>
      exact (same_of_only (update_resolve a) henv henv' h₁).andThen fun _ _ _ h₂ => same_pure h₂ _

theorem same_applyAll (henv : env.Faultless) (henv' : env'.Faultless) (h : Agree S w w')
    (results : List RuleEvaluationResult) :
    Same S env env' (svc.applyAll nodeId t results) w w' := by
  refine Coupled.foldlM (fun result outcome outcome' w₁ w₁' hQ => ?_) results _ _ w w' ⟨rfl, h⟩
  obtain ⟨rfl, h₁⟩ := hQ
  exact (same_apply henv henv' h₁ result).andThen fun _ _ _ h₂ => same_pure h₂ _

end AlertEvaluationService

end Services

/-! ## Samples -/

/-- A sample without its identity: what a rate-of-change rule looks at. -/
structure Reading where
  nodeId : String
  metricType : MetricType
  collectedAt : Instant
  value : Double

def MetricSampleModel.reading (s : MetricSampleModel) : Reading :=
  ⟨s.nodeId, s.metricType, s.collectedAt, s.value⟩

/-- The readings that a table holds, once or more often. -/
def readings (t : SampleTable) : Set Reading := {x | ∃ s ∈ t.rows, s.reading = x}

/-- The readings that a payload brings. -/
def NodeMetricsPayload.readings (p : NodeMetricsPayload) : Set Reading :=
  {x | ∃ s ∈ p.samples, x = ⟨p.nodeId, s.metricType, p.collectedAt.instant, s.value⟩}

/-- Each payload has at most one sample of a metric type, and different payloads of a node have
different times. -/
structure Distinct (payloads : Set NodeMetricsPayload) : Prop where
  single : ∀ p ∈ payloads, (p.samples.map MetricSample.metricType).Nodup
  eq_of_time : ∀ p ∈ payloads, ∀ q ∈ payloads, p.nodeId = q.nodeId →
    p.collectedAt.instant = q.collectedAt.instant → p = q

/-- Every sample comes from one of the payloads. -/
def Sourced (payloads : Set NodeMetricsPayload) (t : SampleTable) : Prop :=
  ∀ x ∈ readings t, ∃ p ∈ payloads, x ∈ p.readings

/-- The same readings, from the payloads. -/
structure SameReadings (payloads : Set NodeMetricsPayload) (t t' : SampleTable) : Prop where
  sourced : Sourced payloads t
  same : readings t' = readings t

section Samples

variable {payloads : Set NodeMetricsPayload} {t t' : SampleTable} {p : NodeMetricsPayload}

/-- The time tells the readings of a node and a metric type apart. -/
theorem Distinct.value_eq (h : Distinct payloads) (ht : Sourced payloads t) {x y : Reading}
    (hx : x ∈ readings t) (hy : y ∈ readings t) (hnode : x.nodeId = y.nodeId)
    (hmetric : x.metricType = y.metricType) (htime : x.collectedAt = y.collectedAt) :
    x.value = y.value := by
  obtain ⟨p, hp, s, hs, rfl⟩ := ht x hx
  obtain ⟨q, hq, s', hs', rfl⟩ := ht y hy
  obtain rfl := h.eq_of_time p hp q hq hnode htime
  obtain rfl := List.inj_on_of_nodup_map (h.single p hp) hs hs' hmetric
  rfl

theorem readings_insertSample (collectedAt : Datetime) (receivedAt : Instant) (nodeId : String)
    (sample : MetricSample) :
    readings (MetricsRepository.insertSample nodeId collectedAt receivedAt t sample) =
      readings t ∪ {⟨nodeId, sample.metricType, collectedAt.instant, sample.value⟩} := by
  ext x
  simp only [readings, MetricsRepository.insertSample, Table.mem_insert, Set.mem_ofPred_eq,
    Set.mem_union, Set.mem_singleton_iff]
  constructor
  · rintro ⟨s, hs | rfl, rfl⟩
    · exact .inl ⟨s, hs, rfl⟩
    · exact .inr rfl
  · rintro (⟨s, hs, rfl⟩ | rfl)
    · exact ⟨s, .inl hs, rfl⟩
    · exact ⟨_, .inr rfl, rfl⟩

theorem readings_bulkInsert (σ : Store) (p : NodeMetricsPayload) (receivedAt : Instant) :
    readings (MetricsRepository.bulkInsert σ p.nodeId p.samples p.collectedAt
      receivedAt).metricSamples = readings σ.metricSamples ∪ p.readings := by
  obtain ⟨nodeId, collectedAt, samples, errors⟩ := p
  show readings (samples.foldl _ σ.metricSamples) = _
  generalize σ.metricSamples = t
  induction samples generalizing t with
  | nil => simp [NodeMetricsPayload.readings]
  | cons s samples ih =>
    rw [List.foldl_cons, ih, readings_insertSample, Set.union_assoc]
    congr 1
    ext x
    simp [NodeMetricsPayload.readings]

theorem Sourced.bulkInsert {σ : Store} (h : Sourced payloads σ.metricSamples) (hp : p ∈ payloads)
    (receivedAt : Instant) : Sourced payloads (MetricsRepository.bulkInsert σ p.nodeId p.samples
      p.collectedAt receivedAt).metricSamples := by
  intro x hx
  rw [readings_bulkInsert] at hx
  exact hx.elim (h x) fun hx => ⟨p, hp, hx⟩

/-- The samples that a rate-of-change rule may be compared against. -/
def previousSamples (scan : Scan) (t : SampleTable) (nodeId : String) (metricType : MetricType)
    (before since : Instant) : List MetricSampleModel :=
  (reorder scan t.rows).filter fun s => s.nodeId == nodeId && s.metricType == metricType &&
    decide (s.collectedAt < before) && decide (since ≤ s.collectedAt)

theorem mem_previousSamples {scan : Scan} {nodeId : String} {metricType : MetricType}
    {before since : Instant} {s : MetricSampleModel} :
    s ∈ previousSamples scan t nodeId metricType before since ↔ s ∈ t.rows ∧
      (s.nodeId = nodeId ∧ s.metricType = metricType) ∧
        s.collectedAt < before ∧ since ≤ s.collectedAt := by
  simp [previousSamples, List.mem_filter, and_assoc]

theorem SameReadings.symm (h : SameReadings payloads t t') : SameReadings payloads t' t :=
  ⟨fun x hx => h.sourced x (h.same ▸ hx), h.same.symm⟩

theorem SameReadings.exists_previous (h : SameReadings payloads t t') {scan : Scan} (scan' : Scan)
    {nodeId : String} {metricType : MetricType} {before since : Instant} {s : MetricSampleModel}
    (hs : s ∈ previousSamples scan t nodeId metricType before since) :
    ∃ s' ∈ previousSamples scan' t' nodeId metricType before since, s'.reading = s.reading := by
  obtain ⟨hmem, htest⟩ := mem_previousSamples.1 hs
  have hx : s.reading ∈ readings t' := h.same.symm ▸ ⟨s, hmem, rfl⟩
  obtain ⟨s', hs', hreading⟩ := hx
  refine ⟨s', mem_previousSamples.2 ⟨hs', ?_⟩, hreading⟩
  simp only [MetricSampleModel.reading, Reading.mk.injEq] at hreading
  obtain ⟨hnode, hmetric, htime, -⟩ := hreading
  rw [hnode, hmetric, htime]
  exact htest

/-- The latest samples that two scans find have the same value. -/
theorem SameReadings.latest_value (h : SameReadings payloads t t') (hpayloads : Distinct payloads)
    (scan scan' : Scan) (nodeId : String) (metricType : MetricType) (before since : Instant) :
    (latest MetricSampleModel.collectedAt
        (previousSamples scan' t' nodeId metricType before since)).map MetricSampleModel.value =
      (latest MetricSampleModel.collectedAt
        (previousSamples scan t nodeId metricType before since)).map MetricSampleModel.value := by
  have htime : (latest MetricSampleModel.collectedAt
        (previousSamples scan' t' nodeId metricType before since)).map
          MetricSampleModel.collectedAt =
      (latest MetricSampleModel.collectedAt
        (previousSamples scan t nodeId metricType before since)).map
          MetricSampleModel.collectedAt := by
    refine map_latest_eq (fun s hs => ?_) fun s hs => ?_
    · obtain ⟨s', hs', hreading⟩ := h.symm.exists_previous scan hs
      exact ⟨s', hs', congrArg Reading.collectedAt hreading⟩
    · obtain ⟨s', hs', hreading⟩ := h.exists_previous scan' hs
      exact ⟨s', hs', congrArg Reading.collectedAt hreading⟩
  cases hlatest : latest MetricSampleModel.collectedAt
      (previousSamples scan t nodeId metricType before since) with
  | none =>
    rw [hlatest, Option.map_none, Option.map_eq_none_iff] at htime
    rw [htime, Option.map_none]
  | some s =>
    rw [hlatest] at htime
    obtain ⟨s', hlatest', htime'⟩ := Option.map_eq_some_iff.1 htime
    obtain ⟨hs, ⟨hnode, hmetric⟩, -⟩ := mem_previousSamples.1 (mem_of_latest hlatest)
    obtain ⟨hs', ⟨hnode', hmetric'⟩, -⟩ := mem_previousSamples.1 (mem_of_latest hlatest')
    have hx' : s'.reading ∈ readings t := h.same ▸ ⟨s', hs', rfl⟩
    rw [hlatest']
    exact congrArg some (hpayloads.value_eq h.sourced hx' ⟨s, hs, rfl⟩ (hnode'.trans hnode.symm)
      (hmetric'.trans hmetric.symm) htime')

theorem findPreviousSample_eq (scan : Scan) (σ : Store) (nodeId : String) (metricType : MetricType)
    (before : Datetime) (windowSeconds : Double) :
    MetricsRepository.findPreviousSample scan σ nodeId metricType before windowSeconds =
      (Timedelta.ofSeconds windowSeconds >>= before.minus).map fun since =>
        latest MetricSampleModel.collectedAt (previousSamples scan σ.metricSamples nodeId
          metricType before.instant since.instant) := by
  unfold MetricsRepository.findPreviousSample
  cases Timedelta.ofSeconds windowSeconds with
  | error e => rfl
  | ok window =>
    show (before.minus window >>= _) = (before.minus window).map _
    cases before.minus window with
    | error e => rfl
    | ok since => rfl

end Samples

/-! ## Evaluations and ingestions -/

/-- The same results, or the same exception, and nothing written. -/
abbrev SameAnswer {α : Type} (env env' : Environment) (p : Repo α) (w w' : World) : Prop :=
  Coupled (handle env) (handle env') (fun a b t t' => b = a ∧ Untouched w t ∧ Untouched w' t')
    (fun t t' => Untouched w t ∧ Untouched w' t') p p w w'

section Ingestion

variable {payloads : Set NodeMetricsPayload} {env env' : Environment} {w w' : World}
  {svc : AlertEvaluationService} {nodeId : String} {t : Datetime}

theorem sameAnswer_evaluateRateOfChange (henv : env.Faultless) (henv' : env'.Faultless)
    (hpayloads : Distinct payloads)
    (h : SameReadings payloads w.store.metricSamples w'.store.metricSamples)
    (rule : RateOfChangeRuleDefinition) (sample : MetricSample) :
    SameAnswer env env' (RuleEngine.evaluateRateOfChange nodeId rule sample t) w w' := by
  unfold RuleEngine.evaluateRateOfChange
  have hanswer := fun scan σ => findPreviousSample_eq scan σ nodeId sample.metricType t
    rule.windowSeconds
  cases hsince : Timedelta.ofSeconds rule.windowSeconds >>= t.minus with
  | error e =>
    simp only [hsince, Except.map] at hanswer
    exact (coupled_read_of_error (c := .findPreviousSample nodeId sample.metricType t
      rule.windowSeconds) trivial henv henv' (hanswer _ _) (hanswer _ _)).bind
        (Q := fun _ _ _ _ => False) fun _ _ _ _ hQ => hQ.elim
  | ok since =>
    simp only [hsince, Except.map] at hanswer
    refine (coupled_read (c := .findPreviousSample nodeId sample.metricType t rule.windowSeconds)
      trivial henv henv' (Q := fun a b : Option MetricSampleModel =>
        b.map MetricSampleModel.value = a.map MetricSampleModel.value) (hanswer _ _) (hanswer _ _)
      (h.latest_value hpayloads _ _ _ _ _ _)).bind ?_
    rintro previous previous' w₁ w₁' ⟨hvalue, hw₁, hw₁'⟩
    refine coupled_pure ⟨?_, hw₁, hw₁'⟩
    cases previous with
    | none =>
      rw [Option.map_none, Option.map_eq_none_iff] at hvalue
      rw [hvalue]
    | some s =>
      obtain ⟨s', rfl, hs'⟩ := Option.map_eq_some_iff.1 hvalue
      simp only [Option.map_some, RuleEngine.rateOfChangeResult, hs']

theorem sameAnswer_evaluate (henv : env.Faultless) (henv' : env'.Faultless)
    (hpayloads : Distinct payloads)
    (h : SameReadings payloads w.store.metricSamples w'.store.metricSamples) (e : RuleEngine)
    (samples : List MetricSample) :
    SameAnswer env env' (e.evaluate nodeId samples t) w w' := by
  unfold RuleEngine.evaluate
  refine Coupled.foldlM (fun sample results results' w₁ w₁' hQ => ?_) samples [] [] w w'
    ⟨rfl, .refl w, .refl w'⟩
  obtain ⟨rfl, hw₁, hw₁'⟩ := hQ
  unfold RuleEngine.evaluateSample
  split
  · exact coupled_pure ⟨rfl, hw₁, hw₁'⟩
  · rename_i rule _
    have h₁ : SameReadings payloads w₁.store.metricSamples w₁'.store.metricSamples := by
      rw [hw₁.store, hw₁'.store]
      exact h
    refine ((sameAnswer_evaluateRateOfChange henv henv' hpayloads h₁ rule sample).mono
      (fun _ _ _ _ hQ => hQ) fun _ _ hE => ⟨hw₁.trans hE.1, hw₁'.trans hE.2⟩).bind ?_
    rintro rate _ w₂ w₂' ⟨rfl, hw₂, hw₂'⟩
    exact coupled_pure ⟨rfl, hw₁.trans hw₂, hw₁'.trans hw₂'⟩

theorem same_evaluateAndApply (henv : env.Faultless) (henv' : env'.Faultless)
    (hpayloads : Distinct payloads) (h : Agree (SameReadings payloads) w w')
    (samples : List MetricSample) :
    Same (SameReadings payloads) env env' (svc.evaluateAndApply nodeId samples t) w w' := by
  refine ((sameAnswer_evaluate henv henv' hpayloads h.samples svc.ruleEngine samples).mono
    (fun _ _ _ _ hQ => hQ) fun _ _ hE => h.untouched hE.1 hE.2).bind ?_
  rintro _ results w₁ w₁' ⟨rfl, hw₁, hw₁'⟩
  exact AlertEvaluationService.same_applyAll henv henv' (h.untouched hw₁ hw₁') results

/-- Both worlds persist a payload. -/
theorem same_persist (henv : env.Faultless) (henv' : env'.Faultless)
    (h : Agree (SameReadings payloads) w w') {payload : NodeMetricsPayload}
    (hpayload : payload ∈ payloads) (receivedAt : Instant) :
    Same (SameReadings payloads) env env' (MetricsIngestionService.persist payload receivedAt)
      w w' := by
  unfold MetricsIngestionService.persist
  have hseen : Only Call.IsUpdate (Call.upsertSeen payload.nodeId payload.collectedAt).perform :=
    only_perform trivial
  refine (same_of_only hseen henv henv' h).andThen fun _ w₁ w₁' h₁ => ?_
  let c := Call.bulkInsert payload.nodeId payload.samples payload.collectedAt receivedAt
  refine coupled_perform c c ?_
  rw [handle_of_ok (henv _ _), handle_of_ok (henv' _ _)]
  refine .returned ⟨rfl, h₁.nodes, h₁.alerts, h₁.actions, ?_, ?_, ?_, h₁.oneFiring⟩
  · rw [World.after_sent, World.after_sent, h₁.sent]
  · rw [World.after_recorded, World.after_recorded, h₁.recorded]
    rfl
  · refine ⟨h₁.samples.sourced.bulkInsert hpayload receivedAt, ?_⟩
    have hbefore := readings_bulkInsert w₁.store payload receivedAt
    have hafter := readings_bulkInsert w₁'.store payload receivedAt
    rw [h₁.samples.same] at hafter
    exact hafter.trans hbefore.symm

theorem same_ingest (henv : env.Faultless) (henv' : env'.Faultless)
    (hpayloads : Distinct payloads) (h : Agree (SameReadings payloads) w w')
    {payload : NodeMetricsPayload} (hpayload : payload ∈ payloads) (receivedAt : Instant) :
    Same (SameReadings payloads) env env'
      (MetricsIngestionService.ingest svc payload receivedAt) w w' := by
  refine (same_persist henv henv' h hpayload receivedAt).andThen fun _ w₁ w₁' h₁ => ?_
  have hevaluate : Same (SameReadings payloads) env env'
      (MetricsIngestionService.evaluateRulesBestEffort svc payload) w₁ w₁' := by
    refine Coupled.tryCatch ?_ fun e _ _ hE => same_pure hE _
    exact (same_evaluateAndApply henv henv' hpayloads h₁ payload.samples).andThen
      fun _ _ _ h₂ => same_pure h₂ _
  exact hevaluate.andThen fun _ _ _ h₂ => same_pure h₂ _

end Ingestion

end ClusterPulse
