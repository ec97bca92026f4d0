import ClusterPulse.Lib.Failure
import ClusterPulse.Proof.Dispatched

/-!
# Dispatches that miss their acknowledgement

Ingestion swallows what the evaluation raises and then answers with no pending actions, although
each decision was committed on its own.  `acksDispatches_iff` says when an acknowledgement still
carries every row that was dispatched: if and only if no call fails after a dispatch.
-/

namespace ClusterPulse

open Prog

variable {env : Environment} {svc : AlertEvaluationService} {nodeId : String} {t : Datetime}
  {w : World}

/-! ## Evaluations handle no failure -/

theorem RuleEngine.propagates_evaluate (e : RuleEngine) (samples : List MetricSample) :
    (e.evaluate nodeId samples t).Propagates := by
  refine Propagates.foldlM (fun results sample => ?_) samples []
  unfold RuleEngine.evaluateSample
  split
  · exact propagates_pure _
  · unfold RuleEngine.evaluateRateOfChange
    rw [bind_assoc]
    exact (propagates_perform _).bind fun _ => propagates_pure _

theorem RemediationEngine.propagates_checkRateLimit (e : RemediationEngine) :
    (e.checkRateLimit nodeId t).Propagates := by
  refine (propagates_lift _).bind fun since => (propagates_perform _).bind fun count => ?_
  split_ifs
  · exact propagates_pure _
  · exact propagates_pure _

theorem RemediationEngine.propagates_decide (e : RemediationEngine) (i : ℕ) (ruleKey : String) :
    (e.decide nodeId i ruleKey t).Propagates := by
  unfold RemediationEngine.decide
  split_ifs
  swap
  · exact propagates_pure _
  rcases e.byRuleKey? ruleKey with _ | playbook
  · exact propagates_pure _
  have hlimits : (e.checkSafetyLimits nodeId playbook t).Propagates := by
    refine (propagates_perform _).bind fun last => (propagates_lift _).bind fun elapsed => ?_
    cases elapsed with
    | none => exact e.propagates_checkRateLimit
    | some elapsed =>
      dsimp only
      split_ifs
      · exact propagates_pure _
      · exact e.propagates_checkRateLimit
  exact hlimits.bind fun reason => (propagates_perform _).bind fun action => propagates_pure _

namespace AlertEvaluationService

theorem propagates_notify (m : Notification) : (svc.notify m).Propagates := by
  unfold notify
  split_ifs
  · exact propagates_perform _
  · exact propagates_pure _

theorem propagates_maybeEscalate (a : AlertRecord) : (svc.maybeEscalate t a).Propagates := by
  refine (propagates_lift _).bind fun due => ?_
  split_ifs
  · exact (propagates_perform _).bind fun _ => (propagates_notify _).bind fun _ => propagates_pure _
  · exact propagates_pure _

theorem propagates_maybeRemediate (result : RuleEvaluationResult) (a : AlertRecord) :
    (svc.maybeRemediate nodeId result t a).Propagates := by
  refine (propagates_lift _).bind fun due => ?_
  rcases due, svc.remediationEngine with ⟨_ | _, _ | engine⟩
  · exact propagates_pure _
  · exact propagates_pure _
  · exact propagates_pure _
  · refine (engine.propagates_decide a.id result.ruleKey).bind fun decision => ?_
    cases decision with
    | none => exact propagates_pure _
    | some decision => exact (propagates_perform _).bind fun _ => propagates_pure _

theorem propagates_apply (result : RuleEvaluationResult) :
    (svc.apply nodeId result t).Propagates := by
  refine (propagates_perform _).bind fun current => ?_
  split_ifs
  · have hopen : (svc.openOrAdvance nodeId result t current).Propagates := by
      cases current with
      | none =>
        exact ((propagates_perform _).bind fun _ => (propagates_notify _).bind fun _ =>
          propagates_pure _).bind fun _ => propagates_pure _
      | some a =>
        exact (propagates_perform _).bind fun a₁ => (propagates_maybeEscalate a₁).bind fun a₂ =>
          propagates_maybeRemediate result a₂
    exact hopen.bind fun _ => propagates_pure _
  · cases current with
    | none => exact propagates_pure _
    | some a =>
      exact ((propagates_perform _).bind fun _ => (propagates_notify _).bind fun _ =>
        propagates_pure _).bind fun _ => propagates_pure _

theorem propagates_evaluateAndApply (samples : List MetricSample) :
    (svc.evaluateAndApply nodeId samples t).Propagates :=
  (svc.ruleEngine.propagates_evaluate samples).bind fun results =>
    Propagates.foldlM (fun _ result => (propagates_apply result).bind fun _ => propagates_pure _)
      results _

end AlertEvaluationService

/-! ## Evaluations without failed calls -/

/-- The environment, with no failures. -/
def Environment.unfailing (env : Environment) : Environment := ⟨fun _ _ => none, env.scan⟩

theorem handle_unfailing {c : Call} (h : env.fault w.calls c = none) :
    handle env.unfailing c w = handle env c w := by
  rw [handle_of_ok h, handle_of_ok rfl]
  rfl

theorem returns_applyAll_of_timely (henv : env.Faultless) (ht : Timely t)
    (results : List RuleEvaluationResult) :
    Returns env (svc.applyAll nodeId t results) w fun _ _ => True := by
  have hstep : ∀ (outcome : EvaluationOutcome) (result : RuleEvaluationResult) (w₁ : World),
      True → Returns env (svc.applyNext nodeId t outcome result) w₁ fun _ _ => True :=
    fun outcome result w₁ _ => (returns_apply henv ht result).andThen fun _ _ _ => trivial
  exact Runs.foldlM hstep results ⟨[], []⟩ w trivial

/-- An evaluation in which no call fails and that still raises has dispatched nothing. -/
theorem dispatchedSince_of_error (svc : AlertEvaluationService) (nodeId : String)
    (samples : List MetricSample) (t : Datetime)
    (hnone : ∀ x ∈ (svc.evaluateAndApply nodeId samples t).trace (handle env) w,
      env.fault x.2.calls x.1 = none) {e : PyError} {w' : World}
    (hrun : (svc.evaluateAndApply nodeId samples t).run (handle env) w = (.error e, w')) :
    dispatchedSince w w' = [] := by
  have hspec := (dispatching_evaluateAndApply env svc nodeId samples t w).run
  rw [hrun] at hspec
  obtain ⟨xs, hxs⟩ := hspec
  rw [hxs.dispatchedSince]
  by_contra hne
  have ht : Timely t := hxs.timely hne
  have hcongr : (svc.evaluateAndApply nodeId samples t).run (handle env.unfailing) w =
      (.error e, w') := (run_congr fun x hx => handle_unfailing (hnone x hx)).trans hrun
  unfold AlertEvaluationService.evaluateAndApply at hcongr
  rw [run_bind] at hcongr
  have honly : Only Call.Unrecorded (svc.ruleEngine.evaluate nodeId samples t) :=
    svc.ruleEngine.only_evaluate (fun _ _ _ => rfl) samples
  have hevaluate := (runs_unrecorded env.unfailing honly w).run
  rcases hrules : (svc.ruleEngine.evaluate nodeId samples t).run (handle env.unfailing) w with
    ⟨e' | results, w₁⟩
  · -- the rules raised, before any decision
    rw [hrules] at hcongr hevaluate
    obtain ⟨-, rfl⟩ := Prod.mk.inj hcongr
    exact hne (hxs.dispatchedSince.symm.trans (dispatchedSince_of_recorded_eq hevaluate))
  · rw [hrules] at hcongr
    have happlies : Returns env.unfailing (svc.applyAll nodeId t results) w₁ fun _ _ => True :=
      returns_applyAll_of_timely (fun _ _ => rfl) ht results
    obtain ⟨outcome, w₂, happly, -⟩ := exists_run_of_returns happlies
    have herror : (Except.error e, w') = (Except.ok outcome, w₂) := hcongr.symm.trans happly
    cases herror

/-! ## Ingestion -/

/-- Every row dispatched during the call is carried by the acknowledgement that it returns. -/
def AcksDispatches (w : World) (end_ : Except PyError Ack × World) : Prop :=
  ∀ x ∈ dispatchedSince w end_.2, ∃ ack, end_.1 = .ok ack ∧
    MetricsIngestionService.pendingAction x ∈ ack.pendingActions

/-- No call of the program fails once a row has been dispatched. -/
def NoFailureAfterDispatch {α : Type} (env : Environment) (p : Repo α) (w : World) : Prop :=
  ∀ x ∈ p.trace (handle env) w, dispatchedSince w x.2 ≠ [] → env.fault x.2.calls x.1 = none

theorem MetricsIngestionService.trace_evaluateRulesBestEffort (payload : NodeMetricsPayload) :
    (evaluateRulesBestEffort svc payload).trace (handle env) w =
      (svc.evaluateAndApply payload.nodeId payload.samples payload.collectedAt).trace
        (handle env) w := by
  unfold evaluateRulesBestEffort
  rw [trace_tryCatch, trace_bind, run_bind]
  rcases (svc.evaluateAndApply payload.nodeId payload.samples payload.collectedAt).run (handle env)
    w with ⟨e | outcome, w'⟩
  · simp [trace]
  · simp [trace]

theorem acksDispatches_nil_iff {receivedAt : Instant} {w' : World} :
    AcksDispatches w (.ok { accepted := true, receivedAt, pendingActions := [] }, w') ↔
      dispatchedSince w w' = [] := by
  constructor
  · intro h
    refine List.eq_nil_iff_forall_not_mem.2 fun y hy => ?_
    obtain ⟨ack, hack, hmem⟩ := h y hy
    obtain rfl := Except.ok.inj hack
    cases hmem
  · intro hnil y hy
    change y ∈ dispatchedSince w w' at hy
    rw [hnil] at hy
    cases hy

/-- A call that fails ends the evaluation. -/
theorem AlertEvaluationService.run_of_fault {payload : NodeMetricsPayload}
    {x : Call × World} (hx : x ∈ (svc.evaluateAndApply payload.nodeId payload.samples
      payload.collectedAt).trace (handle env) w) {e : PyError}
    (he : env.fault x.2.calls x.1 = some e) :
    (svc.evaluateAndApply payload.nodeId payload.samples payload.collectedAt).run (handle env) w =
      (.error e, { x.2 with calls := x.2.calls + 1 }) :=
  (AlertEvaluationService.propagates_evaluateAndApply _).run_of_failed hx (handle_of_fault he)

/-- An evaluation that raised, at a call before any dispatch or at none. -/
theorem noFailureAfterDispatch_iff_of_error {payload : NodeMetricsPayload} {e : PyError}
    {w' : World} (hrun : (svc.evaluateAndApply payload.nodeId payload.samples
      payload.collectedAt).run (handle env) w = (.error e, w')) :
    NoFailureAfterDispatch env (svc.evaluateAndApply payload.nodeId payload.samples
      payload.collectedAt) w ↔ dispatchedSince w w' = [] := by
  have hend : ∀ x ∈ (svc.evaluateAndApply payload.nodeId payload.samples
      payload.collectedAt).trace (handle env) w, env.fault x.2.calls x.1 ≠ none →
      dispatchedSince w w' = dispatchedSince w x.2 := by
    intro x hx hfault
    obtain ⟨e', he'⟩ := Option.ne_none_iff_exists'.1 hfault
    have hstop := AlertEvaluationService.run_of_fault hx he'
    rw [hrun] at hstop
    rw [(Prod.mk.inj hstop).2]
    rfl
  constructor
  · intro h
    by_contra hne
    refine hne (dispatchedSince_of_error svc payload.nodeId payload.samples
      payload.collectedAt (fun x hx => ?_) hrun)
    by_contra hfault
    exact hfault (h x hx (hend x hx hfault ▸ hne))
  · intro hnil x hx hne
    by_contra hfault
    exact hne (hend x hx hfault ▸ hnil)

/-- The part of an ingestion after `persist`. -/
theorem acksDispatches_evaluate_iff (env : Environment) (svc : AlertEvaluationService)
    (payload : NodeMetricsPayload) (receivedAt : Instant) (w : World) :
    AcksDispatches w ((MetricsIngestionService.evaluateRulesBestEffort svc payload >>= fun
        pendingActions => Prog.pure { accepted := true, receivedAt, pendingActions }).run
          (handle env) w) ↔
      NoFailureAfterDispatch env (svc.evaluateAndApply payload.nodeId payload.samples
        payload.collectedAt) w := by
  rw [run_bind, MetricsIngestionService.run_evaluateRulesBestEffort]
  have hspec := (dispatching_evaluateAndApply env svc payload.nodeId payload.samples
    payload.collectedAt w).run
  rcases hrun : (svc.evaluateAndApply payload.nodeId payload.samples payload.collectedAt).run
    (handle env) w with ⟨e | outcome, w'⟩
  · rw [noFailureAfterDispatch_iff_of_error hrun]
    exact acksDispatches_nil_iff
  · show AcksDispatches w (.ok { accepted := true, receivedAt, pendingActions :=
      outcome.dispatchedActions.map MetricsIngestionService.pendingAction }, w') ↔ _
    rw [hrun] at hspec
    constructor
    · intro _ x hx _
      by_contra hfault
      obtain ⟨e', he'⟩ := Option.ne_none_iff_exists'.1 hfault
      cases hrun.symm.trans (AlertEvaluationService.run_of_fault hx he')
    · intro _ y hy
      have hdispatched : dispatchedSince w w' = outcome.dispatchedActions := hspec.dispatchedSince
      rw [hdispatched] at hy
      exact ⟨_, rfl, List.mem_map_of_mem hy⟩

/-- An acknowledgement carries all that was dispatched, unless a call fails after a dispatch. -/
theorem acksDispatches_iff (env : Environment) (svc : AlertEvaluationService)
    (payload : NodeMetricsPayload) (receivedAt : Instant) (w : World) :
    AcksDispatches w ((MetricsIngestionService.ingest svc payload receivedAt).run (handle env) w) ↔
      NoFailureAfterDispatch env (MetricsIngestionService.ingest svc payload receivedAt) w := by
  have hpersist : Only Call.Unrecorded (MetricsIngestionService.persist payload receivedAt) :=
    (MetricsIngestionService.routine_persist payload receivedAt).mono
      fun _ => Call.IsRoutine.unrecorded
  have hrecorded := (runs_unrecorded env hpersist w).run
  have htrace : ∀ x ∈ (MetricsIngestionService.persist payload receivedAt).trace (handle env) w,
      dispatchedSince w x.2 = [] := fun x hx =>
    dispatchedSince_of_recorded_eq (hpersist.trace (fun w' : World => w'.recorded = w.recorded)
      (fun _ w' hc hw' => (hc.recorded w').trans hw') rfl x hx)
  unfold NoFailureAfterDispatch MetricsIngestionService.ingest
  rw [trace_bind, run_bind]
  rcases hrun : (MetricsIngestionService.persist payload receivedAt).run (handle env) w with
    ⟨e | u, w₁⟩
  · -- no row and no acknowledgement
    rw [hrun] at hrecorded
    have hnil : dispatchedSince w w₁ = [] := dispatchedSince_of_recorded_eq hrecorded
    show AcksDispatches w (.error e, w₁) ↔ _
    refine iff_of_true (fun y hy => ?_) fun x hx hne => ?_
    · rw [hnil] at hy
      cases hy
    · rw [List.append_nil] at hx
      exact absurd (htrace x hx) hne
  · rw [hrun] at hrecorded
    have hsince : ∀ w', dispatchedSince w w' = dispatchedSince w₁ w' := fun w' =>
      dispatchedSince_congr hrecorded.symm rfl
    have hiff := acksDispatches_evaluate_iff env svc payload receivedAt w₁
    unfold AcksDispatches NoFailureAfterDispatch at hiff
    unfold AcksDispatches
    simp only [hsince] at htrace ⊢
    refine hiff.trans ?_
    have hrest : (MetricsIngestionService.evaluateRulesBestEffort svc payload >>= fun
        pendingActions => Prog.pure
          ({ accepted := true, receivedAt, pendingActions } : Ack)).trace (handle env) w₁ =
        (svc.evaluateAndApply payload.nodeId payload.samples payload.collectedAt).trace
          (handle env) w₁ := by
      rw [trace_bind, MetricsIngestionService.trace_evaluateRulesBestEffort]
      rcases (MetricsIngestionService.evaluateRulesBestEffort svc payload).run (handle env) w₁ with
        ⟨e | pendingActions, w₂⟩
      · exact List.append_nil _
      · exact List.append_nil _
    constructor
    · intro h x hx hne
      rcases List.mem_append.1 hx with hx | hx
      · exact absurd (htrace x hx) hne
      · exact h x (hrest ▸ hx) hne
    · intro h x hx hne
      refine h x (List.mem_append_right _ ?_) hne
      exact hrest.symm ▸ hx

namespace Scenario

/-- Two samples of the same metric type, so two results. -/
def twoResults : NodeMetricsPayload :=
  { payload 2000 97 with
    samples := [⟨.cpuUsagePercent, 97, "percent", []⟩, ⟨.cpuUsagePercent, 98, "percent", []⟩] }

/-- The lookup for the second result fails, after the first has dispatched an action. -/
def failsSecond : Environment where
  fault n _ := if n = 17 then some (.persistenceError "failed to look up open alert") else none
  scan _ i := i

theorem not_acksDispatches :
    ¬ ∀ (env : Environment) (svc : AlertEvaluationService) (payload : NodeMetricsPayload)
      (receivedAt : Instant) (w : World), AcksDispatches w
        ((MetricsIngestionService.ingest svc payload receivedAt).run (handle env) w) := by
  intro h
  have hacks := h failsSecond service twoResults (clock 2000).instant dueWorld
  have hdispatched : dispatchedSince dueWorld ((MetricsIngestionService.ingest service twoResults
      (clock 2000).instant).run (handle failsSecond) dueWorld).2 ≠ [] := by
    decide +kernel
  have hack : ((MetricsIngestionService.ingest service twoResults (clock 2000).instant).run
      (handle failsSecond) dueWorld).1.map Ack.pendingActions = .ok [] := by
    decide +kernel
  obtain ⟨x, hx⟩ := List.exists_mem_of_ne_nil _ hdispatched
  obtain ⟨ack, hok, hmem⟩ := hacks x hx
  rw [hok] at hack
  rw [Except.ok.inj hack] at hmem
  cases hmem

end Scenario

end ClusterPulse
