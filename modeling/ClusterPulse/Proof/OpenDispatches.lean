import ClusterPulse.Proof.AckDispatches
import ClusterPulse.Proof.Ingested

/-!
# The open dispatches of a node

`DispatchedWithin nodeId ids` bounds the actions of a node that wait for a result.  Where no call fails, a
payload of the node adds what its acknowledgement carries (`runs_respond_dispatched`), the report of a
result takes its action away (`runs_respond_settled`), and tasks that are not the node's add nothing
(`dispatchedWithin_runAll`).
-/

namespace ClusterPulse

open Prog

/-- The dispatched actions of the node are among these. -/
def DispatchedWithin (nodeId : String) (ids : List ℕ) (σ : Store) : Prop :=
  ∀ row ∈ σ.remediationActions.rows, row.nodeId = nodeId → row.status = .dispatched → row.id ∈ ids

section Store

variable {nodeId : String} {ids ids' : List ℕ} {σ : Store} {c : Call} {scan : Scan} {actionId : ℕ}

theorem DispatchedWithin.mono (h : DispatchedWithin nodeId ids σ) (hids : ∀ i ∈ ids, i ∈ ids') :
    DispatchedWithin nodeId ids' σ := fun row hrow hnode hstatus =>
  hids _ (h row hrow hnode hstatus)

/-- An action that is not dispatched need not be counted. -/
theorem DispatchedWithin.of_cons (h : DispatchedWithin nodeId (actionId :: ids) σ)
    (hclosed : ∀ row, σ.remediationActions.get? actionId = some row → row.status ≠ .dispatched) :
    DispatchedWithin nodeId ids σ := by
  intro row hrow hnode hstatus
  obtain rfl | hmem := List.mem_cons.1 (h row hrow hnode hstatus)
  · exact absurd hstatus (hclosed row (Table.get?_of_mem hrow))
  · exact hmem

/-- The call makes an action a dispatched one again. -/
def Call.Reopens : Call → Prop
  | .markResult _ status _ _ => status = .dispatched
  | _ => False

/-- A call adds the actions that it dispatches. -/
theorem dispatchedWithin_exec (hc : ¬ c.Reopens)
    (hnew : ∀ x, c.audit σ.remediationActions.next = some x → x.nodeId = nodeId →
      x.status = .dispatched → x.id ∈ ids)
    (h : DispatchedWithin nodeId ids σ) : DispatchedWithin nodeId ids (exec scan c σ).2 := by
  intro row hrow hnode hstatus
  rw [exec_actions] at hrow
  cases c with
  | createAction =>
    rw [Call.actions, Table.mem_insert] at hrow
    obtain hrow | rfl := hrow
    · exact h row hrow hnode hstatus
    · exact hnew _ rfl hnode hstatus
  | markResult actionId status reason completedAt =>
    rw [Call.actions, Table.mem_modify] at hrow
    obtain ⟨before, hbefore, rfl⟩ := hrow
    split_ifs at hnode hstatus ⊢
    · exact absurd hstatus hc
    · exact h before hbefore hnode hstatus
  | pruneTerminalBefore => exact h row (Table.mem_delete.1 hrow).1 hnode hstatus
  | _ => exact h row hrow hnode hstatus

end Store

/-! ## Tasks that are not the node's -/

/-- The call dispatches nothing for the node. -/
def Call.DispatchesElsewhere (nodeId : String) (c : Call) : Prop :=
  ¬ c.Reopens ∧ ∀ id x, c.audit id = some x → x.nodeId ≠ nodeId

/-- The payloads of the node come from its Agent, which is nobody else. -/
def CollectorTask.DispatchesElsewhere (nodeId : String) : CollectorTask → Prop
  | .request (.receiveMetrics payload) _ _ => payload.nodeId ≠ nodeId
  | .job (.evaluateAndApply _ nodeId' _ _) => nodeId' ≠ nodeId
  | .job (.ingest _ payload _) => payload.nodeId ≠ nodeId
  | _ => True

section Elsewhere

variable {nodeId : String} {ids : List ℕ} {w : World} {c : Call}

theorem allKeep_dispatchedWithin (nodeId : String) (ids : List ℕ) :
    Call.AllKeep (Call.DispatchesElsewhere nodeId) (DispatchedWithin nodeId ids) :=
  fun _ _ _ hc h => dispatchedWithin_exec hc.1 (fun x hx hnode => absurd hnode (hc.2 _ x hx)) h

theorem Call.dispatchesElsewhere_of_unrecorded (hreopens : ¬ c.Reopens) (hc : c.Unrecorded) :
    c.DispatchesElsewhere nodeId := by
  refine ⟨hreopens, fun id x hx => ?_⟩
  rw [hc id] at hx
  cases hx

theorem Call.IsRoutine.not_reopens (hc : c.IsRoutine) : ¬ c.Reopens := by
  cases c with
  | markResult => exact hc.elim
  | _ => exact id

theorem Call.IsEvaluation.not_reopens {t : Datetime} (hc : c.IsEvaluation nodeId t) :
    ¬ c.Reopens := by
  cases c with
  | markResult => exact hc.elim
  | _ => exact id

theorem Call.IsEvaluation.elsewhere {nodeId' : String} {t : Datetime}
    (hc : c.IsEvaluation nodeId' t) (hne : nodeId' ≠ nodeId) : c.DispatchesElsewhere nodeId := by
  refine ⟨hc.not_reopens, fun id x hx => ?_⟩
  cases c with
  | createAction =>
    obtain rfl := Option.some.inj hx
    obtain ⟨rfl, -⟩ := hc
    exact hne
  | _ => cases hx

theorem Call.elsewhere_markResult (actionId : ℕ) (status : ActionResultStatus)
    (reason : Option String) (completedAt : Instant) :
    (Call.markResult actionId (RemediationActionService.actionStatus status) reason
      completedAt).DispatchesElsewhere nodeId := by
  refine dispatchesElsewhere_of_unrecorded (fun hreopens => ?_) fun _ => rfl
  cases status <;> cases hreopens

theorem ApiRequest.Makes.elsewhere {request : ApiRequest}
    (hrequest : ∀ payload, request = .receiveMetrics payload → payload.nodeId ≠ nodeId)
    (hc : request.Makes (.repo c)) : c.DispatchesElsewhere nodeId := by
  cases request with
  | receiveMetrics payload => exact Call.IsEvaluation.elsewhere hc (hrequest payload rfl)
  | receiveHeartbeat | listNodes | getAlert | getRemediationAction =>
    obtain rfl := hc
    exact Call.dispatchesElsewhere_of_unrecorded id fun _ => rfl
  | acknowledgeAlert =>
    obtain rfl | ⟨now, rfl⟩ := hc
    · exact Call.dispatchesElsewhere_of_unrecorded id fun _ => rfl
    · exact Call.dispatchesElsewhere_of_unrecorded id fun _ => rfl
  | reportRemediationActionResult =>
    obtain rfl | ⟨now, rfl⟩ := hc
    · exact Call.dispatchesElsewhere_of_unrecorded id fun _ => rfl
    · exact Call.elsewhere_markResult ..
  | getNode | listAlerts | listRemediationActions | healthz => cases hc

theorem CollectorTask.Makes.elsewhere {task : CollectorTask} (htask : task.DispatchesElsewhere nodeId)
    (hc : task.Makes (.repo c)) : c.DispatchesElsewhere nodeId := by
  cases task with
  | request request credentials now =>
    refine ApiRequest.Makes.elsewhere (fun payload heq => ?_) hc
    subst heq
    exact htask
  | job op =>
    cases op with
    | evaluateAndApply svc nodeId' samples t => exact Call.IsEvaluation.elsewhere hc htask
    | ingest svc payload receivedAt => exact Call.IsEvaluation.elsewhere hc htask
    | acknowledge =>
      obtain rfl | rfl := hc
      · exact Call.dispatchesElsewhere_of_unrecorded id fun _ => rfl
      · exact Call.dispatchesElsewhere_of_unrecorded id fun _ => rfl
    | reportResult =>
      obtain rfl | rfl := hc
      · exact Call.dispatchesElsewhere_of_unrecorded id fun _ => rfl
      · exact Call.elsewhere_markResult ..
    | reconciliation =>
      obtain ⟨cutoff, rfl⟩ | ⟨actionId, rfl⟩ := hc
      · exact Call.dispatchesElsewhere_of_unrecorded id fun _ => rfl
      · exact Call.elsewhere_markResult actionId .failed _ _
    | retention =>
      obtain ⟨cutoff, batchSize, rfl⟩ | ⟨cutoff, batchSize, rfl⟩ | ⟨cutoff, batchSize, rfl⟩ := hc
      · exact Call.dispatchesElsewhere_of_unrecorded id fun _ => rfl
      · exact Call.dispatchesElsewhere_of_unrecorded id fun _ => rfl
      · exact Call.dispatchesElsewhere_of_unrecorded id fun _ => rfl
    | staleness =>
      obtain rfl | hc := hc
      · exact Call.dispatchesElsewhere_of_unrecorded id fun _ => rfl
      · exact Call.dispatchesElsewhere_of_unrecorded hc.not_reopens hc.unrecorded

theorem dispatchedWithin_runAll (app : App) (env : ApiEnvironment) {tasks : List CollectorTask}
    (htasks : ∀ task ∈ tasks, task.DispatchesElsewhere nodeId)
    (h : DispatchedWithin nodeId ids w.store) :
    DispatchedWithin nodeId ids (CollectorTask.runAll app env tasks w).store :=
  kept_runAll (allKeep_dispatchedWithin nodeId ids) app env
    (fun task htask _ hc => CollectorTask.Makes.elsewhere (htasks task htask) hc) h

end Elsewhere

/-! ## A payload of the node -/

section Ingestion

variable {nodeId : String} {ids : List ℕ} {env : Environment} {w w' : World} {c : Call}
  {p : NodeMetricsPayload} {receivedAt : Instant}

/-- Since `w`, the node's dispatched actions are those that the audit log has as new, and `ids`. -/
def DispatchedSince (nodeId : String) (ids : List ℕ) (w w' : World) : Prop :=
  w.recorded <+: w'.recorded ∧
    DispatchedWithin nodeId (ids ++ (dispatchedSince w w').map RemediationActionRecord.id) w'.store

theorem dispatchedSince_handle (hc : ¬ c.Reopens) (h : DispatchedSince nodeId ids w w') :
    DispatchedSince nodeId ids w (handle env c w').2 := by
  obtain ⟨e, -, heq⟩ | ⟨-, heq⟩ := handle_cases env c w'
  · rw [heq]
    exact h
  · obtain ⟨⟨since, hsince⟩, hwithin⟩ := h
    have hrecorded : (w'.after (env.scan w'.calls) c).recorded =
        w.recorded ++ (since ++ (c.audit w'.store.remediationActions.next).toList) := by
      rw [World.after_recorded, ← hsince, List.append_assoc]
    have hadded : ∀ w₁ : World, ∀ l, w₁.recorded = w.recorded ++ l →
        dispatchedSince w w₁ = l.filter RemediationActionRecord.isDispatched := by
      intro w₁ l hl
      unfold dispatchedSince
      rw [hl, List.drop_left]
    rw [heq]
    refine ⟨⟨_, hrecorded.symm⟩, ?_⟩
    rw [hadded w' since hsince.symm] at hwithin
    rw [hadded _ _ hrecorded]
    refine dispatchedWithin_exec hc (fun x hx hnode hstatus => ?_) (hwithin.mono fun i hi => ?_)
    · apply List.mem_append_right
      apply List.mem_map_of_mem
      simp [hx, RemediationActionRecord.isDispatched, hstatus]
    · simp only [List.filter_append, List.map_append, List.mem_append] at hi ⊢
      tauto

/-- An acknowledgement carries what the evaluation has dispatched. -/
theorem runs_evaluate_dispatched (henv : env.Faultless) (svc : AlertEvaluationService)
    (h : DispatchedWithin p.nodeId ids w.store) :
    Runs (handle env) (fun _ _ => True)
      (MetricsIngestionService.evaluateRulesBestEffort svc p >>= fun pendingActions =>
        Prog.pure ({ accepted := true, receivedAt, pendingActions } : Ack)) w fun r w' =>
      ∃ ack, r = .ok ack ∧ DispatchedWithin p.nodeId
        (ids ++ ack.pendingActions.map PendingAction.actionId) w'.store := by
  have hstart : DispatchedSince p.nodeId ids w w := by
    refine ⟨List.prefix_refl _, ?_⟩
    rw [dispatchedSince_of_recorded_eq rfl]
    simpa using h
  have hevaluate : Runs (handle env) (fun _ _ => True)
      (MetricsIngestionService.evaluateRulesBestEffort svc p) w
      (Ends (fun _ w' => DispatchedSince p.nodeId ids w w') fun _ _ => False) := by
    have hkeep : Keeps (handle env) (DispatchedSince p.nodeId ids w)
        (svc.evaluateAndApply p.nodeId p.samples p.collectedAt) w :=
      (svc.only_evaluateAndApply p.samples).runs _ (fun _ _ hc h =>
        dispatchedSince_handle hc.isEvaluation.not_reopens h) hstart
    exact Runs.tryCatch (Keeps.bind hkeep fun _ _ h => h) (fun _ _ h => h) fun _ _ h => h
  have hack : Runs (handle env) (fun _ _ => True)
      (MetricsIngestionService.evaluateRulesBestEffort svc p >>= fun pendingActions =>
        Prog.pure ({ accepted := true, receivedAt, pendingActions } : Ack)) w
      (Ends (fun _ w' => DispatchedSince p.nodeId ids w w') fun _ _ => False) :=
    hevaluate.andThen fun _ _ h => h
  have hcarried : Runs (handle env) (fun _ _ => True)
      (MetricsIngestionService.evaluateRulesBestEffort svc p >>= fun pendingActions =>
        Prog.pure ({ accepted := true, receivedAt, pendingActions } : Ack)) w
      fun r w' => AcksDispatches w (r, w') :=
    runs_of_run ((acksDispatches_evaluate_iff env svc p receivedAt w).2 fun _ _ _ => henv _ _)
  refine (hack.and hcarried).post fun r w' hr => ?_
  cases r with
  | error e => exact hr.1.elim
  | ok ack =>
    obtain ⟨⟨-, hwithin⟩, hcarried⟩ := hr
    refine ⟨ack, rfl, hwithin.mono fun i hi => ?_⟩
    rw [List.mem_append] at hi ⊢
    refine hi.imp_right fun hi => ?_
    obtain ⟨x, hx, rfl⟩ := List.mem_map.1 hi
    obtain ⟨ack', hack', hmem⟩ := hcarried x hx
    obtain rfl := Except.ok.inj hack'
    exact List.mem_map.2 ⟨_, hmem, rfl⟩

theorem runs_ingest_dispatched (henv : env.Faultless) (svc : AlertEvaluationService)
    (h : DispatchedWithin p.nodeId ids w.store) :
    Runs (handle env) (fun _ _ => True) (MetricsIngestionService.ingest svc p receivedAt) w
      fun r w' => ∃ ack, r = .ok ack ∧ DispatchedWithin p.nodeId
        (ids ++ ack.pendingActions.map PendingAction.actionId) w'.store := by
  have hpersist : Runs (handle env) (fun _ _ => True)
      (MetricsIngestionService.persist p receivedAt) w
      (Ends (fun _ w' => DispatchedWithin p.nodeId ids w'.store) fun _ _ => False) := by
    have hkeep : Keeps (handle env) (fun w => DispatchedWithin p.nodeId ids w.store)
        (MetricsIngestionService.persist p receivedAt) w :=
      (MetricsIngestionService.routine_persist p receivedAt).runs _ (fun _ _ hc h =>
        kept_handle (allKeep_dispatchedWithin p.nodeId ids)
          (Call.dispatchesElsewhere_of_unrecorded hc.not_reopens hc.unrecorded) h) h
    have hreturns : Runs (handle env) (fun _ _ => True)
        (MetricsIngestionService.persist p receivedAt) w
        (Ends (fun _ _ => True) fun e _ => ∃ n c, env.fault n c = some e) :=
      (runs_faulty (P := fun _ => True) (fun _ _ => ⟨_, rfl⟩) fun _ => trivial).andThen fun _ _ _ =>
        runs_faulty (fun _ _ => ⟨_, rfl⟩) fun _ => trivial
    refine (hkeep.and hreturns).post fun r w' hr => ?_
    cases r with
    | ok _ => exact hr.1
    | error e =>
      obtain ⟨n, c, hfault⟩ := hr.2
      rw [henv n c] at hfault
      cases hfault
  exact hpersist.bind (fun _ w₁ h₁ => runs_evaluate_dispatched henv svc h₁) fun _ _ h => h.elim

end Ingestion

/-! ## A result -/

section Result

variable {nodeId : String} {ids : List ℕ} {env : Environment} {w : World} {actionId : ℕ}

/-- After a report, its action is not dispatched, whether it was or not. -/
theorem runs_reportResult_settled (henv : env.Faultless) (result : ActionResult) (now : Instant)
    (h : DispatchedWithin nodeId (actionId :: ids) w.store) :
    Runs (handle env) (fun _ _ => True) (RemediationActionService.reportResult actionId result now) w
      fun _ w' => DispatchedWithin nodeId ids w'.store := by
  have hget : Runs (handle env) (fun _ _ => True) (Call.getAction actionId).perform w
      (Ends (fun record w' => record = w.store.remediationActions.get? actionId ∧
        w'.store = w.store) fun _ _ => False) := by
    refine Call.runs_perform (fun e he => ?_) fun _ => ⟨trivial, rfl, rfl⟩
    rw [henv] at he
    cases he
  unfold RemediationActionService.reportResult RemediationActionService.getAction
  rw [bind_assoc]
  refine hget.bind (fun record w₁ h₁ => ?_) fun _ _ hfalse => hfalse.elim
  obtain ⟨hrecord, hstore⟩ := h₁
  rw [← hstore] at h hrecord
  cases record with
  | none =>
    refine h.of_cons fun row hrow => ?_
    rw [← hrecord] at hrow
    cases hrow
  | some record =>
    show Runs _ _ (if record.status = .dispatched then _ else _) _ _
    split_ifs with hstatus
    · refine Call.runs_perform (fun e he => ?_) fun _ => ⟨trivial, ?_⟩
      · rw [henv] at he
        cases he
      · have hmarked := allKeep_dispatchedWithin nodeId (actionId :: ids) (env.scan w₁.calls) _ _
          (Call.elsewhere_markResult actionId result.status result.message now) h
        refine hmarked.of_cons fun row hrow => ?_
        rw [exec_actions, Call.actions, Table.get?_modify_self, Option.map_eq_some_iff] at hrow
        obtain ⟨before, -, rfl⟩ := hrow
        show RemediationActionService.actionStatus result.status ≠ _
        cases result.status <;> decide
    · refine h.of_cons fun row hrow => ?_
      obtain rfl := Option.some.inj (hrecord.trans hrow)
      exact hstatus

end Result

/-! ## The API -/

section Api

variable {env : ApiEnvironment} {app : App} {credentials : Option String} {w : World} {ids : List ℕ}

theorem runs_respond_dispatched {p : NodeMetricsPayload} (hcalm : env.toEnvironment.Faultless)
    (htoken : verifyApiToken app.iteration credentials = .ok ())
    (now : Instant) (h : DispatchedWithin p.nodeId ids w.store) :
    Runs env.handle (fun _ _ => True) (app.respond (.receiveMetrics p) credentials now) w
      fun response w' => ∃ ack, response = .ok ⟨200, .ack ack⟩ ∧ DispatchedWithin p.nodeId
        (ids ++ ack.pendingActions.map PendingAction.actionId) w'.store := by
  refine (runs_respond_ofRepo (f := .ack) (authenticate_of_token _ htoken) rfl
    (runs_ingest_dispatched hcalm app.deployment.alertEvaluationService h)).post fun r w' hr => ?_
  obtain ⟨_, rfl, ack, hack, hwithin⟩ | ⟨e, -, ack, hack, -⟩ := hr
  · obtain rfl := Except.ok.inj hack
    exact ⟨_, rfl, hwithin⟩
  · cases hack

theorem runs_respond_settled {nodeId : String} {actionId : ℕ} (hcalm : env.toEnvironment.Faultless)
    (htoken : verifyApiToken app.iteration credentials = .ok ()) (result : ActionResult)
    (now : Instant) (h : DispatchedWithin nodeId (actionId :: ids) w.store) :
    Runs env.handle (fun _ _ => True)
      (app.respond (.reportRemediationActionResult actionId result) credentials now) w
      fun _ w' => DispatchedWithin nodeId ids w'.store := by
  refine (runs_respond_ofRepo (f := .action) (authenticate_of_token _ htoken) rfl
    (runs_reportResult_settled hcalm result now h)).post fun r w' hr => ?_
  obtain ⟨_, -, hwithin⟩ | ⟨_, -, hwithin⟩ := hr
  · exact hwithin
  · exact hwithin

end Api

end ClusterPulse
