import ClusterPulse.Proof.Evaluation

/-!
# Every operation takes alert steps

The requests and the job sweeps, one by one: each of their calls is an alert step, and each of them
ends in a settled world if it starts in one.
-/

namespace ClusterPulse

open AlertRepository Prog

variable {env : Environment} {service : Option AlertEvaluationService} {w : World}

/-- A quiet call in a settled world. -/
theorem Call.Quiet.runs_settled {c : Call} (hc : c.Quiet) (hw : Settled w) :
    Runs (handle env) (AlertStep service) c.perform w (Ends (fun _ => Settled) fun _ => Settled) :=
  (hc.runs hw).post fun r _ hQ =>
    match r with
    | .ok _ => hQ.1.settled hw
    | .error _ => hQ

/-! ## Requests -/

theorem MetricsIngestionService.runs_evaluateRulesBestEffort {svc : AlertEvaluationService}
    (hmark : env.MarksRemediated) (hord : svc.Ordered) (payload : NodeMetricsPayload)
    (hw : Settled w) :
    Runs (handle env) (AlertStep (some svc)) (evaluateRulesBestEffort svc payload) w
      (Ends (fun _ => Settled) fun _ => Settled) := by
  have hevaluate : Runs (handle env) (AlertStep (some svc)) (svc.evaluateAndApply payload.nodeId
      payload.samples payload.collectedAt) w (Ends (fun _ => Settled) fun _ => Settled) :=
    AlertEvaluationService.runs_evaluateAndApply hmark hord payload.samples hw
  have hbody : Runs (handle env) (AlertStep (some svc))
      (svc.evaluateAndApply payload.nodeId payload.samples payload.collectedAt >>= fun outcome =>
        return outcome.dispatchedActions.map pendingAction) w
      (Ends (fun _ => Settled) fun _ => Settled) := hevaluate.andThen fun _ _ hw₁ => hw₁
  refine hbody.tryCatch (fun _ _ hw₁ => hw₁) fun _ _ hw₁ => ?_
  exact hw₁

theorem MetricsIngestionService.runs_ingest {svc : AlertEvaluationService}
    (hmark : env.MarksRemediated) (hord : svc.Ordered) (payload : NodeMetricsPayload)
    (receivedAt : Instant) (hw : Settled w) :
    Runs (handle env) (AlertStep (some svc)) (ingest svc payload receivedAt) w
      (Ends (fun _ => Settled) fun _ => Settled) := by
  unfold ingest persist
  have hseen : (Call.upsertSeen payload.nodeId payload.collectedAt).Quiet :=
    ⟨fun _ _ => rfl, fun _ => rfl⟩
  have hinsert : (Call.bulkInsert payload.nodeId payload.samples payload.collectedAt
    receivedAt).Quiet := ⟨fun _ _ => rfl, fun _ => rfl⟩
  rw [bind_assoc]
  refine (hseen.runs_settled hw).andThen fun _ w₁ hw₁ => ?_
  refine (hinsert.runs_settled hw₁).andThen fun _ w₂ hw₂ => ?_
  exact (runs_evaluateRulesBestEffort hmark hord payload hw₂).andThen fun _ _ hw₃ => hw₃

theorem AlertEvaluationService.runs_acknowledge (alertId : ℕ) (acknowledgedBy : String)
    (now : Instant) (hw : Settled w) :
    Runs (handle env) (AlertStep service) (acknowledge alertId acknowledgedBy now) w
      (Ends (fun _ => Settled) fun _ => Settled) := by
  unfold acknowledge getAlert
  have hget : (Call.getAlert alertId).Quiet := ⟨fun _ _ => rfl, fun _ => rfl⟩
  rw [bind_assoc]
  refine (hget.runs hw).andThen ?_
  rintro record w₁ ⟨hsame, scan, hr⟩
  have hw₁ := hsame.settled hw
  have hrecord : w.store.alerts.get? alertId = record := Except.ok.inj hr
  cases record with
  | none => exact hw₁
  | some a =>
    obtain rfl := Table.key_of_get? hrecord
    simp only [pure_eq, pure_bind']
    split_ifs with hstatus
    · exact hw₁
    · have hfiring : a.status = .firing := by
        cases h : a.status with
        | firing => rfl
        | resolved => exact absurd h hstatus
      have ha : Live w₁ a := ⟨hsame.alerts ▸ hrecord, hfiring⟩
      exact (runs_write (.acknowledgeAlert a.id acknowledgedBy now)
        (id_acknowledged · acknowledgedBy now) hw₁ ha (fun _ => rfl) (fun _ _ => rfl)
        (.acknowledge acknowledgedBy now)).post fun r _ hQ =>
          match r with
          | .ok _ => hQ.1
          | .error _ => hQ

theorem RemediationActionService.runs_reportResult (actionId : ℕ) (result : ActionResult)
    (now : Instant) (hw : Settled w) :
    Runs (handle env) (AlertStep service) (reportResult actionId result now) w
      (Ends (fun _ => Settled) fun _ => Settled) := by
  unfold reportResult getAction
  have hget : (Call.getAction actionId).Quiet := ⟨fun _ _ => rfl, fun _ => rfl⟩
  rw [bind_assoc]
  refine (hget.runs_settled hw).andThen fun record w₁ hw₁ => ?_
  cases record with
  | none => exact hw₁
  | some a =>
    simp only [pure_eq, pure_bind']
    split_ifs
    · have hmark : (Call.markResult actionId (actionStatus result.status) result.message
        now).Quiet := ⟨fun _ _ => rfl, fun _ => rfl⟩
      exact hmark.runs_settled hw₁
    · exact hw₁

/-! ## Jobs -/

theorem ReconciliationJob.runs_run (settings : CollectorSettings) (now : Datetime)
    (hw : Settled w) :
    Runs (handle env) (AlertStep service) (run settings now) w
      (Ends (fun _ => Settled) fun _ => Settled) := by
  unfold run
  rcases cutoff settings.remediationDispatchTimeoutSeconds now with e | c
  · exact hw
  have hlist : (Call.listDispatchedBefore c.instant).Quiet := ⟨fun _ _ => rfl, fun _ => rfl⟩
  refine (hlist.runs_settled hw).andThen fun actions w₁ hw₁ => ?_
  refine Runs.foldlM (fun timedOut action w₂ hw₂ => ?_) actions 0 w₁ hw₁
  have hmark : (Call.markResult action.id .failed (some timedOutReason) now.instant).Quiet :=
    ⟨fun _ _ => rfl, fun _ => rfl⟩
  exact (hmark.runs_settled hw₂).andThen fun _ _ hw₃ => hw₃

namespace RetentionJob

theorem runs_drain {prune : Repo ℕ}
    (hprune : ∀ w, Settled w → Runs (handle env) (AlertStep service) prune w
      (Ends (fun _ => Settled) fun _ => Settled)) (passes total : ℕ) (hw : Settled w) :
    Runs (handle env) (AlertStep service) (drain prune passes total) w
      (Ends (fun _ => Settled) fun _ => Settled) := by
  induction passes generalizing total w with
  | zero => exact hw
  | succ passes ih =>
    refine (hprune w hw).andThen fun deleted w₁ hw₁ => ?_
    split_ifs
    · exact ih _ hw₁
    · exact hw₁

/-- A batch of alerts contains resolved ones only. -/
theorem runs_pruneResolved (cutoff : Instant) (batchSize : ℕ) (hw : Settled w) :
    Runs (handle env) (AlertStep service) (Call.pruneResolvedBefore cutoff batchSize).perform w
      (Ends (fun _ => Settled) fun _ => Settled) := by
  have hdelete : ∀ scan, AlertChange service w.store.alerts
      ((Call.pruneResolvedBefore cutoff batchSize).alerts scan w.store) := by
    intro scan
    refine .delete _ fun a ha hdoomed => ?_
    obtain ⟨b, hb, hid⟩ := List.mem_map.1 (List.contains_iff_mem.1 hdoomed)
    have hmem := List.mem_of_mem_take hb
    rw [List.mem_filter, mem_reorder] at hmem
    obtain rfl : b = a := List.inj_on_of_nodup_map w.store.alerts.nodup hmem.1 ha hid
    have hresolved := hmem.2
    simp only [Bool.and_eq_true, beq_iff_eq] at hresolved
    exact hresolved.1.1
  exact (Call.runs_change hw (fun _ => rfl) hdelete).post fun r _ hQ =>
    match r with
    | .ok _ => hQ.1
    | .error _ => hQ

theorem runs_run (settings : CollectorSettings) (now : Datetime) (passes : ℕ) (hw : Settled w) :
    Runs (handle env) (AlertStep service) (run settings now passes) w
      (Ends (fun _ => Settled) fun _ => Settled) := by
  have hactions : ∀ c n, (Call.pruneTerminalBefore c n).Quiet :=
    fun _ _ => ⟨fun _ _ => rfl, fun _ => rfl⟩
  have hsamples : ∀ c n, (Call.pruneSamplesBefore c n).Quiet :=
    fun _ _ => ⟨fun _ _ => rfl, fun _ => rfl⟩
  unfold run
  rcases cutoff settings.remediationActionsRetentionDays now with e | c₁
  · exact hw
  refine (runs_drain (fun _ h => (hactions _ _).runs_settled h) passes 0 hw).andThen
    fun _ w₁ hw₁ => ?_
  rcases cutoff settings.resolvedAlertsRetentionDays now with e | c₂
  · exact hw₁
  refine (runs_drain (fun _ h => runs_pruneResolved _ _ h) passes 0 hw₁).andThen
    fun _ w₂ hw₂ => ?_
  rcases cutoff settings.metricsRetentionDays now with e | c₃
  · exact hw₂
  exact (runs_drain (fun _ h => (hsamples _ _).runs_settled h) passes 0 hw₂).andThen
    fun _ _ hw₃ => hw₃

end RetentionJob

namespace StalenessJob

theorem runs_notify (settings : CollectorSettings) (m : Notification) (hw : Settled w) :
    Runs (handle env) (AlertStep service) (notify settings m) w
      (Ends (fun _ => Settled) fun _ => Settled) := by
  unfold notify
  have hnotify : (Call.notify m).Quiet := ⟨fun _ _ => rfl, fun _ => rfl⟩
  split_ifs
  · exact hnotify.runs_settled hw
  · exact hw

theorem runs_openAlert (settings : CollectorSettings) (now : Datetime) (node : NodeRecord)
    (silentSeconds : Double) (hw : Settled w) :
    Runs (handle env) (AlertStep service) (openAlert settings now node silentSeconds) w
      (Ends (fun _ => Settled) fun _ => Settled) := by
  unfold openAlert
  rcases intOfFloat silentSeconds with e | silentFor
  · exact hw
  rw [lift_ok, pure_bind']
  refine Runs.andThen (Call.runs_change hw (fun _ => rfl) fun _ =>
    .insert _ (fun _ => id_newAlert ..) rfl rfl rfl) fun record w₁ hQ => ?_
  exact runs_notify settings _ hQ.1

theorem runs_resolve (settings : CollectorSettings) (now : Datetime) {a : AlertRecord}
    (hw : Settled w) (ha : Live w a) :
    Runs (handle env) (AlertStep service) (resolve settings now a) w
      (Ends (fun _ => Settled) fun _ => Settled) :=
  (runs_write (.resolveAlert a.id now) (id_resolved · now) hw ha (fun _ => rfl) (fun _ _ => rfl)
    (.resolve now)).andThen fun _ _ hQ => runs_notify settings _ hQ.1

theorem runs_run (settings : CollectorSettings) (firstRunDone : Bool) (now : Datetime)
    (hw : Settled w) :
    Runs (handle env) (AlertStep service) (run settings firstRunDone now) w
      (Ends (fun _ => Settled) fun _ => Settled) := by
  have hlist : Call.listAllNodes.Quiet := ⟨fun _ _ => rfl, fun _ => rfl⟩
  refine (hlist.runs_settled hw).andThen fun nodes w₁ hw₁ => ?_
  refine Runs.foldlM (fun counts node w₂ hw₂ => ?_) nodes _ w₁ hw₁
  unfold checkNode
  rcases now.since node.lastSeenAt with e | silent
  · exact hw₂
  have hfind : (Call.findOpenAlert node.nodeId stalenessRuleKey).Quiet :=
    ⟨fun _ _ => rfl, fun _ => rfl⟩
  refine (hfind.runs hw₂).andThen ?_
  rintro found w₃ ⟨hsame, scan, hr⟩
  have hw₃ := hsame.settled hw₂
  split_ifs
  · exact (runs_openAlert settings now node _ hw₃).andThen fun _ _ hw₄ => hw₄
  · exact hw₃
  · cases found with
    | none => exact hw₃
    | some a =>
      have ha := (live_of_findOpenAlert (Except.ok.inj hr)).of_same hsame
      exact (runs_resolve settings now hw₃ ha).andThen fun _ _ hw₄ => hw₄

end StalenessJob

/-! ## All of them -/

/-- The operation runs with a service that remediates no earlier than it escalates. -/
def Operation.Ordered (op : Operation) : Prop := ∀ svc ∈ op.service?, svc.Ordered

theorem Operation.runs_alertStep (hmark : env.MarksRemediated) {op : Operation} (hop : op.Ordered)
    (hw : Settled w) :
    Runs (handle env) (AlertStep op.service?) op.program w fun _ => Settled := by
  have hend : ∀ {α : Type} (r : Except PyError α) (w' : World),
      Ends (fun _ => Settled) (fun _ => Settled) r w' → Settled w' := fun r _ h =>
    match r with
    | .ok _ => h
    | .error _ => h
  cases op with
  | evaluateAndApply svc nodeId samples t =>
    exact (AlertEvaluationService.runs_evaluateAndApply hmark (hop svc rfl) samples hw).map hend
  | ingest svc payload receivedAt =>
    exact (MetricsIngestionService.runs_ingest hmark (hop svc rfl) payload receivedAt hw).map hend
  | acknowledge alertId acknowledgedBy now =>
    exact (AlertEvaluationService.runs_acknowledge alertId acknowledgedBy now hw).map hend
  | reportResult actionId result now =>
    exact (RemediationActionService.runs_reportResult actionId result now hw).map hend
  | reconciliation settings now => exact (ReconciliationJob.runs_run settings now hw).map hend
  | retention settings now passes => exact (RetentionJob.runs_run settings now passes hw).map hend
  | staleness settings firstRunDone now =>
    exact (StalenessJob.runs_run settings firstRunDone now hw).map hend

end ClusterPulse
