import ClusterPulse.Proof.Evaluation

/-!
# What an evaluation does to the lifecycle of alerts

With a database that does not fail and a timely clock, applying a rule result always succeeds, and
what it does to the lifecycle columns of the alerts depends on the result and on the open alert
alone.  Escalation, remediation and acknowledgement write other columns of the same rows; `view`
leaves these out.
-/

namespace ClusterPulse

open AlertRepository Prog

/-! ## The lifecycle columns -/

/-- The row without the columns of escalation, remediation and acknowledgement. -/
def AlertRecord.masked (a : AlertRecord) : AlertRecord :=
  { a with acknowledgedAt := none, acknowledgedBy := none, escalatedAt := none, remediatedAt := none }

/-- The lifecycle columns of the alerts. -/
def view (t : AlertTable) : List AlertRecord := t.rows.map AlertRecord.masked

theorem view_modify {t : AlertTable} {i : ℕ} {f : AlertRecord → AlertRecord}
    (hf : ∀ a, (f a).id = a.id) (hmask : ∀ a, (f a).masked = a.masked) :
    view (t.modify i f hf) = view t := by
  unfold view
  rw [Table.rows_modify, List.map_map]
  refine List.map_congr_left fun a _ => ?_
  rw [Function.comp_apply]
  split_ifs
  · exact hmask a
  · rfl

theorem isSome_get?_of_view {t t' : AlertTable} {i : ℕ} (h : view t' = view t)
    (hi : (t.get? i).isSome) : (t'.get? i).isSome := by
  obtain ⟨a, ha⟩ := Option.isSome_iff_exists.1 hi
  have hmem : a.masked ∈ view t' := h ▸ List.mem_map_of_mem (Table.mem_of_get? ha)
  obtain ⟨b, hb, hmask⟩ := List.mem_map.1 hmem
  have hmaskId : b.masked.id = a.masked.id := by rw [hmask]
  have hkey : a.id = i := Table.key_of_get? ha
  have hid : b.id = i := hmaskId.trans hkey
  rw [← hid, Table.get?_of_mem hb]
  rfl

/-! ## Timely clocks -/

/-- An aware datetime from which an hour can be subtracted. -/
structure Timely (t : Datetime) : Prop where
  aware : t.utcoffset.isSome
  hour : ∃ since, t.minus Timedelta.hour = .ok since

theorem Timely.since {t : Datetime} (ht : Timely t) (x : Instant) : ∃ d, t.since x = .ok d := by
  obtain ⟨o, ho⟩ := Option.isSome_iff_exists.1 ht.aware
  refine ⟨t.instant - x, ?_⟩
  unfold Datetime.since
  rw [ho]

theorem Timely.ageReaches {t : Datetime} (ht : Timely t) (a : AlertRecord) (threshold : Double) :
    ∃ b, AlertEvaluationService.ageReaches a t threshold = .ok b := by
  obtain ⟨d, hd⟩ := ht.since a.firstFiredAt
  unfold AlertEvaluationService.ageReaches
  rw [hd]
  exact ⟨_, rfl⟩

theorem Timely.shouldEscalate {t : Datetime} (ht : Timely t) (svc : AlertEvaluationService)
    (a : AlertRecord) : ∃ b, svc.shouldEscalate a t = .ok b := by
  unfold AlertEvaluationService.shouldEscalate
  split_ifs
  · exact ⟨_, rfl⟩
  · exact ht.ageReaches a _

theorem Timely.shouldRemediate {t : Datetime} (ht : Timely t) (svc : AlertEvaluationService)
    (a : AlertRecord) : ∃ b, svc.shouldRemediate a t = .ok b := by
  unfold AlertEvaluationService.shouldRemediate
  split_ifs
  · exact ⟨_, rfl⟩
  · exact ⟨_, rfl⟩
  · exact ht.ageReaches a _

theorem Timely.elapsedSince {t : Datetime} (ht : Timely t)
    (last : Option RemediationActionRecord) :
    ∃ x, RemediationEngine.elapsedSince t last = .ok x := by
  cases last with
  | none => exact ⟨_, rfl⟩
  | some last =>
    obtain ⟨d, hd⟩ := ht.since last.createdAt
    show ∃ x, ((t.since last.createdAt).map fun d => some d.totalSeconds) = .ok x
    rw [hd]
    exact ⟨_, rfl⟩

/-- A reading of `datetime.now(UTC)`, after the first hour of the year 1. -/
structure ClockReading (t : Datetime) : Prop where
  isUtc : t.IsUtc
  hour_le : Timedelta.hour ≤ t.wall

theorem ClockReading.timely {t : Datetime} (ht : ClockReading t) : Timely t := by
  refine ⟨by rw [ht.isUtc]; rfl, ?_⟩
  have hle : t.wall - Timedelta.hour ≤ maxWall := (sub_le_self _ (by decide)).trans t.wall_le
  unfold Datetime.minus
  rw [dif_pos ⟨sub_nonneg.2 ht.hour_le, hle⟩]
  exact ⟨_, rfl⟩

/-! ## Calls that succeed -/

/-- The program returns, in a world that satisfies `P`. -/
abbrev Returns {α : Type} (env : Environment) (p : Repo α) (w : World) (P : α → World → Prop) :
    Prop :=
  Runs (handle env) (fun _ _ => True) p w (Ends P fun _ _ => False)

variable {env : Environment} {w : World} {svc : AlertEvaluationService} {nodeId : String}
  {t : Datetime}

theorem exists_run_of_returns {α : Type} {p : Repo α} {P : α → World → Prop}
    (hp : Returns env p w P) :
    ∃ a w', p.run (handle env) w = (.ok a, w') ∧ P a w' := by
  have hrun := Runs.run hp
  rcases hr : p.run (handle env) w with ⟨e | a, w'⟩
  · rw [hr] at hrun
    exact hrun.elim
  · rw [hr] at hrun
    exact ⟨a, w', rfl, hrun⟩

/-- A call that succeeds. -/
theorem Call.returns_exec (henv : env.Faultless) (c : Call)
    (h : ∀ scan, ∃ r, (exec scan c w.store).1 = .ok r) :
    Returns env c.perform w fun r w' =>
      ∃ scan, (exec scan c w.store).1 = .ok r ∧ w'.store = (exec scan c w.store).2 := by
  refine Call.runs_perform (fun e he => ?_) fun _ => ⟨trivial, ?_⟩
  · rw [henv] at he
    cases he
  · obtain ⟨r, hr⟩ := h (env.scan w.calls)
    rw [hr]
    exact ⟨_, hr, rfl⟩

theorem Call.returns (henv : env.Faultless) (c : Call)
    (h : ∀ scan, ∃ r, (exec scan c w.store).1 = .ok r) :
    Returns env c.perform w fun r w' =>
      ∃ scan, (exec scan c w.store).1 = .ok r ∧ w'.store.alerts = c.alerts scan w.store := by
  refine (Call.returns_exec henv c h).post ?_
  rintro (e | r) w' hQ
  · exact hQ
  · obtain ⟨scan, hr, hw'⟩ := hQ
    exact ⟨scan, hr, (congrArg Store.alerts hw').trans (exec_alerts ..)⟩

/-- A call that reads, or writes another table. -/
theorem Call.returns_same (henv : env.Faultless) (c : Call)
    (h : ∀ scan, ∃ r, (exec scan c w.store).1 = .ok r)
    (halerts : ∀ scan, c.alerts scan w.store = w.store.alerts) :
    Returns env c.perform w fun _ w' => w'.store.alerts = w.store.alerts := by
  refine (Call.returns henv c h).post ?_
  rintro (e | r) w' hQ
  · exact hQ
  · obtain ⟨scan, -, hw'⟩ := hQ
    exact hw'.trans (halerts scan)

theorem update_ok {σ : Store} {i : ℕ} {errorMessage : String} {f : AlertRecord → AlertRecord}
    {hf : ∀ a, (f a).id = a.id} (hi : (σ.alerts.get? i).isSome) :
    ∃ r, (update σ i errorMessage f hf).1 = .ok r := by
  obtain ⟨a, ha⟩ := Option.isSome_iff_exists.1 hi
  exact ⟨_, update_of_get? ha⟩

theorem id_of_update {σ : Store} {i : ℕ} {errorMessage : String} {f : AlertRecord → AlertRecord}
    {hf : ∀ a, (f a).id = a.id} {r : AlertRecord}
    (hr : (update σ i errorMessage f hf).1 = .ok r) : r.id = i := by
  unfold update at hr
  rcases ha : σ.alerts.get? i with _ | a
  · rw [ha] at hr
    cases hr
  · rw [ha] at hr
    cases hr
    exact (hf a).trans (Table.key_of_get? ha)

/-! ## The calls of the helpers -/

/-- The calls of an evaluation that write nothing. -/
def Call.IsQuery : Call → Prop
  | .findPreviousSample .. | .findOpenAlert .. | .countRecentActions .. | .findLastAction ..
  | .notify .. => True
  | _ => False

/-- Those among them that ask the database. -/
def Call.IsRead : Call → Prop
  | .findPreviousSample .. | .findOpenAlert .. | .countRecentActions .. | .findLastAction .. => True
  | _ => False

theorem Call.IsRead.query {c : Call} (hc : c.IsRead) : c.IsQuery := by
  cases c with
  | findPreviousSample | findOpenAlert | countRecentActions | findLastAction => trivial
  | _ => exact hc.elim

/-- The calls that an ingestion makes outside its decisions. -/
def Call.IsRoutine : Call → Prop
  | .upsertSeen .. | .bulkInsert .. | .findPreviousSample .. | .findOpenAlert .. | .createAlert ..
  | .updateLastFired .. | .resolveAlert .. | .escalateAlert .. | .countRecentActions ..
  | .findLastAction .. | .notify .. => True
  | _ => False

/-- The routine calls of an evaluation, which neither sees the node nor stores samples. -/
def Call.IsLifecycle : Call → Prop
  | .upsertSeen .. | .bulkInsert .. => False
  | c => c.IsRoutine

theorem Call.IsLifecycle.routine {c : Call} (hc : c.IsLifecycle) : c.IsRoutine := by
  cases c with
  | upsertSeen | bulkInsert => exact hc.elim
  | _ => exact hc

theorem Call.IsQuery.lifecycle {c : Call} (hc : c.IsQuery) : c.IsLifecycle := by
  cases c with
  | findPreviousSample | findOpenAlert | countRecentActions | findLastAction | notify => trivial
  | _ => exact hc.elim

theorem Call.IsQuery.routine {c : Call} (hc : c.IsQuery) : c.IsRoutine := hc.lifecycle.routine

theorem RuleEngine.only_evaluate {C : Call → Prop}
    (hC : ∀ metricType seconds, C (.findPreviousSample nodeId metricType t seconds))
    (e : RuleEngine) (samples : List MetricSample) : Only C (e.evaluate nodeId samples t) := by
  refine Only.foldlM (fun results sample => ?_) samples []
  unfold RuleEngine.evaluateSample
  split
  · exact only_pure _
  · unfold RuleEngine.evaluateRateOfChange
    rw [bind_assoc]
    exact (only_perform (hC _ _)).bind fun _ => only_pure _

theorem MetricsIngestionService.routine_persist (payload : NodeMetricsPayload)
    (receivedAt : Instant) : Only Call.IsRoutine (persist payload receivedAt) :=
  (only_perform trivial).bind fun _ => only_perform trivial

theorem RemediationEngine.only_checkRateLimit (e : RemediationEngine) :
    Only Call.IsRead (e.checkRateLimit nodeId t) := by
  refine (only_lift _).bind fun since => (only_perform trivial).bind fun count => ?_
  split_ifs
  · exact only_pure _
  · exact only_pure _

theorem RemediationEngine.only_checkSafetyLimits (e : RemediationEngine)
    (playbook : PlaybookDefinition) :
    Only Call.IsRead (e.checkSafetyLimits nodeId playbook t) := by
  refine (only_perform trivial).bind fun last => (only_lift _).bind fun elapsed => ?_
  cases elapsed with
  | none => exact e.only_checkRateLimit
  | some elapsed =>
    dsimp only
    split_ifs
    · exact only_pure _
    · exact e.only_checkRateLimit

theorem RemediationEngine.routine_checkSafetyLimits (e : RemediationEngine)
    (playbook : PlaybookDefinition) :
    Only Call.IsRoutine (e.checkSafetyLimits nodeId playbook t) :=
  (e.only_checkSafetyLimits playbook).mono fun _ hc => hc.query.routine

namespace AlertEvaluationService

theorem only_notify (m : Notification) : Only Call.IsQuery (svc.notify m) := by
  unfold notify
  split_ifs
  · exact only_perform trivial
  · exact only_pure _

theorem lifecycle_notify (m : Notification) : Only Call.IsLifecycle (svc.notify m) :=
  (svc.only_notify m).mono fun _ => Call.IsQuery.lifecycle

theorem lifecycle_openAlert (result : RuleEvaluationResult) :
    Only Call.IsLifecycle (svc.openAlert nodeId result t) :=
  (only_perform trivial).bind fun _ => (svc.lifecycle_notify _).bind fun _ => only_pure _

theorem lifecycle_maybeEscalate (a : AlertRecord) :
    Only Call.IsLifecycle (svc.maybeEscalate t a) := by
  refine (only_lift _).bind fun due => ?_
  split_ifs
  · exact (only_perform trivial).bind fun _ => (svc.lifecycle_notify _).bind fun _ => only_pure _
  · exact only_pure _

theorem lifecycle_resolve (a : AlertRecord) : Only Call.IsLifecycle (svc.resolve t a) :=
  (only_perform trivial).bind fun _ => (svc.lifecycle_notify _).bind fun _ => only_pure _

theorem routine_openAlert (result : RuleEvaluationResult) :
    Only Call.IsRoutine (svc.openAlert nodeId result t) :=
  (svc.lifecycle_openAlert result).mono fun _ => Call.IsLifecycle.routine

theorem routine_maybeEscalate (a : AlertRecord) : Only Call.IsRoutine (svc.maybeEscalate t a) :=
  (svc.lifecycle_maybeEscalate a).mono fun _ => Call.IsLifecycle.routine

theorem routine_resolve (a : AlertRecord) : Only Call.IsRoutine (svc.resolve t a) :=
  (svc.lifecycle_resolve a).mono fun _ => Call.IsLifecycle.routine

end AlertEvaluationService

/-! ## The helpers -/

theorem returns_notify (henv : env.Faultless) (m : Notification) :
    Returns env (svc.notify m) w fun _ w' => w'.store.alerts = w.store.alerts := by
  unfold AlertEvaluationService.notify
  split_ifs
  · exact Call.returns_same henv (.notify m) (fun _ => ⟨_, rfl⟩) fun _ => rfl
  · rfl

theorem returns_openAlert_insert (henv : env.Faultless) (result : RuleEvaluationResult) :
    Returns env (svc.openAlert nodeId result t) w fun _ w' => w'.store.alerts =
      w.store.alerts.insert (newAlert nodeId result.ruleKey result.ruleKind result.severity
        result.description result.value result.bound t) fun _ => id_newAlert .. := by
  unfold AlertEvaluationService.openAlert
  refine (Call.returns henv (.createAlert nodeId result.ruleKey result.ruleKind result.severity
    result.description result.value result.bound t) fun _ => ⟨_, rfl⟩).andThen ?_
  rintro record w₁ ⟨scan, -, hw₁⟩
  exact (returns_notify henv _).andThen fun _ w₂ hw₂ => hw₂.trans hw₁

theorem returns_openAlert (henv : env.Faultless) (result : RuleEvaluationResult) :
    Returns env (svc.openAlert nodeId result t) w fun _ w' => ∃ i, view w'.store.alerts =
      view w.store.alerts ++ [newAlert nodeId result.ruleKey result.ruleKind result.severity
        result.description result.value result.bound t i] := by
  refine (returns_openAlert_insert henv result).post ?_
  rintro (e | r) w' hQ
  · exact hQ
  · refine ⟨w.store.alerts.next, ?_⟩
    rw [show w'.store.alerts = _ from hQ]
    exact List.map_append

theorem returns_maybeEscalate (henv : env.Faultless) (ht : Timely t) {a : AlertRecord}
    (ha : (w.store.alerts.get? a.id).isSome) :
    Returns env (svc.maybeEscalate t a) w fun a' w' => a'.id = a.id ∧
      view w'.store.alerts = view w.store.alerts := by
  unfold AlertEvaluationService.maybeEscalate
  obtain ⟨due, hdue⟩ := ht.shouldEscalate svc a
  rw [hdue, lift_ok, pure_bind']
  cases due with
  | false => exact ⟨rfl, rfl⟩
  | true =>
    refine (Call.returns henv (.escalateAlert a.id t) fun _ => update_ok ha).andThen ?_
    rintro a' w₁ ⟨scan, hr, hw₁⟩
    refine (returns_notify henv _).andThen fun _ w₂ hw₂ => ⟨id_of_update hr, ?_⟩
    rw [hw₂, hw₁]
    exact view_modify (id_escalated · t) fun _ => rfl

theorem returns_checkRateLimit (henv : env.Faultless) (ht : Timely t) (e : RemediationEngine) :
    Returns env (e.checkRateLimit nodeId t) w fun _ w' => w'.store.alerts = w.store.alerts := by
  unfold RemediationEngine.checkRateLimit
  obtain ⟨since, hsince⟩ := ht.hour
  rw [hsince, lift_ok, pure_bind']
  refine (Call.returns_same henv (.countRecentActions nodeId since) (fun _ => ⟨_, rfl⟩)
    fun _ => rfl).andThen fun count w₁ hw₁ => ?_
  split_ifs
  · exact hw₁
  · exact hw₁

theorem returns_decide (henv : env.Faultless) (ht : Timely t) (e : RemediationEngine) (i : ℕ)
    (ruleKey : String) :
    Returns env (e.decide nodeId i ruleKey t) w fun _ w' =>
      w'.store.alerts = w.store.alerts := by
  unfold RemediationEngine.decide
  split_ifs
  swap
  · rfl
  rcases e.byRuleKey? ruleKey with _ | playbook
  · rfl
  have hlimits : Returns env (e.checkSafetyLimits nodeId playbook t) w fun _ w' =>
      w'.store.alerts = w.store.alerts := by
    unfold RemediationEngine.checkSafetyLimits
    refine (Call.returns_same henv (.findLastAction nodeId playbook.playbookName)
      (fun _ => ⟨_, rfl⟩) fun _ => rfl).andThen fun last w₁ hw₁ => ?_
    have hrate : Returns env (e.checkRateLimit nodeId t) w₁ fun _ w' =>
        w'.store.alerts = w.store.alerts := hw₁ ▸ returns_checkRateLimit henv ht e
    obtain ⟨elapsed, helapsed⟩ := ht.elapsedSince last
    rw [helapsed, lift_ok, pure_bind']
    cases elapsed with
    | none => exact hrate
    | some elapsed =>
      dsimp only
      split_ifs
      · exact hw₁
      · exact hrate
  refine hlimits.andThen fun reason w₁ hw₁ => ?_
  refine (Call.returns_same henv _ (fun _ => ⟨_, rfl⟩) fun _ => rfl).andThen fun action w₂ hw₂ => ?_
  exact hw₂.trans hw₁

theorem returns_maybeRemediate (henv : env.Faultless) (ht : Timely t)
    (result : RuleEvaluationResult) {a : AlertRecord}
    (ha : (w.store.alerts.get? a.id).isSome) :
    Returns env (svc.maybeRemediate nodeId result t a) w fun _ w' =>
      view w'.store.alerts = view w.store.alerts := by
  unfold AlertEvaluationService.maybeRemediate
  obtain ⟨due, hdue⟩ := ht.shouldRemediate svc a
  rw [hdue, lift_ok, pure_bind']
  rcases due, svc.remediationEngine with ⟨_ | _, _ | engine⟩
  · rfl
  · rfl
  · rfl
  · refine (returns_decide henv ht engine a.id result.ruleKey).andThen ?_
    rintro (_ | decision) w₁ hw₁
    · exact congrArg view hw₁
    · have ha₁ : (w₁.store.alerts.get? a.id).isSome := hw₁ ▸ ha
      refine (Call.returns henv (.markRemediated a.id t) fun _ => update_ok ha₁).andThen ?_
      rintro a' w₂ ⟨scan, -, hw₂⟩
      show view w₂.store.alerts = _
      rw [hw₂, ← hw₁]
      exact view_modify (id_remediated · t) fun _ => rfl

/-! ## One result -/

/-- An emitted rule result, with the node and the `collected_at` of its payload. -/
structure Emission where
  nodeId : String
  collectedAt : Datetime
  result : RuleEvaluationResult

/-- The row that a breach opens, up to its id. -/
def Emission.opens (e : Emission) : ℕ → AlertRecord :=
  newAlert e.nodeId e.result.ruleKey e.result.ruleKind e.result.severity e.result.description
    e.result.value e.result.bound e.collectedAt

/-- The write to an open alert: a breach advances it, any other result resolves it. -/
def Emission.writes (e : Emission) (a : AlertRecord) : AlertRecord :=
  if e.result.breached then advanced e.result.value e.collectedAt a else resolved e.collectedAt a

/-- How one result changes the lifecycle columns. -/
inductive ViewStep (e : Emission) (t t' : AlertTable) : Prop where
  | opened (i : ℕ) (hnone : ∀ a ∈ t.rows, ¬ isOpen e.nodeId e.result.ruleKey a = true)
    (hbreached : e.result.breached = true) (hview : view t' = view t ++ [(e.opens i).masked])
  | written (a : AlertRecord) (ha : a ∈ t.rows)
    (hopen : isOpen e.nodeId e.result.ruleKey a = true)
    (hview : view t' = (view t).map fun b => if b.id = a.id then e.writes b else b)
  | idle (hnone : ∀ a ∈ t.rows, ¬ isOpen e.nodeId e.result.ruleKey a = true)
    (hbreached : ¬ e.result.breached = true) (hview : view t' = view t)

/-- A write that does not look at the masked columns. -/
theorem view_modify_of_masked {t : AlertTable} {i : ℕ} {f : AlertRecord → AlertRecord}
    (hf : ∀ a, (f a).id = a.id) (hmask : ∀ a, (f a).masked = f a.masked) :
    view (t.modify i f hf) = (view t).map fun b => if b.id = i then f b else b := by
  unfold view
  rw [Table.rows_modify, List.map_map, List.map_map]
  refine List.map_congr_left fun a _ => ?_
  rw [Function.comp_apply, Function.comp_apply]
  have hid : a.masked.id = a.id := rfl
  rw [hid]
  split_ifs
  · exact hmask a
  · rfl

theorem returns_advance (henv : env.Faultless) (ht : Timely t) (result : RuleEvaluationResult)
    {a : AlertRecord} (ha : (w.store.alerts.get? a.id).isSome) :
    Returns env (svc.openOrAdvance nodeId result t (some a)) w fun _ w' =>
      view w'.store.alerts = view (w.store.alerts.modify a.id (advanced result.value t)
        (id_advanced · result.value t)) := by
  refine (Call.returns henv (.updateLastFired a.id result.value t)
    fun _ => update_ok ha).andThen ?_
  rintro a₁ w₁ ⟨scan, hr, hw₁⟩
  have hid : a₁.id = a.id := id_of_update hr
  have ha₁ : (w₁.store.alerts.get? a₁.id).isSome := by
    rw [hw₁, hid]
    show ((w.store.alerts.modify a.id (advanced result.value t)
      (id_advanced · result.value t)).get? a.id).isSome
    rw [Table.get?_modify_self, Option.isSome_map]
    exact ha
  refine (returns_maybeEscalate henv ht ha₁).andThen ?_
  rintro a₂ w₂ ⟨hid₂, hview₂⟩
  have ha₂ : (w₂.store.alerts.get? a₂.id).isSome := hid₂ ▸ isSome_get?_of_view hview₂ ha₁
  refine (returns_maybeRemediate henv ht result ha₂).post ?_
  rintro (e | r) w₃ hQ
  · exact hQ
  · exact (hQ.trans hview₂).trans (congrArg view hw₁)

theorem returns_resolve (henv : env.Faultless) {a : AlertRecord}
    (ha : (w.store.alerts.get? a.id).isSome) :
    Returns env (svc.resolve t a) w fun _ w' =>
      w'.store.alerts = w.store.alerts.modify a.id (resolved t) (id_resolved · t) := by
  unfold AlertEvaluationService.resolve
  refine (Call.returns henv (.resolveAlert a.id t) fun _ => update_ok ha).andThen ?_
  rintro a₁ w₁ ⟨scan, -, hw₁⟩
  exact (returns_notify henv _).andThen fun _ w₂ hw₂ => hw₂.trans hw₁

theorem returns_apply (henv : env.Faultless) (ht : Timely t) (result : RuleEvaluationResult) :
    Returns env (svc.apply nodeId result t) w fun _ w' =>
      ViewStep ⟨nodeId, t, result⟩ w.store.alerts w'.store.alerts := by
  unfold AlertEvaluationService.apply
  refine (Call.returns henv (.findOpenAlert nodeId result.ruleKey) fun _ => ⟨_, rfl⟩).andThen ?_
  rintro current w₁ ⟨scan, hr, hw₁⟩
  replace hw₁ : w₁.store.alerts = w.store.alerts := hw₁
  have hfind : findOpenAlert scan w.store nodeId result.ruleKey = current := Except.ok.inj hr
  cases current with
  | none =>
    have hnone : ∀ a ∈ w.store.alerts.rows, ¬ isOpen nodeId result.ruleKey a = true :=
      fun a ha => List.find?_eq_none.1 hfind a (mem_reorder.2 ha)
    by_cases hbreached : result.breached = true
    · rw [if_pos hbreached]
      have hopened : Returns env (svc.openOrAdvance nodeId result t none) w₁ fun _ w' =>
          ∃ i, view w'.store.alerts = view w₁.store.alerts ++
            [(Emission.mk nodeId t result).opens i] :=
        (returns_openAlert henv result).andThen fun _ _ h => h
      refine hopened.andThen fun _ w₂ ⟨i, hview⟩ => ?_
      exact .opened i hnone hbreached (hw₁ ▸ hview)
    · rw [if_neg hbreached]
      exact .idle hnone hbreached (congrArg view hw₁)
  | some a =>
    have hmem : a ∈ w.store.alerts.rows := mem_reorder.1 (List.mem_of_find?_eq_some hfind)
    have hopen : isOpen nodeId result.ruleKey a = true := List.find?_some hfind
    have ha₁ : (w₁.store.alerts.get? a.id).isSome := by
      rw [hw₁, Table.get?_of_mem hmem]
      rfl
    by_cases hbreached : result.breached = true
    · rw [if_pos hbreached]
      refine (returns_advance henv ht result ha₁).andThen fun _ w₂ hview => ?_
      refine .written a hmem hopen ?_
      rw [hview, hw₁, view_modify_of_masked (id_advanced · result.value t) fun _ => rfl]
      simp only [Emission.writes, if_pos hbreached]
    · rw [if_neg hbreached]
      refine (returns_resolve henv ha₁).andThen fun _ w₂ hw₂ => ?_
      refine .written a hmem hopen ?_
      rw [hw₂, hw₁, view_modify_of_masked (id_resolved · t) fun _ => rfl]
      simp only [Emission.writes, if_neg hbreached]

end ClusterPulse
