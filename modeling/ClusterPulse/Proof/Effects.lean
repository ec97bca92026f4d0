import ClusterPulse.Collector.Operations

/-!
# What a call does to the tables

Each call writes at most one of the tables: `Call.alerts` and `Call.actions` are the alerts and the
audit log it leaves, and every call they do not list leaves them alone.  `handle_cases` says what a
call does in any environment: it fails and changes nothing, or it takes effect.
-/

namespace ClusterPulse

abbrev AlertTable : Type := Table AlertRecord AlertRecord.id

abbrev ActionTable : Type := Table RemediationActionRecord RemediationActionRecord.id

theorem AlertRepository.update_alerts (σ : Store) (alertId : ℕ) (errorMessage : String)
    (f : AlertRecord → AlertRecord) (hf : ∀ a, (f a).id = a.id) :
    (update σ alertId errorMessage f hf).2 = { σ with alerts := σ.alerts.modify alertId f hf } := by
  unfold update
  rcases h : σ.alerts.get? alertId with _ | row
  · rw [Table.modify_of_get?_eq_none h]
  · rfl

theorem AlertRepository.update_of_get? {σ : Store} {alertId : ℕ} {errorMessage : String}
    {f : AlertRecord → AlertRecord} {hf : ∀ a, (f a).id = a.id} {row : AlertRecord}
    (h : σ.alerts.get? alertId = some row) :
    (update σ alertId errorMessage f hf).1 = .ok (f row) := by
  unfold update
  rw [h]

theorem RemediationActionRepository.markResult_actions (σ : Store) (actionId : ℕ)
    (status : RemediationActionStatus) (reason : Option String) (completedAt : Instant) :
    (markResult σ actionId status reason completedAt).2 =
      ⟨σ.nodes, σ.metricSamples, σ.alerts, σ.remediationActions.modify actionId
        (marked status reason completedAt) (id_marked status reason completedAt)⟩ := by
  unfold markResult
  rcases h : σ.remediationActions.get? actionId with _ | row
  · rw [Table.modify_of_get?_eq_none h]
  · rfl

theorem RemediationActionRepository.markResult_of_get? {σ : Store} {actionId : ℕ}
    {row : RemediationActionRecord} (h : σ.remediationActions.get? actionId = some row)
    (status : RemediationActionStatus) (reason : Option String) (completedAt : Instant) :
    (markResult σ actionId status reason completedAt).1 =
      .ok (marked status reason completedAt row) := by
  unfold markResult
  rw [h]

/-- The alerts after a call that did not fail. -/
def Call.alerts (scan : Scan) (σ : Store) : Call → AlertTable
  | .createAlert nodeId ruleKey ruleKind severity description triggeringValue bound firedAt =>
    σ.alerts.insert (AlertRepository.newAlert nodeId ruleKey ruleKind severity description
      triggeringValue bound firedAt) fun _ => AlertRepository.id_newAlert ..
  | .updateLastFired alertId triggeringValue firedAt =>
    σ.alerts.modify alertId (AlertRepository.advanced triggeringValue firedAt)
      (AlertRepository.id_advanced · triggeringValue firedAt)
  | .resolveAlert alertId resolvedAt =>
    σ.alerts.modify alertId (AlertRepository.resolved resolvedAt)
      (AlertRepository.id_resolved · resolvedAt)
  | .acknowledgeAlert alertId acknowledgedBy acknowledgedAt =>
    σ.alerts.modify alertId (AlertRepository.acknowledged acknowledgedBy acknowledgedAt)
      (AlertRepository.id_acknowledged · acknowledgedBy acknowledgedAt)
  | .escalateAlert alertId escalatedAt =>
    σ.alerts.modify alertId (AlertRepository.escalated escalatedAt)
      (AlertRepository.id_escalated · escalatedAt)
  | .markRemediated alertId remediatedAt =>
    σ.alerts.modify alertId (AlertRepository.remediated remediatedAt)
      (AlertRepository.id_remediated · remediatedAt)
  | .pruneResolvedBefore cutoff batchSize =>
    (AlertRepository.pruneResolvedBefore scan σ cutoff batchSize).2.alerts
  | _ => σ.alerts

/-- The audit log after a call that did not fail. -/
def Call.actions (scan : Scan) (σ : Store) : Call → ActionTable
  | .createAction nodeId alertId ruleKey playbookName actionType parameters status reason
      createdAt =>
    σ.remediationActions.insert (RemediationActionRepository.newAction nodeId alertId ruleKey
      playbookName actionType parameters status reason createdAt)
      fun _ => RemediationActionRepository.id_newAction ..
  | .markResult actionId status reason completedAt =>
    σ.remediationActions.modify actionId
      (RemediationActionRepository.marked status reason completedAt)
      (RemediationActionRepository.id_marked status reason completedAt)
  | .pruneTerminalBefore cutoff batchSize =>
    (RemediationActionRepository.pruneTerminalBefore scan σ cutoff batchSize).2.remediationActions
  | _ => σ.remediationActions

theorem exec_alerts (scan : Scan) (c : Call) (σ : Store) :
    (exec scan c σ).2.alerts = c.alerts scan σ := by
  cases c with
  | upsertSeen nodeId seenAt =>
    simp only [exec, Call.alerts, NodeRepository.upsertSeen]
    split <;> rfl
  | updateLastFired | resolveAlert | acknowledgeAlert | escalateAlert | markRemediated =>
    exact (congrArg Store.alerts (AlertRepository.update_alerts ..)).trans rfl
  | markResult actionId status reason completedAt =>
    have h := RemediationActionRepository.markResult_actions σ actionId status reason completedAt
    exact (congrArg Store.alerts h).trans rfl
  | _ => rfl

theorem exec_actions (scan : Scan) (c : Call) (σ : Store) :
    (exec scan c σ).2.remediationActions = c.actions scan σ := by
  cases c with
  | upsertSeen nodeId seenAt =>
    simp only [exec, Call.actions, NodeRepository.upsertSeen]
    split <;> rfl
  | updateLastFired | resolveAlert | acknowledgeAlert | escalateAlert | markRemediated =>
    exact (congrArg Store.remediationActions (AlertRepository.update_alerts ..)).trans rfl
  | markResult actionId status reason completedAt =>
    have h := RemediationActionRepository.markResult_actions σ actionId status reason completedAt
    exact (congrArg Store.remediationActions h).trans rfl
  | _ => rfl

/-- Only a receipt writes the node registry. -/
theorem exec_nodes (scan : Scan) (c : Call) (σ : Store)
    (hc : ∀ nodeId seenAt, c ≠ .upsertSeen nodeId seenAt) :
    (exec scan c σ).2.nodes = σ.nodes := by
  cases c with
  | upsertSeen nodeId seenAt => exact absurd rfl (hc nodeId seenAt)
  | updateLastFired | resolveAlert | acknowledgeAlert | escalateAlert | markRemediated =>
    exact (congrArg Store.nodes (AlertRepository.update_alerts ..)).trans rfl
  | markResult actionId status reason completedAt =>
    have h := RemediationActionRepository.markResult_actions σ actionId status reason completedAt
    exact (congrArg Store.nodes h).trans rfl
  | _ => rfl

/-- Only an ingestion and a retention sweep write the samples. -/
theorem exec_metricSamples (scan : Scan) (c : Call) (σ : Store)
    (hinsert : ∀ nodeId samples collectedAt receivedAt,
      c ≠ .bulkInsert nodeId samples collectedAt receivedAt)
    (hprune : ∀ cutoff batchSize, c ≠ .pruneSamplesBefore cutoff batchSize) :
    (exec scan c σ).2.metricSamples = σ.metricSamples := by
  cases c with
  | upsertSeen nodeId seenAt =>
    simp only [exec, NodeRepository.upsertSeen]
    split <;> rfl
  | bulkInsert nodeId samples collectedAt receivedAt => exact absurd rfl (hinsert _ _ _ _)
  | pruneSamplesBefore cutoff batchSize => exact absurd rfl (hprune _ _)
  | updateLastFired | resolveAlert | acknowledgeAlert | escalateAlert | markRemediated =>
    exact (congrArg Store.metricSamples (AlertRepository.update_alerts ..)).trans rfl
  | markResult actionId status reason completedAt =>
    have h := RemediationActionRepository.markResult_actions σ actionId status reason completedAt
    exact (congrArg Store.metricSamples h).trans rfl
  | _ => rfl

/-! ## Calls in an environment -/

/-- A call fails and changes nothing, or it takes effect. -/
theorem handle_cases (env : Environment) (c : Call) (w : World) :
    (∃ e, env.fault w.calls c = some e ∧
      handle env c w = (.error e, { w with calls := w.calls + 1 })) ∨
    (env.fault w.calls c = none ∧
      handle env c w = ((exec (env.scan w.calls) c w.store).1, w.after (env.scan w.calls) c)) := by
  rcases h : env.fault w.calls c with _ | e
  · exact .inr ⟨rfl, handle_of_ok h⟩
  · exact .inl ⟨e, rfl, handle_of_fault h⟩

@[simp] theorem World.after_alerts (w : World) (scan : Scan) (c : Call) :
    (w.after scan c).store.alerts = c.alerts scan w.store := exec_alerts scan c w.store

@[simp] theorem World.after_actions (w : World) (scan : Scan) (c : Call) :
    (w.after scan c).store.remediationActions = c.actions scan w.store :=
  exec_actions scan c w.store

@[simp] theorem World.after_recorded (w : World) (scan : Scan) (c : Call) :
    (w.after scan c).recorded =
      w.recorded ++ (c.audit w.store.remediationActions.next).toList := rfl

@[simp] theorem World.after_sent (w : World) (scan : Scan) (c : Call) :
    (w.after scan c).sent = w.sent ++ c.message.toList := rfl

@[simp] theorem World.after_calls (w : World) (scan : Scan) (c : Call) :
    (w.after scan c).calls = w.calls + 1 := rfl

@[simp] theorem handle_calls (env : Environment) (c : Call) (w : World) :
    (handle env c w).2.calls = w.calls + 1 := by
  rcases handle_cases env c w with ⟨e, -, h⟩ | ⟨-, h⟩
  · exact congrArg (fun x => x.2.calls) h
  · exact congrArg (fun x => x.2.calls) h

/-- A call in a run: what is to be shown if it fails, and if it takes effect. -/
theorem Call.runs_perform {env : Environment} {c : Call} {w : World} {R : World → World → Prop}
    {Q : Except PyError c.Res → World → Prop}
    (hfail : ∀ e, env.fault w.calls c = some e →
      R w { w with calls := w.calls + 1 } ∧ Q (.error e) { w with calls := w.calls + 1 })
    (hok : env.fault w.calls c = none → R w (w.after (env.scan w.calls) c) ∧
      Q (exec (env.scan w.calls) c w.store).1 (w.after (env.scan w.calls) c)) :
    Prog.Runs (handle env) R c.perform w Q := by
  rcases handle_cases env c w with ⟨e, he, h⟩ | ⟨hn, h⟩
  · exact Prog.runs_perform (by rw [h]; exact (hfail e he).1) (by rw [h]; exact (hfail e he).2)
  · exact Prog.runs_perform (by rw [h]; exact (hok hn).1) (by rw [h]; exact (hok hn).2)

/-- A call that takes effect, at the head of a program. -/
theorem run_perform_bind {α : Type} {env : Environment} {c : Call} {w : World} {r : c.Res}
    (hfault : env.fault w.calls c = none) (hr : (exec (env.scan w.calls) c w.store).1 = .ok r)
    (f : c.Res → Repo α) :
    (c.perform >>= f).run (handle env) w = (f r).run (handle env) (w.after (env.scan w.calls) c) := by
  rw [Prog.run_bind, Prog.run_perform, handle_of_ok hfault, hr]

@[simp] theorem Operation.runAll_nil (env : Environment) (w : World) :
    Operation.runAll env [] w = w := rfl

@[simp] theorem Operation.runAll_cons (env : Environment) (op : Operation) (ops : List Operation)
    (w : World) : Operation.runAll env (op :: ops) w =
      Operation.runAll env ops (op.program.run (handle env) w).2 := by
  unfold Operation.runAll
  rw [List.map_cons, Prog.run_serial_cons]

theorem Operation.runAll_append (env : Environment) (ops ops' : List Operation) (w : World) :
    Operation.runAll env (ops ++ ops') w = Operation.runAll env ops' (Operation.runAll env ops w) := by
  unfold Operation.runAll
  rw [List.map_append, Prog.run_serial_append]

/-- The part of an alert that no write changes. -/
def AlertRecord.identity (a : AlertRecord) : AlertRecord :=
  { a with
    status := .firing
    triggeringValue := a.bound
    lastFiredAt := a.firstFiredAt
    resolvedAt := none
    acknowledgedAt := none
    acknowledgedBy := none
    escalatedAt := none
    remediatedAt := none }

/-! ## The audit log and its history -/

/-- The part of an audit row that `mark_result` leaves alone. -/
def RemediationActionRecord.identity (a : RemediationActionRecord) : RemediationActionRecord :=
  { a with status := .dispatched, reason := none, completedAt := none }

theorem map_identity_modify (t : ActionTable) (i : ℕ) (status : RemediationActionStatus)
    (reason : Option String) (completedAt : Instant) :
    (t.modify i (RemediationActionRepository.marked status reason completedAt)
      (RemediationActionRepository.id_marked status reason completedAt)).rows.map
        RemediationActionRecord.identity = t.rows.map RemediationActionRecord.identity := by
  rw [Table.rows_modify, List.map_map]
  refine List.map_congr_left fun a _ => ?_
  rw [Function.comp_apply]
  split_ifs
  · rfl
  · rfl

/-- The rows of the audit log were all recorded, in this order. -/
def Audited (w : World) : Prop :=
  (w.store.remediationActions.rows.map RemediationActionRecord.identity).Sublist
    (w.recorded.map RemediationActionRecord.identity)

theorem audited_fresh : Audited .fresh := List.Sublist.slnil

theorem Audited.step (env : Environment) (c : Call) {w : World} (hw : Audited w) :
    Audited (handle env c w).2 := by
  rcases handle_cases env c w with ⟨e, -, h⟩ | ⟨-, h⟩ <;> rw [h]
  · exact hw
  · show (((w.after (env.scan w.calls) c).store.remediationActions.rows.map _).Sublist _)
    rw [World.after_actions]
    cases c with
    | createAction =>
      simp only [World.after_recorded, Call.actions, Call.audit, Table.rows_insert, List.map_append,
        Option.toList_some]
      exact hw.append (List.Sublist.refl _)
    | markResult actionId status reason completedAt =>
      simp only [World.after_recorded, Call.actions, Call.audit, map_identity_modify,
        Option.toList_none, List.append_nil]
      exact hw
    | pruneTerminalBefore =>
      simp only [World.after_recorded, Call.actions, Call.audit, Option.toList_none,
        List.append_nil]
      exact (List.filter_sublist.map _).trans hw
    | _ => exact (World.after_recorded ..).symm ▸ (List.append_nil w.recorded).symm ▸ hw

/-- The recorded decisions have pairwise different ids, all of them given out already. -/
structure Numbered (w : World) : Prop where
  nodup : (w.recorded.map RemediationActionRecord.id).Nodup
  lt_next : ∀ x ∈ w.recorded, x.id < w.store.remediationActions.next

theorem numbered_fresh : Numbered .fresh := ⟨List.nodup_nil, by simp [World.fresh]⟩

theorem Call.next_actions_of_audit {c : Call} {scan : Scan} {σ : Store}
    (hc : ∀ n, c.audit n = none) : (c.actions scan σ).next = σ.remediationActions.next := by
  cases c with
  | createAction => cases hc 0
  | _ => rfl

theorem Numbered.step (env : Environment) (c : Call) {w : World} (hw : Numbered w) :
    Numbered (handle env c w).2 := by
  rcases handle_cases env c w with ⟨e, -, h⟩ | ⟨-, h⟩ <;> rw [h]
  · exact ⟨hw.nodup, hw.lt_next⟩
  · by_cases hc : ∀ n, c.audit n = none
    · have hrecorded : (w.after (env.scan w.calls) c).recorded = w.recorded := by
        rw [World.after_recorded, hc, Option.toList_none, List.append_nil]
      refine ⟨hrecorded ▸ hw.nodup, fun x hx => ?_⟩
      rw [World.after_actions, Call.next_actions_of_audit hc]
      exact hw.lt_next x (hrecorded ▸ hx)
    · cases c with
      | createAction =>
        constructor
        · rw [World.after_recorded, List.map_append, List.nodup_append]
          refine ⟨hw.nodup, List.nodup_singleton _, ?_⟩
          rintro i hi _ hj rfl
          obtain ⟨x, hx, rfl⟩ := List.mem_map.1 hi
          have hnext : x.id = w.store.remediationActions.next := List.mem_singleton.1 hj
          have hlt := hw.lt_next x hx
          omega
        · intro x hx
          rw [World.after_actions]
          show x.id < w.store.remediationActions.next + 1
          rcases List.mem_append.1 hx with hx | hx
          · have hlt := hw.lt_next x hx
            omega
          · obtain rfl := List.mem_singleton.1 hx
            exact Nat.lt_succ_self _
      | _ => exact absurd (fun _ => rfl) hc

/-- The alerts of the rows are among the alerts that were decided on. -/
theorem Audited.alertId_sublist {w : World} (hw : Audited w) :
    (w.store.remediationActions.rows.map RemediationActionRecord.alertId).Sublist
      (w.recorded.map RemediationActionRecord.alertId) := by
  have h := hw.map RemediationActionRecord.alertId
  rwa [List.map_map, List.map_map] at h

end ClusterPulse
