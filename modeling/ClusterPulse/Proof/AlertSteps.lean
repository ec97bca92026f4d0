import ClusterPulse.Proof.Effects

/-!
# What one call can do to an alert

`AlertStep` is the alert lifecycle as a step relation: how the alerts and the audit log may change
around one call of an operation that runs with the given service.  Only a firing alert is ever
written, escalation and remediation are guarded, and a decision is recorded for an alert that has
none.

`Operation.runs_alertStep` is the inversion: every call of every operation takes one of these steps,
as long as the operation starts from a settled world and no call of `mark_remediated` fails.
-/

namespace ClusterPulse

open AlertRepository

/-! ## The step relation -/

/-- The service an operation runs with. -/
def Operation.service? : Operation → Option AlertEvaluationService
  | .evaluateAndApply svc _ _ _ => some svc
  | .ingest svc _ _ => some svc
  | _ => none

/-- The writes to a firing alert, and what each of them requires of it. -/
inductive AlertWrite (service : Option AlertEvaluationService) (a : AlertRecord) :
    AlertRecord → Prop where
  | advance (triggeringValue : Double) (t : Datetime) :
    AlertWrite service a (advanced triggeringValue t a)
  | resolve (t : Datetime) : AlertWrite service a (resolved t a)
  | acknowledge (acknowledgedBy : String) (t : Instant) :
    AlertWrite service a (acknowledged acknowledgedBy t a)
  | escalate (svc : AlertEvaluationService) (t : Datetime) (hsvc : svc ∈ service)
    (hack : a.acknowledgedAt = none) (hesc : a.escalatedAt = none)
    (hage : svc.escalationAfterSeconds ≤ Timedelta.totalSeconds (t.instant - a.firstFiredAt)) :
    AlertWrite service a (escalated t a)
  | remediate (svc : AlertEvaluationService) (t : Datetime) (hsvc : svc ∈ service)
    (hack : a.acknowledgedAt = none) (hrem : a.remediatedAt = none)
    (hesc : a.escalatedAt.isSome)
    (hage : svc.remediationAfterSeconds ≤ Timedelta.totalSeconds (t.instant - a.firstFiredAt)) :
    AlertWrite service a (remediated t a)

/-- How the alerts may change. -/
inductive AlertChange (service : Option AlertEvaluationService) (t : AlertTable) :
    AlertTable → Prop where
  | keep : AlertChange service t t
  | insert (mk : ℕ → AlertRecord) (hmk : ∀ n, (mk n).id = n) (hfiring : (mk t.next).status = .firing)
    (hesc : (mk t.next).escalatedAt = none) (hrem : (mk t.next).remediatedAt = none) :
    AlertChange service t (t.insert mk hmk)
  | write (i : ℕ) (f : AlertRecord → AlertRecord) (hf : ∀ a, (f a).id = a.id) (a : AlertRecord)
    (ha : t.get? i = some a) (hfiring : a.status = .firing) (hw : AlertWrite service a (f a)) :
    AlertChange service t (t.modify i f hf)
  | delete (p : AlertRecord → Bool) (hp : ∀ a ∈ t.rows, p a = true → a.status = .resolved) :
    AlertChange service t (t.delete p)

/-- How the alerts and the audit log may change. -/
inductive AlertStep (service : Option AlertEvaluationService) (w w' : World) : Prop where
  | change (halerts : AlertChange service w.store.alerts w'.store.alerts)
    (hrecorded : w'.recorded = w.recorded)
  | decide (x : RemediationActionRecord) (hfresh : ∀ r ∈ w.recorded, r.alertId ≠ x.alertId)
    (halerts : w'.store.alerts = w.store.alerts) (hrecorded : w'.recorded = w.recorded ++ [x])

/-- Every alert with a recorded decision is marked as remediated. -/
structure Settled (w : World) : Prop where
  alertId_lt : ∀ r ∈ w.recorded, r.alertId < w.store.alerts.next
  remediated : ∀ r ∈ w.recorded, ∀ a, w.store.alerts.get? r.alertId = some a →
    a.remediatedAt.isSome

theorem settled_of_recorded_nil {w : World} (h : w.recorded = []) : Settled w :=
  ⟨by simp [h], by simp [h]⟩

/-- The alerts and the audit log are the same. -/
structure SameAlerts (w w' : World) : Prop where
  alerts : w'.store.alerts = w.store.alerts
  recorded : w'.recorded = w.recorded

theorem SameAlerts.refl (w : World) : SameAlerts w w := ⟨rfl, rfl⟩

theorem SameAlerts.trans {w w' w'' : World} (h : SameAlerts w w') (h' : SameAlerts w' w'') :
    SameAlerts w w'' :=
  ⟨h'.alerts.trans h.alerts, h'.recorded.trans h.recorded⟩

theorem SameAlerts.alertStep {service : Option AlertEvaluationService} {w w' : World}
    (h : SameAlerts w w') : AlertStep service w w' :=
  .change (h.alerts ▸ .keep) h.recorded

theorem SameAlerts.settled {w w' : World} (h : SameAlerts w w') (hw : Settled w) : Settled w' := by
  refine ⟨?_, ?_⟩
  · rw [h.recorded, h.alerts]
    exact hw.alertId_lt
  · rw [h.recorded, h.alerts]
    exact hw.remediated

/-! ## Settled worlds -/

theorem AlertWrite.remediatedAt {service : Option AlertEvaluationService} {a a' : AlertRecord}
    (h : AlertWrite service a a') (ha : a.remediatedAt.isSome) : a'.remediatedAt.isSome := by
  cases h with
  | remediate => rfl
  | _ => exact ha

theorem AlertChange.next_le {service : Option AlertEvaluationService} {t t' : AlertTable}
    (h : AlertChange service t t') : t.next ≤ t'.next := by
  cases h with
  | insert => exact Nat.le_succ _
  | _ => exact le_rfl

/-- A change that records no decision keeps a world settled. -/
theorem Settled.change {service : Option AlertEvaluationService} {w w' : World} (hw : Settled w)
    (halerts : AlertChange service w.store.alerts w'.store.alerts)
    (hrecorded : w'.recorded = w.recorded) : Settled w' := by
  refine ⟨fun r hr => ?_, fun r hr a' ha' => ?_⟩
  · rw [hrecorded] at hr
    exact Nat.lt_of_lt_of_le (hw.alertId_lt r hr) halerts.next_le
  · rw [hrecorded] at hr
    have hlt := hw.alertId_lt r hr
    generalize w'.store.alerts = t' at halerts ha'
    cases halerts with
    | keep => exact hw.remediated r hr a' ha'
    | insert mk hmk =>
      rw [Table.get?_insert, if_neg hlt.ne] at ha'
      exact hw.remediated r hr a' ha'
    | write i f hf a ha hfiring hwrite =>
      by_cases hi : r.alertId = i
      · rw [hi, Table.get?_modify_self, ha, Option.map_some, Option.some.injEq] at ha'
        subst ha'
        exact hwrite.remediatedAt (hw.remediated r hr a (hi ▸ ha))
      · rw [Table.get?_modify_of_ne hi] at ha'
        exact hw.remediated r hr a' ha'
    | delete p hp =>
      rw [Table.get?_delete, Option.filter_eq_some_iff] at ha'
      exact hw.remediated r hr a' ha'.1

/-- After a decision for alert `i`: every other alert with a recorded decision is marked. -/
structure Deciding (i : ℕ) (w : World) : Prop where
  alertId_lt : ∀ r ∈ w.recorded, r.alertId < w.store.alerts.next
  remediated : ∀ r ∈ w.recorded, r.alertId ≠ i → ∀ a, w.store.alerts.get? r.alertId = some a →
    a.remediatedAt.isSome

theorem Settled.decide {w w' : World} {x : RemediationActionRecord} (hw : Settled w)
    (hx : x.alertId < w.store.alerts.next) (halerts : w'.store.alerts = w.store.alerts)
    (hrecorded : w'.recorded = w.recorded ++ [x]) : Deciding x.alertId w' := by
  refine ⟨fun r hr => ?_, fun r hr hne => ?_⟩
  · rw [halerts]
    rw [hrecorded, List.mem_append, List.mem_singleton] at hr
    rcases hr with hr | rfl
    · exact hw.alertId_lt r hr
    · exact hx
  · rw [halerts]
    rw [hrecorded, List.mem_append, List.mem_singleton] at hr
    rcases hr with hr | rfl
    · exact hw.remediated r hr
    · exact absurd rfl hne

/-- Marking the alert that was decided on settles the world. -/
theorem Deciding.mark {i : ℕ} {w w' : World} {f : AlertRecord → AlertRecord}
    (hf : ∀ a, (f a).id = a.id) (hw : Deciding i w) (hmark : ∀ a, (f a).remediatedAt.isSome)
    (halerts : w'.store.alerts = w.store.alerts.modify i f hf)
    (hrecorded : w'.recorded = w.recorded) : Settled w' := by
  refine ⟨fun r hr => ?_, fun r hr a' ha' => ?_⟩
  · rw [halerts, Table.next_modify]
    exact hw.alertId_lt r (hrecorded ▸ hr)
  · rw [halerts, Table.get?_modify] at ha'
    split_ifs at ha' with hi
    · obtain ⟨a, -, rfl⟩ := Option.map_eq_some_iff.1 ha'
      exact hmark a
    · exact hw.remediated r (hrecorded ▸ hr) hi a' ha'

/-! ## Single calls -/

/-- No call of `mark_remediated` fails. -/
def Environment.MarksRemediated (env : Environment) : Prop :=
  ∀ n i t, env.fault n (.markRemediated i t) = none

theorem Environment.Faultless.marksRemediated {env : Environment} (h : env.Faultless) :
    env.MarksRemediated := fun n _ _ => h n _

variable {env : Environment} {service : Option AlertEvaluationService} {w : World}

/-- A call that records no decision, from a settled world. -/
theorem Call.runs_change {c : Call} (hw : Settled w) (haudit : ∀ n, c.audit n = none)
    (hc : ∀ scan, AlertChange service w.store.alerts (c.alerts scan w.store)) :
    Prog.Runs (handle env) (AlertStep service) c.perform w (Prog.Ends
      (fun a w' => Settled w' ∧ w'.recorded = w.recorded ∧
        ∃ scan, (exec scan c w.store).1 = .ok a ∧ w'.store.alerts = c.alerts scan w.store)
      fun _ => Settled) := by
  refine Call.runs_perform (fun e _ => ?_) (fun _ => ?_)
  · have hsame : SameAlerts w { w with calls := w.calls + 1 } := ⟨rfl, rfl⟩
    exact ⟨hsame.alertStep, hsame.settled hw⟩
  · have hrecorded : (w.after (env.scan w.calls) c).recorded = w.recorded := by simp [haudit]
    have halerts : AlertChange service w.store.alerts (w.after (env.scan w.calls) c).store.alerts :=
      World.after_alerts .. ▸ hc _
    refine ⟨.change halerts hrecorded, ?_⟩
    rcases hr : (exec (env.scan w.calls) c w.store).1 with e | a
    · exact hw.change halerts hrecorded
    · exact ⟨hw.change halerts hrecorded, hrecorded, _, hr, World.after_alerts ..⟩

/-- The call leaves the alerts alone and records no decision. -/
structure Call.Quiet (c : Call) : Prop where
  alerts : ∀ scan σ, c.alerts scan σ = σ.alerts
  audit : ∀ n, c.audit n = none

theorem Call.Quiet.runs {c : Call} (hc : c.Quiet) (hw : Settled w) :
    Prog.Runs (handle env) (AlertStep service) c.perform w (Prog.Ends
      (fun a w' => SameAlerts w w' ∧ ∃ scan, (exec scan c w.store).1 = .ok a)
      fun _ => Settled) := by
  refine (Call.runs_change hw hc.audit fun scan => hc.alerts scan _ ▸ .keep).post ?_
  rintro (e | a) w' hQ
  · exact hQ
  · obtain ⟨-, hrecorded, scan, hr, halerts⟩ := hQ
    exact ⟨⟨halerts.trans (hc.alerts _ _), hrecorded⟩, scan, hr⟩

end ClusterPulse
