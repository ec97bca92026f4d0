import ClusterPulse.Proof.Discipline

/-!
# One decision for an alert, despite failures

`decide` commits the audit row and `mark_remediated` the marker on the alert, in two transactions.
As long as the second one never fails in a run, every other call may: an alert is still decided on at
most once.  Where it fails, the alert looks undecided, and the next push decides again.
-/

namespace ClusterPulse

open Prog

theorem audited_timeline {env : Environment} {ops : List Operation} :
    ∀ x ∈ Operation.timeline env ops .fresh, Audited x.after := by
  have hlinked : Linked (fun _ w w' => Audited w → Audited w') .fresh
      (Operation.timeline env ops .fresh) :=
    timeline_linked (fun op _ w _ => (runs_of_forall (fun c w => Audited.step env c) op.program))
      trivial
  exact fun x hx => (hlinked.invariant Audited (fun _ _ _ h => h) audited_fresh x hx).2

/-- The environment that differs only in that no call of `mark_remediated` fails. -/
def Environment.marking (env : Environment) : Environment where
  fault
    | _, .markRemediated .. => none
    | n, c => env.fault n c
  scan := env.scan

theorem Environment.marking_marksRemediated (env : Environment) : env.marking.MarksRemediated :=
  fun _ _ _ => rfl

theorem handle_marking {env : Environment} {c : Call} {w : World}
    (hmark : ∀ i t, c = .markRemediated i t → env.fault w.calls c = none) :
    handle env.marking c w = handle env c w := by
  have hfault : env.marking.fault w.calls c = env.fault w.calls c := by
    cases c with
    | markRemediated i t => exact (hmark i t rfl).symm
    | _ => rfl
  unfold handle
  rw [hfault]
  rfl

/-- In a run in which no call of `mark_remediated` fails, while any other may. -/
theorem decided_once_of_marksRemediated {env : Environment} {ops : List Operation}
    (hops : ∀ op ∈ ops, op.Configured)
    (hmark : ∀ x ∈ (serial (ops.map Operation.program)).trace (handle env) .fresh,
      ∀ i t, x.1 = .markRemediated i t → env.fault x.2.calls x.1 = none) :
    ∀ x ∈ Operation.timeline env ops .fresh,
      (x.after.recorded.map RemediationActionRecord.alertId).Nodup ∧
        (x.after.store.remediationActions.rows.map RemediationActionRecord.alertId).Nodup := by
  have hsame : Operation.timeline env.marking ops .fresh = Operation.timeline env ops .fresh :=
    timeline_congr fun x hx => handle_marking (hmark x hx)
  intro x hx
  have hT := timeline_linked_alertStep env.marking_marksRemediated hops
  rw [hsame] at hT
  have hrecorded := (hT.invariant Disciplined (fun _ _ _ => Disciplined.step) disciplined_fresh
    x hx).2.decided_once
  exact ⟨hrecorded, hrecorded.sublist (audited_timeline x hx).alertId_sublist⟩

namespace Scenario

/-- The seventeenth call fails; in `retry` this is the marker on the first decision. -/
def failsOnce : Environment where
  fault n _ := if n = 16 then some (.persistenceError "failed to mark alert remediated") else none
  scan _ i := i

def retry : List Operation := [push 0 95, push 1000 96, push 2000 97, push 5000 98]

theorem retry_configured : ∀ op ∈ retry, op.Configured := by
  intro op hop
  simp only [retry, List.mem_cons, List.not_mem_nil, or_false] at hop
  rcases hop with rfl | rfl | rfl | rfl <;> exact push_configured _ _

/-- The retry dispatches the playbook a second time. -/
example : ((Operation.runAll failsOnce retry .fresh).store.remediationActions.rows.map fun a =>
    (a.alertId, a.status)) = [(1, .dispatched), (1, .dispatched)] := by
  decide +kernel

/-- Not every run of ingestions with failing calls decides at most once. -/
theorem not_decided_once :
    ¬ ∀ (env : Environment) (ops : List Operation), (∀ op ∈ ops, op.Configured ∧ op.IsIngest) →
      ∀ x ∈ Operation.timeline env ops .fresh,
        (x.after.store.remediationActions.rows.map RemediationActionRecord.alertId).Nodup := by
  intro h
  have hingest : ∀ op ∈ retry, op.IsIngest := by
    intro op hop
    simp only [retry, List.mem_cons, List.not_mem_nil, or_false] at hop
    rcases hop with rfl | rfl | rfl | rfl <;> trivial
  have hall := h failsOnce retry fun op hop => ⟨retry_configured op hop, hingest op hop⟩
  exact absurd hall (by decide +kernel)

/-- The decision itself fails once. -/
def failsElsewhere : Environment where
  fault n
    | .createAction .. => if n = 15 then some (.persistenceError "failed to record") else none
    | _ => none
  scan _ i := i

theorem decided_once_retry :
    (∀ x ∈ Operation.timeline failsElsewhere retry .fresh,
      (x.after.recorded.map RemediationActionRecord.alertId).Nodup ∧
        (x.after.store.remediationActions.rows.map RemediationActionRecord.alertId).Nodup) ∧
      (Operation.runAll failsElsewhere retry .fresh).recorded.map
        RemediationActionRecord.createdAt = [(clock 5000).instant] :=
  ⟨decided_once_of_marksRemediated retry_configured fun x _ i t hx => by rw [hx]; rfl,
    by decide +kernel⟩

end Scenario

end ClusterPulse
