import ClusterPulse.Collector.Repositories
import ClusterPulse.Lib.Interleaving

/-!
# Repository calls as atomic steps

The services and jobs of the Collector are programs (`Repo`) whose calls are the repository methods
and the notifier.  `exec` is the meaning of a call on the tables; `handle` runs it in an
`Environment`, which decides what the code cannot: which calls fail, committing nothing, and the
order in which the database scans its tables.

A `World` is the database together with what has happened so far: the messages handed to the
notifier, the audit rows as they were first committed, and the number of calls made.
-/

namespace ClusterPulse

/-- A message for the notifier: which of the three texts, and the alert it is rendered from. -/
inductive Notification where
  | opened (alert : AlertRecord)
  | escalated (alert : AlertRecord)
  | resolved (alert : AlertRecord)
deriving DecidableEq, Repr

/-- A call of a repository method or of the notifier. -/
inductive Call where
  | upsertSeen (nodeId : String) (seenAt : Datetime)
  | listAllNodes
  | bulkInsert (nodeId : String) (samples : List MetricSample) (collectedAt : Datetime)
      (receivedAt : Instant)
  | findPreviousSample (nodeId : String) (metricType : MetricType) (before : Datetime)
      (windowSeconds : Double)
  | pruneSamplesBefore (cutoff : Instant) (batchSize : ℕ)
  | findOpenAlert (nodeId ruleKey : String)
  | createAlert (nodeId ruleKey : String) (ruleKind : RuleKind) (severity : Severity)
      (description : String) (triggeringValue bound : Double) (firedAt : Datetime)
  | updateLastFired (alertId : ℕ) (triggeringValue : Double) (firedAt : Datetime)
  | resolveAlert (alertId : ℕ) (resolvedAt : Datetime)
  | acknowledgeAlert (alertId : ℕ) (acknowledgedBy : String) (acknowledgedAt : Instant)
  | escalateAlert (alertId : ℕ) (escalatedAt : Datetime)
  | markRemediated (alertId : ℕ) (remediatedAt : Datetime)
  | getAlert (alertId : ℕ)
  | pruneResolvedBefore (cutoff : Instant) (batchSize : ℕ)
  | createAction (nodeId : String) (alertId : ℕ) (ruleKey playbookName : String)
      (actionType : PlaybookActionType) (parameters : StrDict) (status : RemediationActionStatus)
      (reason : Option String) (createdAt : Datetime)
  | markResult (actionId : ℕ) (status : RemediationActionStatus) (reason : Option String)
      (completedAt : Instant)
  | countRecentActions (nodeId : String) (since : Datetime)
  | findLastAction (nodeId playbookName : String)
  | getAction (actionId : ℕ)
  | listDispatchedBefore (cutoff : Instant)
  | pruneTerminalBefore (cutoff : Instant) (batchSize : ℕ)
  | notify (message : Notification)
deriving DecidableEq

/-- What a call returns when it does not raise. -/
@[reducible] def Call.Res : Call → Type
  | .upsertSeen .. => NodeRecord
  | .listAllNodes => List NodeRecord
  | .bulkInsert .. => Unit
  | .findPreviousSample .. => Option MetricSampleModel
  | .pruneSamplesBefore .. => ℕ
  | .findOpenAlert .. => Option AlertRecord
  | .createAlert .. => AlertRecord
  | .updateLastFired .. => AlertRecord
  | .resolveAlert .. => AlertRecord
  | .acknowledgeAlert .. => AlertRecord
  | .escalateAlert .. => AlertRecord
  | .markRemediated .. => AlertRecord
  | .getAlert .. => Option AlertRecord
  | .pruneResolvedBefore .. => ℕ
  | .createAction .. => RemediationActionRecord
  | .markResult .. => RemediationActionRecord
  | .countRecentActions .. => ℕ
  | .findLastAction .. => Option RemediationActionRecord
  | .getAction .. => Option RemediationActionRecord
  | .listDispatchedBefore .. => List RemediationActionRecord
  | .pruneTerminalBefore .. => ℕ
  | .notify .. => Unit

/-- A program over the repositories. -/
abbrev Repo (α : Type) : Type := Prog Call Call.Res PyError α

/-- The program that makes one call. -/
abbrev Call.perform (c : Call) : Repo c.Res := Prog.perform c

/-- The answer of a call and the tables it leaves, when the database does not fail. -/
def exec (scan : Scan) : (c : Call) → Store → Except PyError c.Res × Store
  | .upsertSeen nodeId seenAt, σ =>
    let (node, σ') := NodeRepository.upsertSeen σ nodeId seenAt
    (.ok node, σ')
  | .listAllNodes, σ => (.ok (NodeRepository.listAll scan σ), σ)
  | .bulkInsert nodeId samples collectedAt receivedAt, σ =>
    (.ok (), MetricsRepository.bulkInsert σ nodeId samples collectedAt receivedAt)
  | .findPreviousSample nodeId metricType before windowSeconds, σ =>
    (MetricsRepository.findPreviousSample scan σ nodeId metricType before windowSeconds, σ)
  | .pruneSamplesBefore cutoff batchSize, σ =>
    let (deleted, σ') := MetricsRepository.pruneSamplesBefore scan σ cutoff batchSize
    (.ok deleted, σ')
  | .findOpenAlert nodeId ruleKey, σ =>
    (.ok (AlertRepository.findOpenAlert scan σ nodeId ruleKey), σ)
  | .createAlert nodeId ruleKey ruleKind severity description triggeringValue bound firedAt, σ =>
    let (alert, σ') := AlertRepository.createAlert σ nodeId ruleKey ruleKind severity description
      triggeringValue bound firedAt
    (.ok alert, σ')
  | .updateLastFired alertId triggeringValue firedAt, σ =>
    AlertRepository.updateLastFired σ alertId triggeringValue firedAt
  | .resolveAlert alertId resolvedAt, σ => AlertRepository.resolveAlert σ alertId resolvedAt
  | .acknowledgeAlert alertId acknowledgedBy acknowledgedAt, σ =>
    AlertRepository.acknowledgeAlert σ alertId acknowledgedBy acknowledgedAt
  | .escalateAlert alertId escalatedAt, σ => AlertRepository.escalateAlert σ alertId escalatedAt
  | .markRemediated alertId remediatedAt, σ =>
    AlertRepository.markRemediated σ alertId remediatedAt
  | .getAlert alertId, σ => (.ok (σ.alerts.get? alertId), σ)
  | .pruneResolvedBefore cutoff batchSize, σ =>
    let (deleted, σ') := AlertRepository.pruneResolvedBefore scan σ cutoff batchSize
    (.ok deleted, σ')
  | .createAction nodeId alertId ruleKey playbookName actionType parameters status reason
      createdAt, σ =>
    let (action, σ') := RemediationActionRepository.createAction σ nodeId alertId ruleKey
      playbookName actionType parameters status reason createdAt
    (.ok action, σ')
  | .markResult actionId status reason completedAt, σ =>
    RemediationActionRepository.markResult σ actionId status reason completedAt
  | .countRecentActions nodeId since, σ =>
    (.ok (RemediationActionRepository.countRecentActions σ nodeId since), σ)
  | .findLastAction nodeId playbookName, σ =>
    (.ok (RemediationActionRepository.findLastAction scan σ nodeId playbookName), σ)
  | .getAction actionId, σ => (.ok (σ.remediationActions.get? actionId), σ)
  | .listDispatchedBefore cutoff, σ =>
    (.ok (RemediationActionRepository.listDispatchedBefore scan σ cutoff), σ)
  | .pruneTerminalBefore cutoff batchSize, σ =>
    let (deleted, σ') := RemediationActionRepository.pruneTerminalBefore scan σ cutoff batchSize
    (.ok deleted, σ')
  | .notify _, σ => (.ok (), σ)

/-! ## The environment of a run -/

/-- What decides the fate of the `n`-th call of a run. -/
structure Environment where
  /-- The exception the call fails with, if it fails; a failed call commits nothing. -/
  fault : ℕ → Call → Option PyError
  /-- The order in which the call scans the tables. -/
  scan : ℕ → Scan

/-- No call fails, and every scan is in insertion order. -/
def Environment.calm : Environment := ⟨fun _ _ => none, fun _ i => i⟩

/-- No call fails. -/
def Environment.Faultless (env : Environment) : Prop := ∀ n c, env.fault n c = none

theorem Environment.calm_faultless : Environment.calm.Faultless := fun _ _ => rfl

/-- The database and what has happened so far. -/
structure World where
  store : Store
  /-- The messages handed to the notifier, in order. -/
  sent : List Notification := []
  /-- The audit rows as they were first committed, in order. -/
  recorded : List RemediationActionRecord := []
  /-- The number of calls made. -/
  calls : ℕ := 0
deriving DecidableEq

/-- A fresh deployment. -/
def World.fresh : World := { store := .empty }

/-- The message a call sends. -/
def Call.message : Call → Option Notification
  | .notify message => some message
  | _ => none

/-- The audit row a call commits. -/
def Call.audit : Call → ℕ → Option RemediationActionRecord
  | .createAction nodeId alertId ruleKey playbookName actionType parameters status reason
      createdAt, id =>
    some (RemediationActionRepository.newAction nodeId alertId ruleKey playbookName actionType
      parameters status reason createdAt id)
  | _, _ => none

/-- The world after a call that did not fail. -/
def World.after (w : World) (scan : Scan) (c : Call) : World where
  store := (exec scan c w.store).2
  sent := w.sent ++ c.message.toList
  recorded := w.recorded ++ (c.audit w.store.remediationActions.next).toList
  calls := w.calls + 1

/-- A call in an environment. -/
def handle (env : Environment) : Handler Call Call.Res PyError World := fun c w =>
  match env.fault w.calls c with
  | some e => (.error e, { w with calls := w.calls + 1 })
  | none => ((exec (env.scan w.calls) c w.store).1, w.after (env.scan w.calls) c)

theorem handle_of_fault {env : Environment} {c : Call} {w : World} {e : PyError}
    (h : env.fault w.calls c = some e) :
    handle env c w = (.error e, { w with calls := w.calls + 1 }) := by
  unfold handle
  rw [h]

theorem handle_of_ok {env : Environment} {c : Call} {w : World} (h : env.fault w.calls c = none) :
    handle env c w = ((exec (env.scan w.calls) c w.store).1, w.after (env.scan w.calls) c) := by
  unfold handle
  rw [h]

end ClusterPulse
