import ClusterPulse.Lib.Table
import ClusterPulse.Shared.Contracts
import Mathlib.Data.List.MinMax

/-!
# The Collector's tables and repositories

The rows of the four tables, and each repository method as a function of the tables: what it
answers and the tables it leaves.  A method is one committed transaction.  Rows are re-read from
the database by every method: the session's identity map is weak and no row object outlives the
method that loaded it.

A query without `ORDER BY` may meet the rows in any order, so the methods that keep only some of
the qualifying rows take the order of the scan as an argument.
-/

namespace ClusterPulse

/-! ## The latest row -/

section Latest

variable {α : Type} {time : α → Instant} {rows rows' : List α} {a b : α}

/-- The first of the rows with the latest time.  The order of the instants is given by name, as a
search for one may end in an order that does not compute. -/
def latest (time : α → Instant) (rows : List α) : Option α :=
  @List.argmax α ℤ Int.instLinearOrder.toPreorder Int.decLt time rows

theorem mem_of_latest (h : latest time rows = some a) : a ∈ rows :=
  @List.argmax_mem α ℤ Int.instLinearOrder.toPreorder Int.decLt time rows a h

theorem le_of_latest (h : latest time rows = some a) (hb : b ∈ rows) : time b ≤ time a :=
  @List.le_of_mem_argmax α ℤ Int.instLinearOrder time rows b a hb h

theorem latest_eq_none_iff : latest time rows = none ↔ rows = [] :=
  @List.argmax_eq_none α ℤ Int.instLinearOrder.toPreorder Int.decLt time rows

/-- The first row stays unless a later one comes behind it. -/
theorem latest_cons_of_le (h : ∀ b ∈ rows, time b ≤ time a) : latest time (a :: rows) = some a := by
  unfold latest
  rw [@List.argmax_cons α ℤ Int.instLinearOrder time a rows]
  rcases hrest : @List.argmax α ℤ Int.instLinearOrder.toPreorder Int.decLt time rows with _ | b
  · rfl
  · have hb : b ∈ rows := mem_of_latest hrest
    exact if_neg (not_lt.2 (h b hb))

/-- The latest time does not depend on the order of the rows. -/
theorem map_latest_eq (h : ∀ a ∈ rows, ∃ b ∈ rows', time b = time a)
    (h' : ∀ b ∈ rows', ∃ a ∈ rows, time a = time b) :
    (latest time rows).map time = (latest time rows').map time :=
  @map_argmax_eq α ℤ Int.instLinearOrder time rows rows' h h'

end Latest

/-! ## Rows -/

/-- A node registry row. -/
structure NodeRecord where
  nodeId : String
  firstSeenAt : Instant
  lastSeenAt : Instant
deriving DecidableEq, Repr

/-- A persisted metric sample. -/
structure MetricSampleModel where
  id : ℕ
  nodeId : String
  metricType : MetricType
  value : Double
  unit : String
  labels : StrDict
  collectedAt : Instant
  receivedAt : Instant
deriving DecidableEq, Repr

/-- A persisted alert. -/
structure AlertRecord where
  id : ℕ
  nodeId : String
  ruleKey : String
  ruleKind : RuleKind
  severity : Severity
  status : AlertStatus
  description : String
  triggeringValue : Double
  bound : Double
  firstFiredAt : Instant
  lastFiredAt : Instant
  resolvedAt : Option Instant
  acknowledgedAt : Option Instant
  acknowledgedBy : Option String
  escalatedAt : Option Instant
  remediatedAt : Option Instant
deriving DecidableEq, Repr

/-- A persisted remediation decision: one row of the audit log. -/
structure RemediationActionRecord where
  id : ℕ
  nodeId : String
  alertId : ℕ
  ruleKey : String
  playbookName : String
  actionType : PlaybookActionType
  parameters : StrDict
  status : RemediationActionStatus
  reason : Option String
  createdAt : Instant
  completedAt : Option Instant
deriving DecidableEq, Repr

/-- The Collector's database. -/
structure Store where
  nodes : List NodeRecord
  metricSamples : Table MetricSampleModel MetricSampleModel.id
  alerts : Table AlertRecord AlertRecord.id
  remediationActions : Table RemediationActionRecord RemediationActionRecord.id
deriving DecidableEq

/-- The database of a fresh deployment. -/
def Store.empty : Store := ⟨[], .empty, .empty, .empty⟩

/-- The order in which the database ranks the rows of a table when it scans it. -/
abbrev Scan : Type := ℕ → ℕ

/-! ## The node registry -/

namespace NodeRepository

/-- Create the node on first sighting, or set its `lastSeenAt`. -/
def upsertSeen (σ : Store) (nodeId : String) (seenAt : Datetime) : NodeRecord × Store :=
  match σ.nodes.find? fun n => n.nodeId == nodeId with
  | none =>
    let node : NodeRecord := ⟨nodeId, seenAt.instant, seenAt.instant⟩
    (node, { σ with nodes := σ.nodes ++ [node] })
  | some node =>
    ({ node with lastSeenAt := seenAt.instant },
      { σ with nodes := σ.nodes.map fun n =>
          if n.nodeId = nodeId then { n with lastSeenAt := seenAt.instant } else n })

/-- Every known node record. -/
def listAll (scan : Scan) (σ : Store) : List NodeRecord := reorder scan σ.nodes

variable {σ : Store} {nodeId : String} {seenAt : Datetime} {n : NodeRecord}

theorem mem_upsertSeen_of_ne (hn : n.nodeId ≠ nodeId) :
    n ∈ (upsertSeen σ nodeId seenAt).2.nodes ↔ n ∈ σ.nodes := by
  unfold upsertSeen
  cases hfind : σ.nodes.find? fun n => n.nodeId == nodeId with
  | none =>
    have hother : n ≠ ⟨nodeId, seenAt.instant, seenAt.instant⟩ := fun h => hn (h ▸ rfl)
    simp [hother]
  | some node =>
    constructor
    · intro h
      obtain ⟨n₀, hn₀, rfl⟩ := List.mem_map.1 h
      split_ifs at hn ⊢ with hid
      · exact absurd hid hn
      · exact hn₀
    · exact fun h => List.mem_map.2 ⟨n, h, if_neg hn⟩

/-- The row of the node has the time, and was first seen when it was, or just now. -/
theorem of_mem_upsertSeen (h : n ∈ (upsertSeen σ nodeId seenAt).2.nodes) (hn : n.nodeId = nodeId) :
    n.lastSeenAt = seenAt.instant ∧
      ((∃ n₀ ∈ σ.nodes, n₀.nodeId = nodeId ∧ n.firstSeenAt = n₀.firstSeenAt) ∨
        (∀ n₀ ∈ σ.nodes, n₀.nodeId ≠ nodeId) ∧ n.firstSeenAt = seenAt.instant) := by
  unfold upsertSeen at h
  cases hfind : σ.nodes.find? fun n => n.nodeId == nodeId with
  | none =>
    have hnew := find?_key_eq_none_iff.1 hfind
    rw [hfind] at h
    rcases List.mem_append.1 h with h | h
    · exact absurd hn (hnew n h)
    · rw [List.mem_singleton.1 h]
      exact ⟨rfl, .inr ⟨hnew, rfl⟩⟩
  | some node =>
    rw [hfind] at h
    obtain ⟨n₀, hn₀, rfl⟩ := List.mem_map.1 h
    split_ifs at hn ⊢ with hid
    · exact ⟨rfl, .inl ⟨n₀, hn₀, hid, rfl⟩⟩
    · exact absurd hn hid

theorem exists_mem_upsertSeen (σ : Store) (nodeId : String) (seenAt : Datetime) :
    ∃ n ∈ (upsertSeen σ nodeId seenAt).2.nodes, n.nodeId = nodeId := by
  unfold upsertSeen
  cases hfind : σ.nodes.find? fun n => n.nodeId == nodeId with
  | none => exact ⟨_, List.mem_append_right _ (List.mem_singleton_self _), rfl⟩
  | some node =>
    have hid : node.nodeId = nodeId := by simpa using List.find?_some hfind
    refine ⟨_, List.mem_map_of_mem (List.mem_of_find?_eq_some hfind), ?_⟩
    rw [if_pos hid]
    exact hid

theorem alerts_upsertSeen (σ : Store) (nodeId : String) (seenAt : Datetime) :
    (upsertSeen σ nodeId seenAt).2.alerts = σ.alerts := by
  unfold upsertSeen
  split <;> rfl

theorem nodup_upsertSeen (nodeId : String) (seenAt : Datetime)
    (h : (σ.nodes.map NodeRecord.nodeId).Nodup) :
    ((upsertSeen σ nodeId seenAt).2.nodes.map NodeRecord.nodeId).Nodup := by
  unfold upsertSeen
  cases hfind : σ.nodes.find? fun n => n.nodeId == nodeId with
  | none =>
    have hnew : nodeId ∉ σ.nodes.map NodeRecord.nodeId := by
      simpa using find?_key_eq_none_iff.1 hfind
    simp only [List.map_append, List.map_singleton]
    refine List.nodup_append.2 ⟨h, List.nodup_singleton _, fun k hk k' hk' heq => hnew ?_⟩
    rw [← List.mem_singleton.1 hk', ← heq]
    exact hk
  | some node =>
    have hsame : (NodeRecord.nodeId ∘ fun n : NodeRecord =>
        if n.nodeId = nodeId then { n with lastSeenAt := seenAt.instant } else n) =
          NodeRecord.nodeId := by
      funext n
      rw [Function.comp_apply]
      split_ifs <;> rfl
    rw [List.map_map, hsame]
    exact h

end NodeRepository

/-! ## Metric samples -/

namespace MetricsRepository

/-- Persist one sample. -/
def insertSample (nodeId : String) (collectedAt : Datetime) (receivedAt : Instant)
    (t : Table MetricSampleModel MetricSampleModel.id) (sample : MetricSample) :
    Table MetricSampleModel MetricSampleModel.id :=
  t.insert (fun id => ⟨id, nodeId, sample.metricType, sample.value, sample.unit, sample.labels,
    collectedAt.instant, receivedAt⟩) fun _ => rfl

/-- Persist every sample of a payload in one transaction. -/
def bulkInsert (σ : Store) (nodeId : String) (samples : List MetricSample) (collectedAt : Datetime)
    (receivedAt : Instant) : Store :=
  { σ with metricSamples :=
      samples.foldl (insertSample nodeId collectedAt receivedAt) σ.metricSamples }

/-- The most recent sample in `[before - windowSeconds, before)`. -/
def findPreviousSample (scan : Scan) (σ : Store) (nodeId : String) (metricType : MetricType)
    (before : Datetime) (windowSeconds : Double) : Except PyError (Option MetricSampleModel) := do
  let window ← Timedelta.ofSeconds windowSeconds
  let since ← before.minus window
  return latest MetricSampleModel.collectedAt ((reorder scan σ.metricSamples.rows).filter fun s =>
    s.nodeId == nodeId && s.metricType == metricType && decide (s.collectedAt < before.instant) &&
      decide (since.instant ≤ s.collectedAt))

/-- Delete up to `batchSize` samples received before `cutoff`. -/
def pruneSamplesBefore (scan : Scan) (σ : Store) (cutoff : Instant) (batchSize : ℕ) : ℕ × Store :=
  let doomed := (((reorder scan σ.metricSamples.rows).filter fun s =>
    decide (s.receivedAt < cutoff)).take batchSize).map MetricSampleModel.id
  (doomed.length, { σ with metricSamples := σ.metricSamples.delete fun s => doomed.contains s.id })

end MetricsRepository

/-! ## Alerts -/

namespace AlertRepository

/-- The row test of `find_open_alert`. -/
def isOpen (nodeId ruleKey : String) (a : AlertRecord) : Bool :=
  a.nodeId == nodeId && a.ruleKey == ruleKey && a.status == .firing

/-- A currently firing alert for `(nodeId, ruleKey)`, if any. -/
def findOpenAlert (scan : Scan) (σ : Store) (nodeId ruleKey : String) : Option AlertRecord :=
  (reorder scan σ.alerts.rows).find? (isOpen nodeId ruleKey)

/-- The row `create_alert` inserts. -/
def newAlert (nodeId ruleKey : String) (ruleKind : RuleKind) (severity : Severity)
    (description : String) (triggeringValue bound : Double) (firedAt : Datetime) (id : ℕ) :
    AlertRecord where
  id
  nodeId
  ruleKey
  ruleKind
  severity
  status := .firing
  description
  triggeringValue
  bound
  firstFiredAt := firedAt.instant
  lastFiredAt := firedAt.instant
  resolvedAt := none
  acknowledgedAt := none
  acknowledgedBy := none
  escalatedAt := none
  remediatedAt := none

theorem id_newAlert (nodeId ruleKey : String) (ruleKind : RuleKind) (severity : Severity)
    (description : String) (triggeringValue bound : Double) (firedAt : Datetime) (id : ℕ) :
    (newAlert nodeId ruleKey ruleKind severity description triggeringValue bound firedAt id).id =
      id := rfl

/-- Open a new alert in the `firing` state. -/
def createAlert (σ : Store) (nodeId ruleKey : String) (ruleKind : RuleKind) (severity : Severity)
    (description : String) (triggeringValue bound : Double) (firedAt : Datetime) :
    AlertRecord × Store :=
  let row := newAlert nodeId ruleKey ruleKind severity description triggeringValue bound firedAt
  (row σ.alerts.next, { σ with alerts := σ.alerts.insert row fun _ => id_newAlert .. })

/-- Load the row with id `alertId`, write `f` to it and commit; raise if there is no such row. -/
def update (σ : Store) (alertId : ℕ) (errorMessage : String) (f : AlertRecord → AlertRecord)
    (hf : ∀ a, (f a).id = a.id) : Except PyError AlertRecord × Store :=
  match σ.alerts.get? alertId with
  | none => (.error (.persistenceError (errorMessage ++ ": alert not found")), σ)
  | some row => (.ok (f row), { σ with alerts := σ.alerts.modify alertId f hf })

/-- The write of `update_last_fired`. -/
def advanced (triggeringValue : Double) (firedAt : Datetime) (a : AlertRecord) : AlertRecord :=
  { a with triggeringValue, lastFiredAt := firedAt.instant }

/-- The write of `resolve_alert`. -/
def resolved (resolvedAt : Datetime) (a : AlertRecord) : AlertRecord :=
  { a with status := .resolved, resolvedAt := some resolvedAt.instant }

/-- The write of `acknowledge_alert`. -/
def acknowledged (acknowledgedBy : String) (acknowledgedAt : Instant) (a : AlertRecord) :
    AlertRecord :=
  { a with acknowledgedBy := some acknowledgedBy, acknowledgedAt := some acknowledgedAt }

/-- The write of `escalate_alert`. -/
def escalated (escalatedAt : Datetime) (a : AlertRecord) : AlertRecord :=
  { a with escalatedAt := some escalatedAt.instant }

/-- The write of `mark_remediated`. -/
def remediated (remediatedAt : Datetime) (a : AlertRecord) : AlertRecord :=
  { a with remediatedAt := some remediatedAt.instant }

section Id

variable (a : AlertRecord)

theorem id_advanced (triggeringValue : Double) (firedAt : Datetime) :
    (advanced triggeringValue firedAt a).id = a.id := rfl

theorem id_resolved (resolvedAt : Datetime) : (resolved resolvedAt a).id = a.id := rfl

theorem id_acknowledged (acknowledgedBy : String) (acknowledgedAt : Instant) :
    (acknowledged acknowledgedBy acknowledgedAt a).id = a.id := rfl

theorem id_escalated (escalatedAt : Datetime) : (escalated escalatedAt a).id = a.id := rfl

theorem id_remediated (remediatedAt : Datetime) : (remediated remediatedAt a).id = a.id := rfl

end Id

def updateLastFired (σ : Store) (alertId : ℕ) (triggeringValue : Double) (firedAt : Datetime) :
    Except PyError AlertRecord × Store :=
  update σ alertId "failed to advance alert" (advanced triggeringValue firedAt)
    (id_advanced · triggeringValue firedAt)

def resolveAlert (σ : Store) (alertId : ℕ) (resolvedAt : Datetime) :
    Except PyError AlertRecord × Store :=
  update σ alertId "failed to resolve alert" (resolved resolvedAt) (id_resolved · resolvedAt)

def acknowledgeAlert (σ : Store) (alertId : ℕ) (acknowledgedBy : String)
    (acknowledgedAt : Instant) : Except PyError AlertRecord × Store :=
  update σ alertId "failed to acknowledge alert" (acknowledged acknowledgedBy acknowledgedAt)
    (id_acknowledged · acknowledgedBy acknowledgedAt)

def escalateAlert (σ : Store) (alertId : ℕ) (escalatedAt : Datetime) :
    Except PyError AlertRecord × Store :=
  update σ alertId "failed to escalate alert" (escalated escalatedAt)
    (id_escalated · escalatedAt)

def markRemediated (σ : Store) (alertId : ℕ) (remediatedAt : Datetime) :
    Except PyError AlertRecord × Store :=
  update σ alertId "failed to mark alert remediated" (remediated remediatedAt)
    (id_remediated · remediatedAt)

/-- Whether a remediation action still refers to the alert. -/
def isReferenced (σ : Store) (a : AlertRecord) : Bool :=
  σ.remediationActions.rows.any fun action => action.alertId == a.id

/-- Delete up to `batchSize` unreferenced alerts resolved before `cutoff`. -/
def pruneResolvedBefore (scan : Scan) (σ : Store) (cutoff : Instant) (batchSize : ℕ) : ℕ × Store :=
  let doomed := (((reorder scan σ.alerts.rows).filter fun a =>
    a.status == .resolved && a.resolvedAt.any (fun t => decide (t < cutoff)) &&
      !isReferenced σ a).take batchSize).map AlertRecord.id
  (doomed.length, { σ with alerts := σ.alerts.delete fun a => doomed.contains a.id })

end AlertRepository

/-! ## Remediation actions -/

namespace RemediationActionRepository

/-- The row `create_action` inserts. -/
def newAction (nodeId : String) (alertId : ℕ) (ruleKey playbookName : String)
    (actionType : PlaybookActionType) (parameters : StrDict) (status : RemediationActionStatus)
    (reason : Option String) (createdAt : Datetime) (id : ℕ) : RemediationActionRecord where
  id
  nodeId
  alertId
  ruleKey
  playbookName
  actionType
  parameters
  status
  reason
  createdAt := createdAt.instant
  completedAt := none

theorem id_newAction (nodeId : String) (alertId : ℕ) (ruleKey playbookName : String)
    (actionType : PlaybookActionType) (parameters : StrDict) (status : RemediationActionStatus)
    (reason : Option String) (createdAt : Datetime) (id : ℕ) :
    (newAction nodeId alertId ruleKey playbookName actionType parameters status reason createdAt
      id).id = id := rfl

/-- Record a new remediation decision. -/
def createAction (σ : Store) (nodeId : String) (alertId : ℕ) (ruleKey playbookName : String)
    (actionType : PlaybookActionType) (parameters : StrDict) (status : RemediationActionStatus)
    (reason : Option String) (createdAt : Datetime) : RemediationActionRecord × Store :=
  let row := newAction nodeId alertId ruleKey playbookName actionType parameters status reason
    createdAt
  (row σ.remediationActions.next,
    { σ with remediationActions := σ.remediationActions.insert row fun _ => id_newAction .. })

/-- The write of `mark_result`. -/
def marked (status : RemediationActionStatus) (reason : Option String) (completedAt : Instant)
    (a : RemediationActionRecord) : RemediationActionRecord :=
  { a with status, reason, completedAt := some completedAt }

theorem id_marked (status : RemediationActionStatus) (reason : Option String)
    (completedAt : Instant) (a : RemediationActionRecord) :
    (marked status reason completedAt a).id = a.id := rfl

/-- Record the terminal outcome of a dispatched action, whatever its row holds. -/
def markResult (σ : Store) (actionId : ℕ) (status : RemediationActionStatus)
    (reason : Option String) (completedAt : Instant) :
    Except PyError RemediationActionRecord × Store :=
  match σ.remediationActions.get? actionId with
  | none =>
    (.error (.persistenceError "failed to mark remediation action result: action not found"), σ)
  | some row =>
    let actions := σ.remediationActions.modify actionId (marked status reason completedAt)
      (id_marked status reason completedAt)
    (.ok (marked status reason completedAt row), { σ with remediationActions := actions })

/-- Count the actions created for `nodeId` at or after `since`, in any status. -/
def countRecentActions (σ : Store) (nodeId : String) (since : Datetime) : ℕ :=
  σ.remediationActions.rows.countP fun a =>
    a.nodeId == nodeId && decide (since.instant ≤ a.createdAt)

/-- The most recently created action for `(nodeId, playbookName)`. -/
def findLastAction (scan : Scan) (σ : Store) (nodeId playbookName : String) :
    Option RemediationActionRecord :=
  latest RemediationActionRecord.createdAt ((reorder scan σ.remediationActions.rows).filter
    fun a => a.nodeId == nodeId && a.playbookName == playbookName)

/-- Every `DISPATCHED` action created before `cutoff`. -/
def listDispatchedBefore (scan : Scan) (σ : Store) (cutoff : Instant) :
    List RemediationActionRecord :=
  (reorder scan σ.remediationActions.rows).filter fun a =>
    a.status == .dispatched && decide (a.createdAt < cutoff)

/-- Delete up to `batchSize` terminal actions created before `cutoff`. -/
def pruneTerminalBefore (scan : Scan) (σ : Store) (cutoff : Instant) (batchSize : ℕ) : ℕ × Store :=
  let doomed := (((reorder scan σ.remediationActions.rows).filter fun a =>
    a.status != .dispatched && decide (a.createdAt < cutoff)).take batchSize).map
      RemediationActionRecord.id
  (doomed.length,
    { σ with remediationActions := σ.remediationActions.delete fun a => doomed.contains a.id })

end RemediationActionRepository

end ClusterPulse
