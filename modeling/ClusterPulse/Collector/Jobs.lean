import ClusterPulse.Collector.Calls
import ClusterPulse.Collector.Config

/-!
# The background jobs

The three jobs of the Collector's scheduler.  Reconciliation times out unanswered dispatches,
retention prunes aged rows batch by batch, and staleness opens and resolves an alert for each
silent node.  Every one of them reads its clock once, at the start of a sweep.
-/

namespace ClusterPulse

/-! ## Reconciliation -/

namespace ReconciliationJob

def timedOutReason : String :=
  "dispatch timed out — Agent never reported a result " ++
    "(crash or partition between dispatch and result-report)"

/-- `now - timedelta(seconds=timeout)`. -/
def cutoff (timeoutSeconds : Double) (now : Datetime) : Except PyError Datetime := do
  now.minus (← Timedelta.ofSeconds timeoutSeconds)

/-- One pass of the loop over the listed actions. -/
def timeOut (now : Datetime) (timedOut : ℕ) (action : RemediationActionRecord) : Repo ℕ := do
  let _ ← (Call.markResult action.id .failed (some timedOutReason) now.instant).perform
  return timedOut + 1

/-- One sweep: the count of dispatches timed out. -/
def run (settings : CollectorSettings) (now : Datetime) : Repo ℕ := do
  let cutoff ← Prog.lift (cutoff settings.remediationDispatchTimeoutSeconds now)
  let actions ← (Call.listDispatchedBefore cutoff.instant).perform
  actions.foldlM (timeOut now) 0

end ReconciliationJob

/-! ## Retention -/

/-- What one retention sweep deleted, per table. -/
structure RetentionRunStats where
  remediationActionsDeleted : ℕ
  alertsDeleted : ℕ
  metricSamplesDeleted : ℕ
deriving DecidableEq, Repr

namespace RetentionJob

/-- `now - timedelta(days=n)`. -/
def cutoff (days : ℕ) (now : Datetime) : Except PyError Datetime := do
  now.minus (← Timedelta.ofDays days)

/-- Call `prune` until it reports no more rows.  The process is stopped after `passes` calls, if
the loop has not ended by then. -/
def drain (prune : Repo ℕ) : ℕ → ℕ → Repo ℕ
  | 0, _ => .throw .interrupted
  | passes + 1, total => do
    let deleted ← prune
    if 0 < deleted then drain prune passes (total + deleted) else return total

/-- One full sweep, with at most `passes` batches for each table. -/
def run (settings : CollectorSettings) (now : Datetime) (passes : ℕ) : Repo RetentionRunStats := do
  let batchSize := settings.retentionBatchSize
  let actionsCutoff ← Prog.lift (cutoff settings.remediationActionsRetentionDays now)
  let actionsDeleted ←
    drain (Call.pruneTerminalBefore actionsCutoff.instant batchSize).perform passes 0
  let alertsCutoff ← Prog.lift (cutoff settings.resolvedAlertsRetentionDays now)
  let alertsDeleted ←
    drain (Call.pruneResolvedBefore alertsCutoff.instant batchSize).perform passes 0
  let samplesCutoff ← Prog.lift (cutoff settings.metricsRetentionDays now)
  let samplesDeleted ←
    drain (Call.pruneSamplesBefore samplesCutoff.instant batchSize).perform passes 0
  return ⟨actionsDeleted, alertsDeleted, samplesDeleted⟩

end RetentionJob

/-! ## Staleness -/

/-- The counts of one staleness sweep. -/
structure StalenessCounts where
  stale : ℕ
  opened : ℕ
  resolved : ℕ
deriving DecidableEq, Repr

namespace StalenessJob

/-- `STALENESS_RULE_KEY`, a rule key that no configured rule has. -/
def stalenessRuleKey : String := "staleness:node_heartbeat"

def description (silentFor : ℤ) : String :=
  "Node has stopped reporting (no metrics or heartbeat for " ++ toString silentFor ++ "s)"

def notify (settings : CollectorSettings) (message : Notification) : Repo Unit :=
  if settings.notificationsEnabled then (Call.notify message).perform else return ()

/-- Open the staleness alert of a node that has been silent for `silentSeconds`. -/
def openAlert (settings : CollectorSettings) (now : Datetime) (node : NodeRecord)
    (silentSeconds : Double) : Repo Unit := do
  let silentFor ← Prog.lift (intOfFloat silentSeconds)
  let record ← (Call.createAlert node.nodeId stalenessRuleKey .staleness .critical
    (description silentFor) silentSeconds settings.heartbeatStaleAfterSeconds now).perform
  notify settings (.opened record)

/-- Resolve the staleness alert of a node that pushes again. -/
def resolve (settings : CollectorSettings) (now : Datetime) (openAlert : AlertRecord) :
    Repo Unit := do
  let record ← (Call.resolveAlert openAlert.id now).perform
  notify settings (.resolved record)

/-- One pass of the loop over the nodes. -/
def checkNode (settings : CollectorSettings) (firstRunDone : Bool) (now : Datetime)
    (counts : StalenessCounts) (node : NodeRecord) : Repo StalenessCounts := do
  let silent ← Prog.lift (now.since node.lastSeenAt)
  let openAlert ← (Call.findOpenAlert node.nodeId stalenessRuleKey).perform
  if settings.heartbeatStaleAfterSeconds ≤ silent.totalSeconds then
    if openAlert.isNone && firstRunDone then
      StalenessJob.openAlert settings now node silent.totalSeconds
      return ⟨counts.stale + 1, counts.opened + 1, counts.resolved⟩
    else return ⟨counts.stale + 1, counts.opened, counts.resolved⟩
  else match (openAlert : Option AlertRecord) with
    | none => return counts
    | some openAlert =>
      resolve settings now openAlert
      return ⟨counts.stale, counts.opened, counts.resolved + 1⟩

/-- One sweep; `firstRunDone` says whether this process has completed one before. -/
def run (settings : CollectorSettings) (firstRunDone : Bool) (now : Datetime) :
    Repo StalenessCounts := do
  let nodes ← Call.listAllNodes.perform
  nodes.foldlM (checkNode settings firstRunDone now) ⟨0, 0, 0⟩

end StalenessJob

end ClusterPulse
