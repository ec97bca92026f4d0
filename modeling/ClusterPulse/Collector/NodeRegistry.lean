import ClusterPulse.Collector.Calls
import ClusterPulse.Collector.Config

/-!
# The node registry

`NodeRegistryService` records when a node was last seen and computes, whenever it is read, whether
the node is stale.  The heartbeat endpoint is a liveness signal without metrics; like an ingestion,
it records the time that the Agent supplied.
-/

namespace ClusterPulse

/-- A node registry entry with staleness computed at read time. -/
structure NodeView where
  nodeId : String
  firstSeenAt : Instant
  lastSeenAt : Instant
  isStale : Bool
deriving DecidableEq, Repr

/-- Raised when a requested node is not present in the registry. -/
structure NodeNotFoundError where
  nodeId : String
deriving DecidableEq, Repr

/-- The node record of `nodeId`, if there is one. -/
def NodeRepository.get (σ : Store) (nodeId : String) : Option NodeRecord :=
  σ.nodes.find? fun n => n.nodeId == nodeId

/-- A liveness signal from an Agent. -/
structure HeartbeatPing where
  nodeId : String
  sentAt : Datetime

/-- Tracks which nodes are known and whether they are still reporting in. -/
structure NodeRegistryService where
  staleAfterSeconds : Double

namespace NodeRegistryService

variable (svc : NodeRegistryService)

/-- The view of a record at the clock reading `now`. -/
def toView (now : Instant) (record : NodeRecord) : NodeView where
  nodeId := record.nodeId
  firstSeenAt := record.firstSeenAt
  lastSeenAt := record.lastSeenAt
  isStale := svc.staleAfterSeconds < Timedelta.totalSeconds (now - record.lastSeenAt)

/-- Record that the node was seen at `seenAt`. -/
def recordSeen (nodeId : String) (seenAt : Datetime) (now : Instant) : Repo NodeView := do
  let record ← (Call.upsertSeen nodeId seenAt).perform
  return svc.toView now record

/-- The registry entry of `nodeId`, as one read of the tables. -/
def getNode (σ : Store) (nodeId : String) (now : Instant) : Except NodeNotFoundError NodeView :=
  match NodeRepository.get σ nodeId with
  | none => .error ⟨nodeId⟩
  | some record => .ok (svc.toView now record)

/-- Every known node's registry entry. -/
def listNodes (now : Instant) : Repo (List NodeView) := do
  let records ← Call.listAllNodes.perform
  return records.map (svc.toView now)

end NodeRegistryService

/-- The registry service that the routes are given. -/
def getNodeRegistryService (settings : CollectorSettings) : NodeRegistryService :=
  ⟨settings.heartbeatStaleAfterSeconds⟩

/-- `receive_heartbeat`. -/
def receiveHeartbeat (service : NodeRegistryService) (ping : HeartbeatPing) (now : Instant) :
    Repo Ack := do
  let _ ← service.recordSeen ping.nodeId ping.sentAt now
  return { accepted := true, receivedAt := now, pendingActions := [] }

end ClusterPulse
