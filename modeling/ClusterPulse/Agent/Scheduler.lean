import ClusterPulse.Agent.Transport

/-!
# The Agent's buffer and its cycles

`FileBuffer` keeps a bounded number of undelivered payloads, and `AgentScheduler.runOnce` is one
cycle: redeliver what was buffered, collect, deliver, and execute what the acknowledgement asks for.
What the cycle needs from outside it takes by shape, as the protocols of `shared/protocols.py` do.
-/

namespace ClusterPulse

/-! ## Buffering -/

/-- Durable local storage for payloads that could not be delivered. -/
structure MetricsBuffer (Op : Type) (Res : Op → Type) where
  enqueue : NodeMetricsPayload → Prog Op Res AgentError Unit
  drain : ℕ → Prog Op Res AgentError (List NodeMetricsPayload)

/-- A buffer file: `readAll` and `writeAll` are `_read_all` and `_write_all`. -/
structure FileBuffer (Op : Type) (Res : Op → Type) where
  readAll : Prog Op Res AgentError (List NodeMetricsPayload)
  writeAll : List NodeMetricsPayload → Prog Op Res AgentError Unit
  maxEntries : ℤ

namespace FileBuffer

variable {Op : Type} {Res : Op → Type}

/-- Evict the oldest entries beyond `maxEntries`. -/
def evict (maxEntries : ℤ) (entries : List NodeMetricsPayload) : List NodeMetricsPayload :=
  if maxEntries < entries.length then entries.drop (entries.length - maxEntries).toNat else entries

/-- Append `payload` to the buffer, evicting the oldest entry if full. -/
def enqueue (b : FileBuffer Op Res) (payload : NodeMetricsPayload) :
    Prog Op Res AgentError Unit := do
  let entries ← b.readAll
  b.writeAll (evict b.maxEntries (entries ++ [payload]))

/-- Remove and return up to `maxItems` buffered payloads, oldest first. -/
def drain (b : FileBuffer Op Res) (maxItems : ℕ) :
    Prog Op Res AgentError (List NodeMetricsPayload) := do
  let entries ← b.readAll
  b.writeAll (entries.drop maxItems)
  return entries.take maxItems

def buffer (b : FileBuffer Op Res) : MetricsBuffer Op Res := ⟨b.enqueue, b.drain⟩

end FileBuffer

/-! ## Cycles -/

/-- Something that can produce a batch of metric samples; `name` is the name of its type. -/
structure MetricCollector (Op : Type) (Res : Op → Type) where
  name : String
  collect : Prog Op Res AgentError (List MetricSample)

/-- Runs collection cycles sequentially; `now` is the clock that stamps a payload, and there is no
executor unless the Agent opted into remediation. -/
structure AgentScheduler (Op : Type) (Res : Op → Type) where
  nodeId : String
  collectors : List (MetricCollector Op Res)
  transport : Transport Op Res
  buffer : MetricsBuffer Op Res
  now : Prog Op Res AgentError Datetime
  executor : Option (PendingAction → Prog Op Res AgentError ActionResult)

/-- How an attempt to deliver a payload ended. -/
inductive Delivery where
  | acknowledged (ack : Ack)
  | rejected
  | failed
deriving DecidableEq, Repr

namespace AgentScheduler

variable {Op : Type} {Res : Op → Type}

def defaultBufferDrainBatchSize : ℕ := 50

/-- `transport.send` under the two `except` clauses: a fatal error is a rejection, and any other
transport error a failure. -/
def attemptDelivery (s : AgentScheduler Op Res) (payload : NodeMetricsPayload) :
    Prog Op Res AgentError Delivery :=
  Prog.tryCatch (Delivery.acknowledged <$> s.transport.send payload) fun e =>
    if e.isFatal then .pure .rejected
    else if e.isTransportError then .pure .failed
    else .throw e

def enqueueAll (s : AgentScheduler Op Res) : List NodeMetricsPayload → Prog Op Res AgentError Unit
  | [] => return ()
  | payload :: rest => do
    s.buffer.enqueue payload
    s.enqueueAll rest

/-- Redeliver the drained payloads in turn; at the first failure re-enqueue the rest. -/
def redeliver (s : AgentScheduler Op Res) : List NodeMetricsPayload → Prog Op Res AgentError Unit
  | [] => return ()
  | payload :: rest => do
    match ← s.attemptDelivery payload with
    | .failed => s.enqueueAll (payload :: rest)
    | _ => s.redeliver rest

/-- Attempt to redeliver buffered payloads before this cycle's fresh one. -/
def drainBuffer (s : AgentScheduler Op Res) : Prog Op Res AgentError Unit := do
  let drained ← s.buffer.drain defaultBufferDrainBatchSize
  s.redeliver drained

/-- Run one collector; whatever it raises becomes a collection error. -/
def collectFrom (found : List MetricSample × List String) (collector : MetricCollector Op Res) :
    Prog Op Res AgentError (List MetricSample × List String) :=
  Prog.tryCatch
    (do
      let samples ← collector.collect
      return (found.1 ++ samples, found.2))
    fun e => .pure (found.1, found.2 ++ [collector.name ++ ": " ++ e.message])

/-- Run every collector, isolating one collector's failure from the rest. -/
def collect (s : AgentScheduler Op Res) : Prog Op Res AgentError NodeMetricsPayload := do
  let found ← s.collectors.foldlM collectFrom ([], [])
  let collectedAt ← s.now
  return ⟨s.nodeId, collectedAt, found.1, found.2⟩

/-- Report a result; a transport error is logged and goes no further. -/
def reportResult (s : AgentScheduler Op Res) (actionId : ℕ) (result : ActionResult) :
    Prog Op Res AgentError Unit :=
  (s.transport.reportActionResult actionId result).tryCatch fun e =>
    if e.isTransportError then .pure () else .throw e

/-- Execute the actions in turn and report each result. -/
def executeAll (s : AgentScheduler Op Res)
    (execute : PendingAction → Prog Op Res AgentError ActionResult) :
    List PendingAction → Prog Op Res AgentError Unit
  | [] => return ()
  | action :: rest => do
    let result ← execute action
    s.reportResult action.actionId result
    s.executeAll execute rest

def executePendingActions (s : AgentScheduler Op Res) (ack : Ack) : Prog Op Res AgentError Unit :=
  match s.executor with
  | none => return ()
  | some execute => s.executeAll execute ack.pendingActions

/-- Send the current cycle's payload, buffering it on retryable failure. -/
def deliver (s : AgentScheduler Op Res) (payload : NodeMetricsPayload) :
    Prog Op Res AgentError Unit := do
  match ← s.attemptDelivery payload with
  | .acknowledged ack => s.executePendingActions ack
  | .rejected => return ()
  | .failed => s.buffer.enqueue payload

/-- A single collection-and-delivery cycle. -/
def runOnce (s : AgentScheduler Op Res) : Prog Op Res AgentError Unit := do
  s.drainBuffer
  let payload ← s.collect
  s.deliver payload

end AgentScheduler

end ClusterPulse
