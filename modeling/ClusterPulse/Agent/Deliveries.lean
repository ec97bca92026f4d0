import ClusterPulse.Agent.Scheduler

/-!
# The cycles of an Agent

An Agent whose transport either returns an acknowledgement or raises a `TransportError`, and whose
buffer file works.  `Backlog` is the state between two cycles: the buffer file, and what has become
of the payloads that are no longer in the Agent's hands.
-/

namespace ClusterPulse

/-! ## The buffer file -/

/-- The two accesses to the buffer file. -/
inductive FileCall where
  | readAll
  | writeAll (entries : List NodeMetricsPayload)
deriving DecidableEq

@[reducible] def FileCall.Res : FileCall → Type
  | .readAll => List NodeMetricsPayload
  | .writeAll _ => Unit

/-- A file that keeps what was written last. -/
def FileCall.handle : Handler FileCall FileCall.Res AgentError (List NodeMetricsPayload)
  | .readAll, file => (.ok file, file)
  | .writeAll entries, _ => (.ok (), entries)

/-- A `FileBuffer` on such a file. -/
def bufferFile (maxEntries : ℕ) : FileBuffer FileCall FileCall.Res where
  readAll := Prog.perform FileCall.readAll
  writeAll entries := Prog.perform (FileCall.writeAll entries)
  maxEntries := maxEntries

/-! ## What a cycle calls -/

inductive CycleCall where
  | collect (collector : String)
  | now
  | enqueue (payload : NodeMetricsPayload)
  | drain (maxItems : ℕ)
  | send (payload : NodeMetricsPayload)
  | reportActionResult (actionId : ℕ) (result : ActionResult)
  | execute (action : PendingAction)
deriving DecidableEq

@[reducible] def CycleCall.Res : CycleCall → Type
  | .collect _ => List MetricSample
  | .now => Datetime
  | .enqueue _ => Unit
  | .drain _ => List NodeMetricsPayload
  | .send _ => Ack
  | .reportActionResult .. => Unit
  | .execute _ => ActionResult

/-- The program that makes one call. -/
abbrev CycleCall.perform (c : CycleCall) : Prog CycleCall CycleCall.Res AgentError c.Res :=
  Prog.perform c

/-- Why a payload was not delivered. -/
abbrev TransportFailure : Type := { e : AgentError // e.isTransportError = true }

/-- The failures after which a payload is kept for later. -/
def TransportFailure.isTransient (e : TransportFailure) : Bool := !e.val.isFatal

/-- The settings of an Agent, and how its calls turn out: `send n` is the outcome of the `n`-th
`Transport.send`, and the others are indexed by all calls that were made before. -/
structure AgentRun where
  nodeId : String
  collectors : List String
  remediationEnabled : Bool
  maxEntries : ℕ
  send : ℕ → Except TransportFailure Ack
  collect : ℕ → Except AgentError (List MetricSample)
  now : ℕ → Datetime
  report : ℕ → Except AgentError Unit
  execute : ℕ → Except AgentError ActionResult

/-- One call of `enqueue`. -/
structure Enqueued where
  /-- The entries it found. -/
  found : List NodeMetricsPayload
  payload : NodeMetricsPayload
  /-- The entries it left. -/
  kept : List NodeMetricsPayload
deriving DecidableEq

/-- The entries that are gone; those that stay are the last ones. -/
def Enqueued.evicted (e : Enqueued) : List NodeMetricsPayload :=
  (e.found ++ [e.payload]).take (e.found.length + 1 - e.kept.length)

/-- The buffer file, and what has happened. -/
structure Backlog where
  file : List NodeMetricsPayload := []
  /-- The payloads for which `send` returned. -/
  accepted : List NodeMetricsPayload := []
  /-- The payloads for which `send` raised a `FatalTransportError`. -/
  dropped : List NodeMetricsPayload := []
  enqueues : List Enqueued := []
  sends : ℕ := 0
  calls : ℕ := 0

namespace Backlog

/-- The payloads that were evicted. -/
def evicted (b : Backlog) : List NodeMetricsPayload := b.enqueues.flatMap Enqueued.evicted

/-- The backlog after a delivery with this outcome. -/
def sent (payload : NodeMetricsPayload) (outcome : Except TransportFailure Ack) (b : Backlog) :
    Backlog :=
  match outcome with
  | .ok _ => { b with accepted := b.accepted ++ [payload], sends := b.sends + 1 }
  | .error e =>
    if e.isTransient then { b with sends := b.sends + 1 }
    else { b with dropped := b.dropped ++ [payload], sends := b.sends + 1 }

end Backlog

namespace AgentRun

variable (r : AgentRun)

/-- The answers to the calls of a cycle. -/
def handle : Handler CycleCall CycleCall.Res AgentError Backlog
  | .collect _, b => (r.collect b.calls, { b with calls := b.calls + 1 })
  | .now, b => (.ok (r.now b.calls), { b with calls := b.calls + 1 })
  | .enqueue payload, b =>
    let (answer, file) := ((bufferFile r.maxEntries).enqueue payload).run FileCall.handle b.file
    (answer, { b with
      file, enqueues := b.enqueues ++ [⟨b.file, payload, file⟩], calls := b.calls + 1 })
  | .drain maxItems, b =>
    let (answer, file) := ((bufferFile r.maxEntries).drain maxItems).run FileCall.handle b.file
    (answer, { b with file, calls := b.calls + 1 })
  | .send payload, b =>
    let outcome := r.send b.sends
    (outcome.mapError Subtype.val, { b.sent payload outcome with calls := b.calls + 1 })
  | .reportActionResult .., b => (r.report b.calls, { b with calls := b.calls + 1 })
  | .execute _, b => (r.execute b.calls, { b with calls := b.calls + 1 })

def collector (name : String) : MetricCollector CycleCall CycleCall.Res :=
  ⟨name, (CycleCall.collect name).perform⟩

/-- The Agent's scheduler. -/
def scheduler : AgentScheduler CycleCall CycleCall.Res where
  nodeId := r.nodeId
  collectors := r.collectors.map collector
  transport :=
    ⟨fun payload => (CycleCall.send payload).perform,
      fun actionId result => (CycleCall.reportActionResult actionId result).perform⟩
  buffer :=
    ⟨fun payload => (CycleCall.enqueue payload).perform,
      fun maxItems => (CycleCall.drain maxItems).perform⟩
  now := CycleCall.now.perform
  executor :=
    if r.remediationEnabled then some fun action => (CycleCall.execute action).perform else none

/-- One cycle. -/
def cycle (b : Backlog) : Backlog := (r.scheduler.runOnce.run r.handle b).2

/-- The payload that a cycle collects. -/
def fresh (b : Backlog) : Option NodeMetricsPayload :=
  ((do r.scheduler.drainBuffer; r.scheduler.collect :
    Prog CycleCall CycleCall.Res AgentError NodeMetricsPayload).run r.handle b).1.toOption

/-- The backlog after some cycles, from an empty buffer. -/
def after : ℕ → Backlog
  | 0 => {}
  | cycles + 1 => r.cycle (after cycles)

/-- The payloads collected in some cycles, in order. -/
def collectedIn : ℕ → List NodeMetricsPayload
  | 0 => []
  | cycles + 1 => collectedIn cycles ++ (r.fresh (r.after cycles)).toList

end AgentRun

end ClusterPulse
