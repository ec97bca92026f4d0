import ClusterPulse.Agent.Scheduler
import ClusterPulse.Collector.Operations
import ClusterPulse.Lib.Link

/-!
# One Agent, the network and the Collector

A `Cluster` is the state of both processes and of the network between them, and an `Event` is what
can happen next: the Agent's program goes on, a message is lost, the Collector serves a request or
does something else, the Agent is stopped and started again.  The Agent waits for the response to
one attempt at a time; an attempt that fails for the Agent may still be served later.

The executions record what was passed to the executor and what it answered.
-/

namespace ClusterPulse

/-! ## The Agent's process -/

/-- What an Agent's program calls. -/
inductive AgentCall where
  | collect (collector : String)
  | now
  | readBuffer
  | writeBuffer (entries : List NodeMetricsPayload)
  | post (request : HttpRequest)
  | execute (action : PendingAction)
deriving DecidableEq

@[reducible] def AgentCall.Res : AgentCall → Type
  | .collect _ => List MetricSample
  | .now => Datetime
  | .readBuffer => List NodeMetricsPayload
  | .writeBuffer _ => Unit
  | .post _ => HttpResponse
  | .execute _ => ActionResult

abbrev AgentProgram (α : Type) : Type := Prog AgentCall AgentCall.Res AgentError α

abbrev AgentCall.perform (c : AgentCall) : AgentProgram c.Res := Prog.perform c

/-- The settings of an Agent that its scheduler is built from. -/
structure AgentSettings where
  nodeId : String
  httpRetryAttempts : ℤ := 3
  bufferMaxEntries : ℤ := 1000
  remediationEnabled : Bool := false

namespace AgentSettings

def httpTransport (settings : AgentSettings) : HttpTransport AgentCall AgentCall.Res where
  client request := (AgentCall.post request).perform
  retryAttempts := settings.httpRetryAttempts

def fileBuffer (settings : AgentSettings) : FileBuffer AgentCall AgentCall.Res where
  readAll := AgentCall.readBuffer.perform
  writeAll entries := (AgentCall.writeBuffer entries).perform
  maxEntries := settings.bufferMaxEntries

def collector (name : String) : MetricCollector AgentCall AgentCall.Res :=
  ⟨name, (AgentCall.collect name).perform⟩

/-- `build_scheduler`. -/
def scheduler (settings : AgentSettings) : AgentScheduler AgentCall AgentCall.Res where
  nodeId := settings.nodeId
  collectors := ["CpuCollector", "DiskCollector", "MemoryCollector", "NetworkCollector"].map
    collector
  transport := settings.httpTransport.transport
  buffer := settings.fileBuffer.buffer
  now := AgentCall.now.perform
  executor :=
    if settings.remediationEnabled then some fun action => (AgentCall.execute action).perform
    else none

end AgentSettings

/-! ## The Collector's routes -/

/-- `_status_for`, and `500` for whatever is not a `ClusterPulseError`. -/
def statusFor : PyError → ℕ
  | .remediationActionNotFoundError _ | .alertNotFoundError _ => 404
  | .remediationActionNotDispatchedError .. | .alertAlreadyResolvedError _ => 409
  | .persistenceError _ => 503
  | _ => 500

/-- The operation behind the request's endpoint. -/
def HttpRequest.operation (svc : AlertEvaluationService) (now : Instant) : HttpRequest → Operation
  | metrics payload => .ingest svc payload now
  | actionResult actionId result => .reportResult actionId result now

/-- The response to a request; only ingestion answers with an `Ack`. -/
def responseTo : Except PyError Reply → HttpResponse
  | .ok (.ack ack) => ⟨200, some ack⟩
  | .ok _ => ⟨200, none⟩
  | .error e => ⟨statusFor e, none⟩

/-! ## Both, and what is between them -/

structure Cluster where
  /-- What the Agent's process has still to do in this cycle. -/
  agent : AgentProgram Unit := .pure ()
  /-- The number of the attempt whose response the Agent waits for. -/
  awaiting : Option ℕ := none
  /-- The Agent's buffer file. -/
  buffer : List NodeMetricsPayload := []
  /-- What was passed to the executor, with its answers, in order. -/
  executions : List (PendingAction × Except AgentError ActionResult) := []
  link : Link HttpRequest HttpResponse := {}
  collector : World := .fresh

/-- Something that happens. -/
inductive Event where
  /-- The Agent starts a cycle, if none is in progress. -/
  | cycle
  /-- The Agent's process ends, whatever it was doing. -/
  | kill
  | collected (answer : Except AgentError (List MetricSample))
  | clock (now : Datetime)
  /-- The next access to the buffer file works, or it is an `OSError`. -/
  | buffer (works : Bool)
  /-- The Agent's attempt goes out. -/
  | transmit
  /-- The Agent receives the `i`-th response in flight. -/
  | receive (i : ℕ)
  /-- The Agent's attempt ends with an exception, or with a response that is not the Collector's. -/
  | fail (answer : Except AgentError ℕ)
  | executed (answer : Except AgentError ActionResult)
  /-- The Collector serves the `i`-th request in flight, from its first call to its last. -/
  | serve (i : ℕ) (svc : AlertEvaluationService) (now : Instant)
  | loseRequest (i : ℕ)
  | loseResponse (i : ℕ)
  /-- The Collector runs a job or a request of somebody else. -/
  | operate (op : Operation)

/-- The operation reports the result of an action, which only the Agent does. -/
def Operation.isReport : Operation → Bool
  | reportResult .. => true
  | _ => false

namespace Cluster

/-- The answer to a call of the Agent, and what the call leaves behind; none if the event is not an
answer to it. -/
def answer (s : Cluster) : Event → (c : AgentCall) → Option (Except AgentError c.Res × Cluster)
  | .collected answer, .collect _ => some (answer, s)
  | .clock now, .now => some (.ok now, s)
  -- a file that cannot be read counts as empty, and one that cannot be written stays as it is
  | .buffer works, .readBuffer => some (.ok (if works then s.buffer else []), s)
  | .buffer works, .writeBuffer entries =>
    some (.ok (), if works then { s with buffer := entries } else s)
  | .receive i, .post request =>
    match s.awaiting with
    | none => none
    | some number =>
      (s.link.receive i ⟨number, request⟩).map fun x =>
        (.ok x.1, { s with awaiting := none, link := x.2 })
  | .fail failure, .post _ =>
    some (failure.map fun statusCode => ⟨statusCode, none⟩, { s with awaiting := none })
  | .executed answer, .execute action =>
    some (answer, { s with executions := s.executions ++ [(action, answer)] })
  | _, _ => none

/-- The Agent's program goes on, if the event answers its next call. -/
def resume (s : Cluster) (event : Event) : Cluster :=
  match s.agent with
  | .call c k =>
    match s.answer event c with
    | some (r, s') => { s' with agent := k r }
    | none => s
  | _ => s

/-- The Agent starts its next cycle, unless one is in progress. -/
def cycle (settings : AgentSettings) (s : Cluster) : Cluster :=
  match s.agent with
  | .call .. => s
  | _ => { s with agent := settings.scheduler.runOnce }

/-- The Agent sends its next request, unless it has sent it already. -/
def transmit (s : Cluster) : Cluster :=
  match s.agent, s.awaiting with
  | .call (.post request) _, none =>
    { s with awaiting := some s.link.attempts, link := s.link.send request }
  | _, _ => s

/-- The Collector serves a request. -/
def serve (env : Environment) (s : Cluster) (i : ℕ) (svc : AlertEvaluationService)
    (now : Instant) : Cluster :=
  match s.link.requests[i]? with
  | some a =>
    let (r, w) := (a.request.operation svc now).program.run (handle env) s.collector
    { s with link := s.link.respond i a (responseTo r), collector := w }
  | none => s

/-- The state after an event; an event that cannot happen changes nothing. -/
def step (env : Environment) (settings : AgentSettings) (s : Cluster) : Event → Cluster
  | .cycle => s.cycle settings
  | .kill => { s with agent := .pure (), awaiting := none }
  | .transmit => s.transmit
  | .serve i svc now => s.serve env i svc now
  | .loseRequest i => { s with link := s.link.loseRequest i }
  | .loseResponse i => { s with link := s.link.loseResponse i }
  | .operate op =>
    if op.isReport then s
    else { s with collector := (op.program.run (handle env) s.collector).2 }
  | event => s.resume event

/-- The state after some events, from the start of a fresh deployment. -/
def after (env : Environment) (settings : AgentSettings) (events : List Event) : Cluster :=
  events.foldl (step env settings) {}

end Cluster

end ClusterPulse
