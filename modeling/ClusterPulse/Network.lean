import ClusterPulse.Agent.Process
import ClusterPulse.Collector.Api

/-!
# A node and its Collector

The Agent's process on a node whose network leads to the Collector's API.  An attempt of the Agent may
be answered or fail, and one that fails may have been served or not; before each of them others use
the Collector, or its jobs run, and what is served late is among these.
-/

namespace ClusterPulse

/-! ## The Collector's side -/

/-- What else the Collector does: a request of somebody, or the sweep of a job. -/
inductive CollectorTask where
  | request (request : ApiRequest) (credentials : Option String) (now : Instant)
  | job (op : Operation)

namespace CollectorTask

/-- The response to a request.  What a job raises is logged, and there is none to it. -/
def response (app : App) : CollectorTask → ApiProgram (Option ApiResponse)
  | request r credentials now => some <$> app.respond r credentials now
  | job op => (fun _ => none) <$> (ApiProgram.ofRepo op.program).result

/-- The Collector's world after these tasks. -/
def runAll (app : App) (env : ApiEnvironment) (tasks : List CollectorTask) (w : World) : World :=
  tasks.foldl (fun w task => ((task.response app).run env.handle w).2) w

end CollectorTask

/-- The Agent's requests as requests to the API. -/
def HttpRequest.toApi : HttpRequest → ApiRequest
  | metrics payload => .receiveMetrics payload
  | actionResult actionId result => .reportRemediationActionResult actionId result

/-- A response as the Agent reads it. -/
def ApiResponse.toHttp (response : ApiResponse) : HttpResponse where
  statusCode := response.statusCode
  ack := match response.body with
    | .ack ack => some ack
    | _ => none

/-! ## Between the two -/

/-- What becomes of an attempt. -/
inductive Passage where
  | answered
  /-- The Agent's client raises; the Collector may have served the request. -/
  | fails (error : HttpxError) (served : Bool)
deriving DecidableEq

structure Attempt where
  /-- What the Collector does before. -/
  before : List CollectorTask
  passage : Passage
  /-- The Collector's clock. -/
  now : Instant

/-- The Collector, the token that the Agent's client sends along, and the fates of its attempts, by
the number of the call. -/
structure Network where
  app : App
  env : ApiEnvironment
  authToken : Option String
  attempts : ℕ → Attempt

namespace Network

variable (net : Network)

/-- The `Authorization` header is left out for an empty token. -/
def credentials : Option String := net.authToken.filter fun token => token ≠ ""

/-- The Collector serves a request. -/
def serve (request : HttpRequest) (now : Instant) : World → Except ApiError ApiResponse × World :=
  (net.app.respond request.toApi net.credentials now).run net.env.handle

def post (n : ℕ) (request : HttpRequest) (w : World) : Except AgentError HttpResponse × World :=
  let attempt := net.attempts n
  let w' := CollectorTask.runAll net.app net.env attempt.before w
  match attempt.passage with
  | .answered =>
    match net.serve request attempt.now w' with
    | (.ok response, w'') => (.ok response.toHttp, w'')
    -- a request is always answered
    | (.error _, w'') => (.ok ⟨500, none⟩, w'')
  | .fails error served =>
    (.error (.httpxError error ""), if served then (net.serve request attempt.now w').2 else w')

/-- A node of which this is the network. -/
def behind (env : NodeEnvironment World) : NodeEnvironment World := { env with post := net.post }

end Network

/-! ## What an Agent has collected -/

namespace AgentScheduler

variable {Op : Type} {Res : Op → Type}

/-- A cycle that tells the payload it has collected. -/
def runOnceTelling (s : AgentScheduler Op Res) : Prog Op Res AgentError NodeMetricsPayload := do
  s.drainBuffer
  let payload ← s.collect
  s.deliver payload
  return payload

/-- The loop, with the payloads of its cycles in order. -/
def runForeverTelling (s : AgentScheduler Op Res) (shouldStop : Prog Op Res AgentError Bool)
    (sleep : Prog Op Res AgentError Unit) :
    ℕ → Prog Op Res AgentError (List NodeMetricsPayload × Bool)
  | 0 => return ([], false)
  | cycles + 1 => do
    if ← shouldStop then return ([], true)
    let payload ← s.runOnceTelling
    sleep
    let (payloads, stopped) ← s.runForeverTelling shouldStop sleep cycles
    return (payload :: payloads, stopped)

theorem map_runOnceTelling (s : AgentScheduler Op Res) :
    (fun _ => ()) <$> s.runOnceTelling = s.runOnce := by
  unfold runOnceTelling runOnce
  simp only [map_bind, map_pure, bind_pure_unit]

theorem map_runForeverTelling (s : AgentScheduler Op Res) (shouldStop : Prog Op Res AgentError Bool)
    (sleep : Prog Op Res AgentError Unit) (cycles : ℕ) :
    Prod.snd <$> s.runForeverTelling shouldStop sleep cycles =
      s.runForever shouldStop sleep cycles := by
  induction cycles with
  | zero => rfl
  | succ cycles ih =>
    unfold runForeverTelling runForever
    rw [map_bind]
    congr 1
    funext stop
    cases stop with
    | true => rfl
    | false =>
      rw [← ih, ← s.map_runOnceTelling]
      simp only [Bool.false_eq_true, if_false, map_bind, map_pure, bind_map_left]
      rfl

end AgentScheduler

namespace AgentProcessSettings

variable (settings : AgentProcessSettings)

/-- `main`, telling what it has collected. -/
def mainTelling (j : PydanticJson) (repr : TextRepr) (cycles : ℕ) :
    NodeProgram (List NodeMetricsPayload × Bool) := do
  loadSettings
  let scheduler ← settings.buildScheduler j repr
  scheduler.runForeverTelling (NodeProgram.perform .shouldStop)
    (NodeProgram.perform (.sleep settings.collectionIntervalSeconds)) cycles

theorem map_mainTelling (j : PydanticJson) (repr : TextRepr) (cycles : ℕ) :
    Prod.snd <$> settings.mainTelling j repr cycles = settings.main j repr cycles := by
  unfold mainTelling main
  simp only [map_bind]
  congr 1
  funext _
  congr 1
  funext scheduler
  exact scheduler.map_runForeverTelling _ _ cycles

end AgentProcessSettings

end ClusterPulse
