import ClusterPulse.Cluster
import ClusterPulse.Collector.Authentication
import ClusterPulse.Collector.NodeRegistry
import ClusterPulse.Lib.Interpretation

/-!
# The HTTP API of the Collector

The routes, the check of the bearer token in front of all of them but the health check, and the
exception handlers.  A request is a program that always returns a response.  Besides the calls of
the services it makes the reads that only the API needs.
-/

namespace ClusterPulse

/-! ## Calls -/

inductive ApiCall where
  | repo (c : Call)
  | getNode (nodeId : String)
  | listAlerts (status : Option AlertStatus)
  | listActions (nodeId : Option String)
  /-- `SELECT 1`. -/
  | selectOne
deriving DecidableEq

@[reducible] def ApiCall.Res : ApiCall → Type
  | .repo c => Except PyError c.Res
  | .getNode _ => Option NodeRecord
  | .listAlerts _ => List AlertRecord
  | .listActions _ => List RemediationActionRecord
  | .selectOne => Unit

/-- The exceptions that the handlers translate. -/
inductive ApiError where
  | raised (e : PyError)
  | nodeNotFoundError (nodeId : String)
  | token (e : TokenError)
deriving DecidableEq, Repr

abbrev ApiProgram (α : Type) : Type := Prog ApiCall ApiCall.Res ApiError α

abbrev ApiCall.perform (c : ApiCall) : ApiProgram c.Res := Prog.perform c

/-- A service inside a route. -/
def ApiProgram.ofRepo {α : Type} (p : Repo α) : ApiProgram α :=
  p.interpret (fun c => (ApiCall.repo c).perform) >>= fun r => Prog.lift (r.mapError .raised)

/-! ## Repository reads -/

/-- `list_alerts`. -/
def AlertRepository.listAlerts (scan : Scan) (σ : Store) (status : Option AlertStatus) :
    List AlertRecord :=
  (reorder scan σ.alerts.rows).filter fun a => status.all fun s => a.status == s

/-- `list_actions`. -/
def RemediationActionRepository.listActions (scan : Scan) (σ : Store) (nodeId : Option String) :
    List RemediationActionRecord :=
  (reorder scan σ.remediationActions.rows).filter fun a => nodeId.all fun n => a.nodeId == n

/-- An environment, and the exceptions that the reads of the API fail with. -/
structure ApiEnvironment extends Environment where
  readFault : ℕ → Option PyError

namespace ApiEnvironment

variable (env : ApiEnvironment)

/-- A read that answers `a` if it does not fail. -/
def read {α : Type} (a : α) (w : World) : Except ApiError α × World :=
  match env.readFault w.calls with
  | some e => (.error (.raised e), { w with calls := w.calls + 1 })
  | none => (.ok a, { w with calls := w.calls + 1 })

def handle : Handler ApiCall ApiCall.Res ApiError World := fun c w =>
  match c with
  | .repo c =>
    let (r, w') := ClusterPulse.handle env.toEnvironment c w
    (.ok r, w')
  | .getNode nodeId => env.read (NodeRepository.get w.store nodeId) w
  | .listAlerts status =>
    env.read (AlertRepository.listAlerts (env.scan w.calls) w.store status) w
  | .listActions nodeId =>
    env.read (RemediationActionRepository.listActions (env.scan w.calls) w.store nodeId) w
  | .selectOne => env.read () w

end ApiEnvironment

/-! ## Routes -/

/-- `environment`. -/
inductive DeploymentEnvironment where
  | dev
  | staging
  | prod
deriving DecidableEq, Repr

/-- `create_app`: what is loaded at startup. -/
structure App where
  deployment : Deployment
  environment : DeploymentEnvironment
  apiTokens : String
  /-- The order in which the process iterates the set of tokens. -/
  iteration : Iteration (tokenSet apiTokens)
  /-- `repr` of a text. -/
  repr : String → String
  /-- `_require_tokens_outside_dev`. -/
  requireTokensOutsideDev : environment ≠ .dev → tokenSet apiTokens ≠ ∅

inductive ApiRequest where
  | receiveMetrics (payload : NodeMetricsPayload)
  | receiveHeartbeat (ping : HeartbeatPing)
  | listNodes
  | getNode (nodeId : String)
  | listAlerts (status : Option AlertStatus)
  | getAlert (alertId : ℕ)
  | acknowledgeAlert (alertId : ℕ) (acknowledgedBy : String)
  | listRemediationActions (nodeId : Option String)
  | getRemediationAction (actionId : ℕ)
  | reportRemediationActionResult (actionId : ℕ) (body : ActionResult)
  | healthz

/-- The body of a response. -/
inductive ApiBody where
  | ack (ack : Ack)
  | nodes (views : List NodeView)
  | node (view : NodeView)
  | alerts (views : List AlertRecord)
  | alert (view : AlertRecord)
  | actions (records : List RemediationActionRecord)
  | action (record : RemediationActionRecord)
  | statusOk
  | error (error message : String)

structure ApiResponse where
  statusCode : ℕ
  body : ApiBody

namespace NodeRegistryService

/-- `get_node` of the service, for a request. -/
def getNodeView (svc : NodeRegistryService) (nodeId : String) (now : Instant) :
    ApiProgram NodeView := do
  match (← (ApiCall.getNode nodeId).perform : Option NodeRecord) with
  | none => Prog.throw (.nodeNotFoundError nodeId)
  | some record => return svc.toView now record

end NodeRegistryService

namespace App

open ApiProgram

variable (app : App)

/-- The function behind each route, at the clock reading `now`. -/
def route (now : Instant) : ApiRequest → ApiProgram ApiBody
  | .receiveMetrics payload => ApiBody.ack <$>
    ofRepo (MetricsIngestionService.ingest app.deployment.alertEvaluationService payload now)
  | .receiveHeartbeat ping => ApiBody.ack <$>
    ofRepo (ClusterPulse.receiveHeartbeat (getNodeRegistryService app.deployment.settings) ping now)
  | .listNodes => ApiBody.nodes <$>
    ofRepo ((getNodeRegistryService app.deployment.settings).listNodes now)
  | .getNode nodeId => ApiBody.node <$>
    (getNodeRegistryService app.deployment.settings).getNodeView nodeId now
  | .listAlerts status => ApiBody.alerts <$> (ApiCall.listAlerts status).perform
  | .getAlert alertId => ApiBody.alert <$> ofRepo (AlertEvaluationService.getAlert alertId)
  | .acknowledgeAlert alertId acknowledgedBy => ApiBody.alert <$>
    ofRepo (AlertEvaluationService.acknowledge alertId acknowledgedBy now)
  | .listRemediationActions nodeId => ApiBody.actions <$> (ApiCall.listActions nodeId).perform
  | .getRemediationAction actionId => ApiBody.action <$>
    ofRepo (RemediationActionService.getAction actionId)
  | .reportRemediationActionResult actionId body => ApiBody.action <$>
    ofRepo (RemediationActionService.reportResult actionId body now)
  | .healthz => (fun _ => ApiBody.statusOk) <$>
    (ApiCall.selectOne.perform).tryCatch fun e => match e with
      | .raised (.persistenceError _) =>
        .throw (.raised (.persistenceError "database health check failed"))
      | e => .throw e

end App

/-- The router of the health check has no dependencies. -/
def ApiRequest.isOpen : ApiRequest → Bool
  | .healthz => true
  | _ => false

/-! ## Exception handlers -/

namespace ApiError

/-- `_status_for` with the exceptions that only the API raises. -/
def statusCode : ApiError → ℕ
  | .token (.authenticationError _) => 401
  | .nodeNotFoundError _ => 404
  | .raised e => statusFor e
  | .token (.typeError _) => 500

/-- The answer of `handle_unexpected_error`. -/
def unexpected : ApiBody := .error "InternalServerError" "an unexpected error occurred"

/-- The `error` and the `message` of the body; `repr` is that of a text. -/
def body (repr : String → String) : ApiError → ApiBody
  | .token (.authenticationError message) => .error "AuthenticationError" message
  | .token (.typeError _) => unexpected
  | .nodeNotFoundError nodeId =>
    .error "NodeNotFoundError" ("node " ++ repr nodeId ++ " is not registered")
  | .raised e =>
    match e with
    | .alertNotFoundError _ => .error "AlertNotFoundError" e.message
    | .alertAlreadyResolvedError _ => .error "AlertAlreadyResolvedError" e.message
    | .remediationActionNotFoundError _ => .error "RemediationActionNotFoundError" e.message
    | .remediationActionNotDispatchedError .. =>
      .error "RemediationActionNotDispatchedError" e.message
    | .persistenceError message => .error "PersistenceError" message
    | _ => unexpected

end ApiError

namespace App

variable (app : App)

/-- The dependency of the routers. -/
def authenticate (request : ApiRequest) (credentials : Option String) : Except ApiError Unit :=
  if request.isOpen then .ok ()
  else (verifyApiToken app.iteration credentials).mapError .token

/-- The response to a request that carries these credentials. -/
def respond (request : ApiRequest) (credentials : Option String) (now : Instant) :
    ApiProgram ApiResponse :=
  Prog.tryCatch
    (do
      Prog.lift (app.authenticate request credentials)
      let body ← app.route now request
      return ⟨200, body⟩)
    fun e => return ⟨e.statusCode, e.body app.repr⟩

end App

end ClusterPulse
