import ClusterPulse.Lib.Program
import ClusterPulse.Shared.Contracts

/-!
# The Agent's transport

`HttpTransport` delivers payloads and action results to the Collector: one attempt is one HTTP
request whose failure is classified by type, and attempts that failed for the time being are
retried.  The programs of the Agent are written over any set of calls, so that they can be run
against a real network, a test double or a filesystem with faults.
-/

namespace ClusterPulse

/-! ## Exceptions -/

/-- The exceptions of `httpx.RequestError`. -/
inductive HttpxError where
  | connectTimeout
  | readTimeout
  | writeTimeout
  | poolTimeout
  | connectError
  | readError
  | writeError
  | closeError
  | localProtocolError
  | remoteProtocolError
  | proxyError
  | unsupportedProtocol
  | decodingError
  | tooManyRedirects
deriving DecidableEq, Repr

/-- The subclasses of `httpx.TimeoutException`. -/
def HttpxError.isTimeout : HttpxError → Bool
  | connectTimeout | readTimeout | writeTimeout | poolTimeout => true
  | _ => false

/-- The `context` of a transport error. -/
inductive ErrorContext where
  | endpoint (endpoint : String)
  | statusCode (statusCode : ℕ)
deriving DecidableEq, Repr

/-- The exceptions raised inside an Agent. -/
inductive AgentError where
  | retryableTransportError (message : String) (context : ErrorContext)
  | fatalTransportError (message : String) (context : ErrorContext)
  /-- Any other `TransportError`. -/
  | transportError (message : String)
  | httpxError (error : HttpxError) (message : String)
  | validationError (message : String)
  | configurationError (message : String)
  /-- Anything else, from psutil for instance. -/
  | exception (message : String)
deriving DecidableEq, Repr

namespace AgentError

def isTransportError : AgentError → Bool
  | retryableTransportError .. | fatalTransportError .. | transportError .. => true
  | _ => false

def isFatal : AgentError → Bool
  | fatalTransportError .. => true
  | _ => false

def isRetryable : AgentError → Bool
  | retryableTransportError .. => true
  | _ => false

/-- `str(exc)`. -/
def message : AgentError → String
  | retryableTransportError message _ => message
  | fatalTransportError message _ => message
  | transportError message => message
  | httpxError _ message => message
  | validationError message => message
  | configurationError message => message
  | exception message => message

end AgentError

/-! ## Requests and responses -/

/-- A `POST` to the Collector. -/
inductive HttpRequest where
  | metrics (payload : NodeMetricsPayload)
  | actionResult (actionId : ℕ) (result : ActionResult)
deriving DecidableEq

def HttpRequest.endpoint : HttpRequest → String
  | metrics _ => "/api/v1/metrics"
  | actionResult actionId _ =>
    "/api/v1/remediation-actions/" ++ toString actionId ++ "/result"

def NodeMetricsPayload.isFinite (payload : NodeMetricsPayload) : Bool :=
  payload.samples.all fun sample => sample.value.isFinite

/-- Every number in the body is finite. -/
def HttpRequest.isFinite : HttpRequest → Bool
  | metrics payload => payload.isFinite
  | actionResult .. => true

/-- httpx encodes the body with `allow_nan=False`, which raises a `ValueError`. -/
def HttpRequest.encodeJson (request : HttpRequest) : Except AgentError Unit :=
  if request.isFinite then .ok ()
  else .error (.exception "Out of range float values are not JSON compliant")

structure HttpResponse where
  statusCode : ℕ
  /-- The acknowledgement that the text decodes to, if it does. -/
  ack : Option Ack
deriving DecidableEq, Repr

/-- Something that can deliver data to the Collector. -/
structure Transport (Op : Type) (Res : Op → Type) where
  send : NodeMetricsPayload → Prog Op Res AgentError Ack
  reportActionResult : ℕ → ActionResult → Prog Op Res AgentError Unit

/-! ## HTTP -/

/-- `client` is `self._client.post`, once the body is encoded. -/
structure HttpTransport (Op : Type) (Res : Op → Type) where
  client : HttpRequest → Prog Op Res AgentError HttpResponse
  retryAttempts : ℤ

namespace HttpTransport

variable {Op : Type} {Res : Op → Type} {α : Type}

def httpServerErrorThreshold : ℕ := 500

def httpClientErrorThreshold : ℕ := 400

/-- The `except` clauses of `_post`. -/
def classify (request : HttpRequest) : AgentError → AgentError
  | .httpxError error message =>
    if error.isTimeout then
      .retryableTransportError "collector request timed out" (.endpoint request.endpoint)
    else if error = .connectError then
      .retryableTransportError "collector connection failed" (.endpoint request.endpoint)
    else .httpxError error message
  | e => e

def checkStatus (response : HttpResponse) : Except AgentError HttpResponse :=
  if httpServerErrorThreshold ≤ response.statusCode then
    .error (.retryableTransportError "collector returned a server error"
      (.statusCode response.statusCode))
  else if httpClientErrorThreshold ≤ response.statusCode then
    .error (.fatalTransportError "collector rejected the payload"
      (.statusCode response.statusCode))
  else .ok response

/-- `Ack.model_validate_json(response.text)`. -/
def decodeAck (response : HttpResponse) : Except AgentError Ack :=
  match response.ack with
  | some ack => .ok ack
  | none => .error (.validationError "response is not an Ack")

/-- `self._client.post`: nothing is sent before the body is encoded. -/
def clientPost (t : HttpTransport Op Res) (request : HttpRequest) :
    Prog Op Res AgentError HttpResponse := do
  Prog.lift request.encodeJson
  t.client request

/-- `POST` the request, classifying failures by type. -/
def post (t : HttpTransport Op Res) (request : HttpRequest) :
    Prog Op Res AgentError HttpResponse := do
  let response ← (t.clientPost request).tryCatch fun e => .throw (classify request e)
  Prog.lift (checkStatus response)

/-- A single HTTP request delivering a payload. -/
def sendOnce (t : HttpTransport Op Res) (payload : NodeMetricsPayload) :
    Prog Op Res AgentError Ack := do
  let response ← t.post (.metrics payload)
  Prog.lift (decodeAck response)

/-- A single HTTP request reporting one action's result. -/
def reportActionResultOnce (t : HttpTransport Op Res) (actionId : ℕ) (result : ActionResult) :
    Prog Op Res AgentError Unit := do
  let _ ← t.post (.actionResult actionId result)
  return ()

/-- Attempt `p`, and up to `more` times again while it raises a retryable error. -/
def retry : ℕ → Prog Op Res AgentError α → Prog Op Res AgentError α
  | 0, p => p
  | more + 1, p => p.tryCatch fun e => if e.isRetryable then retry more p else .throw e

/-- The retry policy: `stop_after_attempt(retry_attempts)`, re-raising the last error. -/
def withRetry (t : HttpTransport Op Res) (p : Prog Op Res AgentError α) :
    Prog Op Res AgentError α :=
  retry (t.retryAttempts - 1).toNat p

/-- Send `payload` to the Collector, retrying transient failures. -/
def send (t : HttpTransport Op Res) (payload : NodeMetricsPayload) : Prog Op Res AgentError Ack :=
  t.withRetry (t.sendOnce payload)

/-- Report a dispatched action's outcome, retrying transient failures. -/
def reportActionResult (t : HttpTransport Op Res) (actionId : ℕ) (result : ActionResult) :
    Prog Op Res AgentError Unit :=
  t.withRetry (t.reportActionResultOnce actionId result)

def transport (t : HttpTransport Op Res) : Transport Op Res := ⟨t.send, t.reportActionResult⟩

/-! ### Bodies that can be encoded or not -/

section Encoding

variable {t : HttpTransport Op Res} {request : HttpRequest} {payload : NodeMetricsPayload}

theorem clientPost_eq (h : request.isFinite = true) : t.clientPost request = t.client request := by
  unfold clientPost HttpRequest.encodeJson
  rw [if_pos h]
  rfl

/-- A body that cannot be encoded ends an attempt before its request. -/
theorem sendOnce_of_not_isFinite (h : payload.isFinite = false) : t.sendOnce payload =
    .throw (.exception "Out of range float values are not JSON compliant") := by
  have hencode : (HttpRequest.metrics payload).encodeJson =
      .error (.exception "Out of range float values are not JSON compliant") :=
    if_neg (ne_true_of_eq_false h)
  unfold sendOnce post clientPost
  rw [hencode]
  rfl

theorem send_of_not_isFinite (h : payload.isFinite = false) : t.send payload =
    .throw (.exception "Out of range float values are not JSON compliant") := by
  unfold send withRetry
  rw [sendOnce_of_not_isFinite h]
  cases (t.retryAttempts - 1).toNat <;> rfl

end Encoding

end HttpTransport

end ClusterPulse
