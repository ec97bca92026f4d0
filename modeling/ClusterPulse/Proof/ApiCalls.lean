import ClusterPulse.Network
import ClusterPulse.Proof.OperationCalls

/-!
# The calls behind a request

What the function behind each route may call (`ApiRequest.Makes`); whatever is said of these calls is said
of a request (`only_respond`), and of everything that the Collector does (`only_response`).  So the tables
keep what these calls keep (`kept_runAll`), and what a service does alone says what the response to a
request is (`runs_respond_ofRepo`).
-/

namespace ClusterPulse

open Prog

/-- The calls that the function behind the route may make. -/
def ApiRequest.Makes : ApiRequest → ApiCall → Prop
  | receiveMetrics payload, .repo c => c.IsEvaluation payload.nodeId payload.collectedAt
  | receiveHeartbeat ping, .repo c => c = .upsertSeen ping.nodeId ping.sentAt
  | listNodes, .repo c => c = .listAllNodes
  | getNode nodeId, c => c = .getNode nodeId
  | listAlerts status, c => c = .listAlerts status
  | getAlert alertId, .repo c => c = .getAlert alertId
  | acknowledgeAlert alertId acknowledgedBy, .repo c =>
    c = .getAlert alertId ∨ ∃ now, c = .acknowledgeAlert alertId acknowledgedBy now
  | listRemediationActions nodeId, c => c = .listActions nodeId
  | getRemediationAction actionId, .repo c => c = .getAction actionId
  | reportRemediationActionResult actionId body, .repo c => c = .getAction actionId ∨ ∃ now,
    c = .markResult actionId (RemediationActionService.actionStatus body.status) body.message now
  | healthz, c => c = .selectOne
  | _, _ => False

def CollectorTask.Makes : CollectorTask → ApiCall → Prop
  | request r _ _, c => r.Makes c
  | job op, .repo c => op.Makes c
  | job _, _ => False

section Only

variable {α : Type} {C : Call → Prop} {C' : ApiCall → Prop}

/-- A service inside a route makes the calls that it makes alone. -/
theorem only_ofRepo {q : Repo α} (hq : Only C q) (hC : ∀ c, C c → C' (.repo c)) :
    Only C' (ApiProgram.ofRepo q) := by
  have hcalls : ∀ c, C c → Only C' (ApiCall.repo c).perform := fun c hc => only_perform (hC c hc)
  exact (hq.interpret hcalls).bind fun _ => only_lift _

theorem only_self (c : Call) : Only (fun c' => c' = c) c.perform := only_perform rfl

theorem only_apiSelf {request : ApiRequest} {c : ApiCall} (hc : request.Makes c) :
    Only request.Makes c.perform := only_perform hc

theorem only_route (app : App) (now : Instant) (request : ApiRequest) :
    Only request.Makes (app.route now request) := by
  cases request with
  | receiveMetrics payload =>
    exact (only_ofRepo (MetricsIngestionService.only_ingest payload now) fun _ hc => hc).bind
      fun _ => only_pure _
  | receiveHeartbeat ping =>
    have hservice : Only (fun c => c = .upsertSeen ping.nodeId ping.sentAt)
        (receiveHeartbeat (getNodeRegistryService app.deployment.settings) ping now) :=
      ((only_self _).bind fun _ => only_pure _).bind fun _ => only_pure _
    exact (only_ofRepo hservice fun _ hc => hc).bind fun _ => only_pure _
  | listNodes =>
    have hservice : Only (fun c => c = .listAllNodes)
        ((getNodeRegistryService app.deployment.settings).listNodes now) :=
      (only_self _).bind fun _ => only_pure _
    exact (only_ofRepo hservice fun _ hc => hc).bind fun _ => only_pure _
  | getNode nodeId =>
    have hcall : (ApiRequest.getNode nodeId).Makes (.getNode nodeId) := rfl
    refine Only.bind ((only_apiSelf hcall).bind fun record => ?_) fun _ => only_pure _
    cases record with
    | none => exact only_throw _
    | some record => exact only_pure _
  | listAlerts status =>
    have hcall : (ApiRequest.listAlerts status).Makes (.listAlerts status) := rfl
    exact (only_apiSelf hcall).bind fun _ => only_pure _
  | getAlert alertId =>
    have hservice : Only (fun c => c = .getAlert alertId)
        (AlertEvaluationService.getAlert alertId) := by
      refine (only_self _).bind fun record => ?_
      cases record with
      | none => exact only_throw _
      | some record => exact only_pure _
    exact (only_ofRepo hservice fun _ hc => hc).bind fun _ => only_pure _
  | acknowledgeAlert alertId acknowledgedBy =>
    refine (only_ofRepo (AlertEvaluationService.only_acknowledge alertId acknowledgedBy now)
      fun c hc => ?_).bind fun _ => only_pure _
    obtain rfl | rfl := hc
    · exact .inl rfl
    · exact .inr ⟨now, rfl⟩
  | listRemediationActions nodeId =>
    have hcall : (ApiRequest.listRemediationActions nodeId).Makes (.listActions nodeId) := rfl
    exact (only_apiSelf hcall).bind fun _ => only_pure _
  | getRemediationAction actionId =>
    have hservice : Only (fun c => c = .getAction actionId)
        (RemediationActionService.getAction actionId) := by
      refine (only_self _).bind fun record => ?_
      cases record with
      | none => exact only_throw _
      | some record => exact only_pure _
    exact (only_ofRepo hservice fun _ hc => hc).bind fun _ => only_pure _
  | reportRemediationActionResult actionId body =>
    refine (only_ofRepo (RemediationActionService.only_reportResult actionId body now)
      fun c hc => ?_).bind fun _ => only_pure _
    obtain rfl | rfl := hc
    · exact .inl rfl
    · exact .inr ⟨now, rfl⟩
  | healthz =>
    have hcall : ApiRequest.healthz.Makes .selectOne := rfl
    refine Only.bind ((only_apiSelf hcall).tryCatch fun e => ?_) fun _ => only_pure _
    split
    · exact only_throw _
    · exact only_throw _

theorem only_respond (app : App) (request : ApiRequest) (credentials : Option String) (now : Instant) :
    Only request.Makes (app.respond request credentials now) := by
  refine Only.tryCatch ((only_lift _).bind fun _ => ?_) fun _ => only_pure _
  exact (only_route app now request).bind fun _ => only_pure _

theorem only_response (app : App) (task : CollectorTask) : Only task.Makes (task.response app) := by
  cases task with
  | request request credentials now =>
    exact (only_respond app request credentials now).bind fun _ => only_pure _
  | job op =>
    exact Only.bind (Only.result (only_ofRepo op.only_program fun _ hc => hc)) fun _ => only_pure _

end Only

/-! ## What the calls keep -/

/-- The calls of this kind keep `I`. -/
def Call.AllKeep (C : Call → Prop) (I : Store → Prop) : Prop :=
  ∀ scan c σ, C c → I σ → I (exec scan c σ).2

section Kept

variable {C : Call → Prop} {I : Store → Prop} {w : World}

theorem kept_handle (hI : Call.AllKeep C I) {env : Environment} {c : Call} (hc : C c)
    (h : I w.store) : I (handle env c w).2.store := by
  obtain ⟨e, -, heq⟩ | ⟨-, heq⟩ := handle_cases env c w
  · rw [heq]
    exact h
  · rw [heq]
    exact hI _ c w.store hc h

variable {env : ApiEnvironment}

/-- The reads of the API keep everything. -/
theorem kept_apiHandle (hI : Call.AllKeep C I) {c : ApiCall} (hc : ∀ c', c = .repo c' → C c')
    (h : I w.store) : I (env.handle c w).2.store := by
  have hread : ∀ {β : Type} (b : β), (env.read b w).2.store = w.store := by
    intro β b
    unfold ApiEnvironment.read
    split <;> rfl
  cases c with
  | repo c =>
    show I (handle env.toEnvironment c w).2.store
    exact kept_handle hI (hc c rfl) h
  | getNode nodeId =>
    show I (env.read (NodeRepository.get w.store nodeId) w).2.store
    rwa [hread]
  | listAlerts status =>
    show I (env.read (AlertRepository.listAlerts _ w.store status) w).2.store
    rwa [hread]
  | listActions nodeId =>
    show I (env.read (RemediationActionRepository.listActions _ w.store nodeId) w).2.store
    rwa [hread]
  | selectOne =>
    show I (env.read () w).2.store
    rwa [hread]

theorem kept_of_only {α : Type} {p : ApiProgram α} {D : ApiCall → Prop} (hI : Call.AllKeep C I)
    (hp : Only D p) (hD : ∀ c, D (.repo c) → C c) (h : I w.store) :
    I (p.run env.handle w).2.store := by
  refine (hp.runs (h := env.handle) (fun w => I w.store) (fun c w hc h => ?_) h).run
  exact kept_apiHandle hI (fun c' heq => hD c' (heq ▸ hc)) h

theorem kept_runAll (hI : Call.AllKeep C I) (app : App) (env : ApiEnvironment)
    {tasks : List CollectorTask} (htasks : ∀ task ∈ tasks, ∀ c, task.Makes (.repo c) → C c)
    (h : I w.store) : I (CollectorTask.runAll app env tasks w).store := by
  induction tasks generalizing w with
  | nil => exact h
  | cons task tasks ih =>
    obtain ⟨htask, htasks⟩ := List.forall_mem_cons.1 htasks
    exact ih htasks (kept_of_only hI (only_response app task) htask h)

end Kept

/-! ## A service behind a route -/

section Service

variable {α : Type} {env : ApiEnvironment} {app : App} {request : ApiRequest}
  {credentials : Option String} {now : Instant} {w : World} {q : Repo α}
  {Q : Except PyError α → World → Prop}

/-- A service inside a route runs as it does alone. -/
theorem runs_ofRepo {R : World → World → Prop} (hq : Runs (handle env.toEnvironment) R q w Q) :
    Runs env.handle R (ApiProgram.ofRepo q) w fun r w' =>
      ∃ r₀, r = r₀.mapError ApiError.raised ∧ Q r₀ w' := by
  refine (Runs.interpret (fun c w' hstep => ?_) hq).bind (fun r w' hr => ?_) fun e w' he => ?_
  · exact runs_perform hstep ⟨rfl, rfl⟩
  · obtain ⟨r₀, hr, hQ⟩ := hr
    obtain rfl := Except.ok.inj hr
    exact runs_lift ⟨r, rfl, hQ⟩
  · obtain ⟨r₀, hr, -⟩ := he
    cases hr

/-- The response to a request that is let through, by what the service returns or raises. -/
theorem runs_respond_ofRepo {f : α → ApiBody} (hopen : app.authenticate request credentials = .ok ())
    (hroute : app.route now request = f <$> ApiProgram.ofRepo q)
    (hq : Runs (handle env.toEnvironment) (fun _ _ => True) q w Q) :
    Runs env.handle (fun _ _ => True) (app.respond request credentials now) w fun response w' =>
      (∃ a, response = .ok ⟨200, f a⟩ ∧ Q (.ok a) w') ∨
        ∃ e, response = .ok ⟨statusFor e, (ApiError.raised e).body app.repr⟩ ∧ Q (.error e) w' := by
  have hbody : Runs env.handle (fun _ _ => True) (app.route now request) w
      (Ends (fun body w' => ∃ a, body = f a ∧ Q (.ok a) w')
        fun e w' => ∃ e₀, e = .raised e₀ ∧ Q (.error e₀) w') := by
    rw [hroute]
    refine (runs_ofRepo hq).map fun r w' hr => ?_
    obtain ⟨r₀, rfl, hQ⟩ := hr
    cases r₀ with
    | ok a => exact ⟨a, rfl, hQ⟩
    | error e => exact ⟨e, rfl, hQ⟩
  unfold App.respond
  rw [hopen]
  have hresponse : Runs env.handle (fun _ _ => True)
      (app.route now request >>= fun body => Prog.pure (ApiResponse.mk 200 body)) w
      (Ends (fun response w' => ∃ a, response = ⟨200, f a⟩ ∧ Q (.ok a) w')
        fun e w' => ∃ e₀, e = .raised e₀ ∧ Q (.error e₀) w') := by
    refine hbody.andThen fun body w' h => ?_
    obtain ⟨a, rfl, hQ⟩ := h
    exact ⟨a, rfl, hQ⟩
  refine hresponse.tryCatch ?_ ?_
  · rintro response w' ⟨a, rfl, hQ⟩
    exact .inl ⟨a, rfl, hQ⟩
  · rintro e w' ⟨e₀, rfl, hQ⟩
    exact .inr ⟨e₀, rfl, hQ⟩

/-- A token that is accepted lets every request through. -/
theorem authenticate_of_token (request : ApiRequest)
    (htoken : verifyApiToken app.iteration credentials = .ok ()) :
    app.authenticate request credentials = .ok () := by
  unfold App.authenticate
  rw [htoken]
  split_ifs
  · rfl
  · rfl

end Service

end ClusterPulse
