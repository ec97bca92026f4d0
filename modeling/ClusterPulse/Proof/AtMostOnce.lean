import ClusterPulse.Cluster
import ClusterPulse.Proof.Dispatched
import ClusterPulse.Proof.GroundTruth
import ClusterPulse.Proof.OperationCalls

/-!
# Actions are executed at most once

In every run of an Agent against the Collector, whatever the network loses and however often the
Agent retries or redelivers, no action is executed twice, and what is executed was dispatched to
this Agent (`executed_at_most_once`).

A dispatched action is on exactly one path: it is recorded, rides on one response, is held by the
Agent once that response arrives, and is executed.  `Accounted` says that what is on these places
together was all dispatched, each action counted as often as it was recorded.
-/

namespace ClusterPulse

open Prog

/-! ## The Collector -/

/-- What was dispatched, each action with its node. -/
def offers (w : World) : List (String × PendingAction) :=
  (w.recorded.filter RemediationActionRecord.isDispatched).map fun x =>
    (x.nodeId, MetricsIngestionService.pendingAction x)

/-- The call brings a row to `executed` only if its id is in `E`. -/
def Call.ExecutesOnly (E : ℕ → Prop) : Call → Prop
  | .createAction _ _ _ _ _ _ status _ _ => status ≠ .executed
  | .markResult actionId status _ _ => status = .executed → E actionId
  | _ => True

/-- The rows with status `executed` have their ids in `E`. -/
def ExecutedOnly (E : ℕ → Prop) (w : World) : Prop :=
  ∀ row ∈ w.store.remediationActions.rows, row.status = .executed → E row.id

theorem ExecutedOnly.mono {E E' : ℕ → Prop} {w : World} (hw : ExecutedOnly E w)
    (h : ∀ i, E i → E' i) : ExecutedOnly E' w := fun row hrow hstatus => h _ (hw row hrow hstatus)

theorem ExecutedOnly.step (env : Environment) {E : ℕ → Prop} {c : Call} (hc : c.ExecutesOnly E)
    {w : World} (hw : ExecutedOnly E w) : ExecutedOnly E (handle env c w).2 := by
  rcases handle_cases env c w with ⟨e, -, h⟩ | ⟨-, h⟩ <;> rw [h]
  · exact hw
  · intro row hrow hstatus
    rw [World.after_actions] at hrow
    cases c with
    | createAction nodeId alertId ruleKey playbookName actionType parameters status reason t =>
      rcases List.mem_append.1 hrow with hrow | hrow
      · exact hw row hrow hstatus
      · obtain rfl := List.mem_singleton.1 hrow
        exact absurd hstatus hc
    | markResult actionId status reason completedAt =>
      simp only [Call.actions, Table.mem_modify] at hrow
      obtain ⟨row', hrow', rfl⟩ := hrow
      split_ifs at hstatus ⊢ with hid
      · show E row'.id
        rw [hid]
        exact hc hstatus
      · exact hw row' hrow' hstatus
    | pruneTerminalBefore => exact hw row (List.mem_of_mem_filter hrow) hstatus
    | _ => exact hw row hrow hstatus

theorem Call.IsRoutine.executesOnly {c : Call} (hc : c.IsRoutine) (E : ℕ → Prop) :
    c.ExecutesOnly E := by
  cases c with
  | createAction | markResult => exact hc.elim
  | _ => trivial

theorem Call.IsEvaluation.executesOnly {nodeId : String} {t : Datetime} {c : Call}
    (hc : c.IsEvaluation nodeId t) (E : ℕ → Prop) : c.ExecutesOnly E := by
  cases c with
  | createAction nodeId' alertId ruleKey playbookName actionType parameters status reason t' =>
    obtain ⟨-, rfl, -⟩ := hc
    show RemediationEngine.statusFor reason ≠ .executed
    cases reason <;> exact nofun
  | markResult => exact hc.elim
  | _ => trivial

/-- Only a report that says so brings an action to `executed`. -/
theorem Operation.Makes.executesOnly {op : Operation} {c : Call} (hc : op.Makes c) {E : ℕ → Prop}
    (hop : ∀ actionId result now, op = .reportResult actionId result now →
      result.status = .executed → E actionId) : c.ExecutesOnly E := by
  cases op with
  | evaluateAndApply | ingest => exact Call.IsEvaluation.executesOnly hc E
  | acknowledge => rcases hc with rfl | rfl <;> trivial
  | reportResult actionId result now =>
    rcases hc with rfl | rfl
    · trivial
    · intro hstatus
      refine hop actionId result now rfl ?_
      cases hresult : result.status with
      | executed => rfl
      | failed =>
        rw [hresult] at hstatus
        cases hstatus
  | reconciliation =>
    rcases hc with ⟨cutoff, rfl⟩ | ⟨actionId, rfl⟩
    · trivial
    · exact nofun
  | retention => rcases hc with ⟨_, _, rfl⟩ | ⟨_, _, rfl⟩ | ⟨_, _, rfl⟩ <;> trivial
  | staleness =>
    rcases hc with rfl | hc
    · trivial
    · exact hc.executesOnly E

theorem offers_sublist (env : Environment) (op : Operation) (w : World) :
    (offers w).Sublist (offers (op.program.run (handle env) w).2) := by
  have hrecorded : w.recorded.Sublist (op.program.run (handle env) w).2.recorded := by
    refine op.run_program_invariant (fun w' => w.recorded.Sublist w'.recorded)
      (fun c w' _ hw' => ?_) (List.Sublist.refl _)
    rcases handle_cases env c w' with ⟨e, -, h⟩ | ⟨-, h⟩ <;> rw [h]
    · exact hw'
    · exact hw'.trans (List.sublist_append_left _ _)
  exact (hrecorded.filter _).map _

theorem Dispatches.offers_eq {nodeId : String} {t : Datetime}
    {xs : List RemediationActionRecord} {w w' : World} (h : Dispatches nodeId t xs w w') :
    offers w' = offers w ++ xs.map fun x =>
      (nodeId, MetricsIngestionService.pendingAction x) := by
  obtain ⟨l, hl, rfl⟩ := h.recorded
  unfold offers
  rw [hl, List.filter_append, List.map_append]
  congr 1
  refine List.map_congr_left fun x hx => ?_
  rw [h.nodeId x hx]

/-- An acknowledgement carries what its ingestion dispatched, or nothing. -/
theorem MetricsIngestionService.run_ingest_dispatches (env : Environment)
    (svc : AlertEvaluationService) (payload : NodeMetricsPayload) (receivedAt : Instant)
    (w : World) :
    ∃ xs, Dispatches payload.nodeId payload.collectedAt xs w
        ((ingest svc payload receivedAt).run (handle env) w).2 ∧
      ∀ ack, ((ingest svc payload receivedAt).run (handle env) w).1 = .ok ack →
        ack.pendingActions = xs.map pendingAction ∨ ack.pendingActions = [] := by
  have hpersist := (runs_unrecorded env ((routine_persist payload receivedAt).mono
    fun _ => Call.IsRoutine.unrecorded) w).run
  unfold ingest
  rw [run_bind]
  rcases hrun : (persist payload receivedAt).run (handle env) w with ⟨e | u, w₁⟩
  · rw [hrun] at hpersist
    exact ⟨[], dispatches_nil hpersist, nofun⟩
  · rw [hrun] at hpersist
    have hbefore : Dispatches payload.nodeId payload.collectedAt [] w w₁ := dispatches_nil hpersist
    simp only [run_bind, run_evaluateRulesBestEffort]
    have hspec := (dispatching_evaluateAndApply env svc payload.nodeId payload.samples
      payload.collectedAt w₁).run
    rcases heval : (svc.evaluateAndApply payload.nodeId payload.samples payload.collectedAt).run
      (handle env) w₁ with ⟨e | outcome, w₂⟩
    · rw [heval] at hspec
      obtain ⟨xs, hxs⟩ := hspec
      refine ⟨xs, hbefore.trans hxs, fun ack hack => .inr ?_⟩
      obtain rfl := Except.ok.inj hack
      rfl
    · rw [heval] at hspec
      refine ⟨outcome.dispatchedActions, hbefore.trans hspec, fun ack hack => .inl ?_⟩
      obtain rfl := Except.ok.inj hack
      rfl

/-! ## The Agent -/

/-- What a response asks the sender of the request to execute, each action with the node that the
request was sent for. -/
def HttpRequest.offered : HttpRequest → HttpResponse → List (String × PendingAction)
  | metrics payload, response =>
    (response.ack.elim [] Ack.pendingActions).map fun action => (payload.nodeId, action)
  | actionResult .., _ => []

/-- The actions passed to the executor, with its answers. -/
abbrev Executions : Type := List (PendingAction × Except AgentError ActionResult)

/-- A report tells what the executor answered. -/
def HttpRequest.Justified (executions : Executions) : HttpRequest → Prop
  | metrics _ => True
  | actionResult actionId result =>
    ∃ action : PendingAction, (action, .ok result) ∈ executions ∧ action.actionId = actionId

/-- What a program of the Agent may still execute, and what has been executed. -/
structure Mode where
  held : List (String × PendingAction)
  executions : Executions

/-- The mode after a call: an answer to a payload replaces what is held, and what is executed is
held no longer. -/
def Mode.next (nodeId : String) (m : Mode) : (c : AgentCall) → Except AgentError c.Res → Mode
  | .post (.metrics payload), .ok response =>
    { m with held := (HttpRequest.metrics payload).offered response }
  | .execute action, answer =>
    ⟨m.held.erase (nodeId, action), m.executions ++ [(action, answer)]⟩
  | _, _ => m

/-- The Agent executes only what it holds, and reports only what its executor answered. -/
def discipline (nodeId : String) : Protocol AgentCall AgentCall.Res AgentError Mode where
  allowed m
    | .post request => request.Justified m.executions
    | .execute action => (nodeId, action) ∈ m.held
    | _ => True
  next := Mode.next nodeId

/-- The calls that are allowed in every mode. -/
def AgentCall.IsFree : AgentCall → Prop
  | .execute _ | .post (.actionResult ..) => False
  | _ => True

section Agent

variable {settings : AgentSettings} {nodeId : String} {m : Mode}

theorem AgentCall.IsFree.allowed {c : AgentCall} (hc : c.IsFree) (m : Mode) :
    (discipline nodeId).allowed m c := by
  match c with
  | .post (.metrics _) | .collect _ | .now | .readBuffer | .writeBuffer _ => trivial
  | .post (.actionResult ..) | .execute _ => exact hc.elim

theorem only_retry {Op : Type} {Res : Op → Type} {C : Op → Prop} {α : Type}
    {p : Prog Op Res AgentError α} (hp : Only C p) (more : ℕ) :
    Only C (HttpTransport.retry more p) := by
  induction more with
  | zero => exact hp
  | succ more ih =>
    refine hp.tryCatch fun e => ?_
    split_ifs
    · exact ih
    · trivial

theorem only_attemptDelivery (payload : NodeMetricsPayload) :
    Only AgentCall.IsFree (settings.scheduler.attemptDelivery payload) := by
  have hclient : Only AgentCall.IsFree (settings.httpTransport.clientPost (.metrics payload)) :=
    (only_lift _).bind fun _ => only_perform trivial
  have hpost : Only AgentCall.IsFree (settings.httpTransport.post (.metrics payload)) :=
    (hclient.tryCatch fun _ => only_throw _).bind fun _ => only_lift _
  have hsend : Only AgentCall.IsFree (settings.httpTransport.send payload) :=
    only_retry (hpost.bind fun _ => only_lift _) _
  refine (hsend.bind fun _ => only_pure _).tryCatch fun e => ?_
  split_ifs <;> trivial

theorem only_enqueue (payload : NodeMetricsPayload) :
    Only AgentCall.IsFree (settings.scheduler.buffer.enqueue payload) :=
  (only_perform trivial).bind fun _ => only_perform trivial

theorem only_enqueueAll (payloads : List NodeMetricsPayload) :
    Only AgentCall.IsFree (settings.scheduler.enqueueAll payloads) := by
  induction payloads with
  | nil => exact only_pure _
  | cons payload rest ih => exact (only_enqueue payload).bind fun _ => ih

theorem only_redeliver (payloads : List NodeMetricsPayload) :
    Only AgentCall.IsFree (settings.scheduler.redeliver payloads) := by
  induction payloads with
  | nil => exact only_pure _
  | cons payload rest ih =>
    refine (only_attemptDelivery payload).bind fun delivery => ?_
    cases delivery with
    | failed => exact only_enqueueAll _
    | acknowledged | rejected => exact ih

theorem only_drainBuffer : Only AgentCall.IsFree settings.scheduler.drainBuffer := by
  have hdrain : Only AgentCall.IsFree (settings.scheduler.buffer.drain
      AgentScheduler.defaultBufferDrainBatchSize) :=
    (only_perform trivial).bind fun _ => (only_perform trivial).bind fun _ => only_pure _
  exact hdrain.bind fun _ => only_redeliver _

/-- A payload is collected for the Agent's own node. -/
theorem follows_collect : Follows (discipline nodeId) m settings.scheduler.collect
    (Ends (fun payload _ => payload.nodeId = settings.nodeId) fun _ _ => True) := by
  have hcollectors : Only AgentCall.IsFree
      (settings.scheduler.collectors.foldlM AgentScheduler.collectFrom ([], [])) := by
    show Only _ ((List.map _ _).foldlM _ _)
    rw [List.foldlM_map]
    refine Only.foldlM (fun found name => ?_) _ _
    exact ((only_perform trivial).bind fun _ => only_pure _).tryCatch fun _ => only_pure _
  refine (hcollectors.follows_of_forall fun _ hc => hc.allowed).bind (fun found m₁ _ => ?_)
    fun _ _ _ => trivial
  exact ⟨trivial, fun r => by cases r with
    | ok t => exact rfl
    | error e => trivial⟩

theorem follows_retry {α : Type} {I : Mode → Prop} {P : α → Mode → Prop} {p : AgentProgram α}
    (hp : ∀ m, I m → Follows (discipline nodeId) m p (Ends P fun _ => I)) (more : ℕ) (hm : I m) :
    Follows (discipline nodeId) m (HttpTransport.retry more p) (Ends P fun _ => I) := by
  induction more generalizing m with
  | zero => exact hp m hm
  | succ more ih =>
    refine (hp m hm).tryCatch (fun _ _ h => h) fun e m₁ hm₁ => ?_
    split_ifs
    · exact ih hm₁
    · exact hm₁

/-- One attempt: the mode is decided by the answer alone, and not by its status. -/
theorem follows_post {request : HttpRequest} {P : HttpResponse → Mode → Prop} {E : Mode → Prop}
    (hrequest : request.Justified m.executions) (hunsent : E m)
    (hok : ∀ response, P response (m.next nodeId (.post request) (.ok response)) ∧
      E (m.next nodeId (.post request) (.ok response)))
    (herror : ∀ e, E (m.next nodeId (.post request) (.error e))) :
    Follows (discipline nodeId) m (settings.httpTransport.post request) (Ends P fun _ => E) := by
  have hclient : Follows (discipline nodeId) m ((settings.httpTransport.clientPost request).tryCatch
      fun e => .throw (HttpTransport.classify request e))
      (Ends (fun response m' => P response m' ∧ E m') fun _ => E) := by
    unfold HttpTransport.clientPost
    cases request.encodeJson with
    | error e => exact hunsent
    | ok _ =>
      refine ⟨hrequest, fun r => ?_⟩
      cases r with
      | ok response => exact hok response
      | error e => exact herror e
  refine hclient.andThen fun response m' hm' => follows_lift ?_
  unfold HttpTransport.checkStatus
  split_ifs
  · exact hm'.2
  · exact hm'.2
  · exact hm'.1

/-- What a delivery asks for is held afterwards. -/
theorem follows_send (payload : NodeMetricsPayload) :
    Follows (discipline nodeId) m (settings.httpTransport.send payload) (Ends
      (fun ack m' => m'.held = ack.pendingActions.map fun action => (payload.nodeId, action))
      fun _ _ => True) := by
  refine follows_retry (I := fun _ => True) (fun m₁ _ => ?_) _ trivial
  have hpost : Follows (discipline nodeId) m₁ (settings.httpTransport.post (.metrics payload))
      (Ends (fun response m' => m'.held = (HttpRequest.metrics payload).offered response)
        fun _ _ => True) :=
    follows_post trivial trivial (fun response => ⟨rfl, trivial⟩) fun _ => trivial
  refine hpost.andThen fun response m₂ hm₂ => follows_lift ?_
  unfold HttpTransport.decodeAck
  rcases response with ⟨statusCode, _ | ack⟩
  · trivial
  · exact hm₂

/-- A report of what the executor answered is allowed and changes nothing. -/
theorem follows_reportResult {action : PendingAction} {result : ActionResult}
    (h : (action, .ok result) ∈ m.executions) :
    Follows (discipline nodeId) m (settings.scheduler.reportResult action.actionId result)
      fun _ m' => m' = m := by
  have honce : ∀ m', m' = m → Follows (discipline nodeId) m'
      (settings.httpTransport.reportActionResultOnce action.actionId result)
      (Ends (fun _ m'' => m'' = m) fun _ m'' => m'' = m) := by
    rintro m' rfl
    have hpost : Follows (discipline nodeId) m' (settings.httpTransport.post
        (.actionResult action.actionId result)) (Ends (fun _ m'' => m'' = m') fun _ m'' => m'' = m') :=
      follows_post ⟨action, h, rfl⟩ rfl (fun _ => ⟨rfl, rfl⟩) fun _ => rfl
    exact hpost.andThen fun _ m₂ hm₂ => hm₂
  have hretry := follows_retry honce (settings.httpRetryAttempts - 1).toNat rfl
  refine Follows.tryCatch hretry (fun _ _ hm' => hm') fun e m' hm' => ?_
  split_ifs
  · exact hm'
  · exact hm'

/-- The held actions are executed in turn, whatever becomes of the reports. -/
theorem follows_executeAll (actions : List PendingAction)
    (hheld : m.held = actions.map fun action => (nodeId, action)) :
    Follows (discipline nodeId) m (settings.scheduler.executeAll
      (fun action => (AgentCall.execute action).perform) actions) fun _ _ => True := by
  induction actions generalizing m with
  | nil => exact follows_pure trivial
  | cons action rest ih =>
    have hmem : (nodeId, action) ∈ m.held := by
      rw [hheld]
      exact List.mem_cons_self
    have hexecute : Follows (discipline nodeId) m (AgentCall.execute action).perform (Ends
        (fun result m' => (action, .ok result) ∈ m'.executions ∧
          m'.held = rest.map fun action => (nodeId, action)) fun _ _ => True) := by
      refine follows_perform hmem fun r => ?_
      cases r with
      | error e => trivial
      | ok result =>
        refine ⟨List.mem_append_right _ (List.mem_singleton_self _), ?_⟩
        show m.held.erase (nodeId, action) = _
        rw [hheld, List.map_cons, List.erase_cons_head]
    refine hexecute.bind (fun result m₁ hm₁ => ?_) fun _ _ _ => trivial
    refine (follows_reportResult hm₁.1).bind (fun _ m₂ hm₂ => ?_) fun _ _ _ => trivial
    exact ih (hm₂ ▸ hm₁.2)

/-- A cycle of the Agent, from any mode. -/
theorem follows_runOnce (settings : AgentSettings) (m : Mode) :
    Follows (discipline settings.nodeId) m settings.scheduler.runOnce fun _ _ => True := by
  have hdrain : Follows (discipline settings.nodeId) m settings.scheduler.drainBuffer
      fun _ _ => True := only_drainBuffer.follows_of_forall fun _ hc => hc.allowed
  refine hdrain.bind (fun _ m₁ _ => ?_) fun _ _ _ => trivial
  refine follows_collect.bind (fun payload m₂ hpayload => ?_) fun _ _ _ => trivial
  have hattempt : Follows (discipline settings.nodeId) m₂
      (settings.scheduler.attemptDelivery payload) (Ends
        (fun delivery m' => ∀ ack, delivery = .acknowledged ack →
          m'.held = ack.pendingActions.map fun action => (settings.nodeId, action))
        fun _ _ => True) := by
    have hsend : Follows (discipline settings.nodeId) m₂
        (Delivery.acknowledged <$> settings.scheduler.transport.send payload) (Ends
          (fun delivery m' => ∀ ack, delivery = .acknowledged ack →
            m'.held = ack.pendingActions.map fun action => (settings.nodeId, action))
          fun _ _ => True) := by
      refine (follows_send payload).bind (fun ack m' hm' ack' hack' => ?_) fun _ _ _ => trivial
      obtain rfl := Delivery.acknowledged.inj hack'
      rw [hm', hpayload]
    refine hsend.tryCatch (fun _ _ h => h) fun e m' _ => ?_
    split_ifs
    · exact nofun
    · exact nofun
    · trivial
  refine hattempt.bind (fun delivery m₃ hm₃ => ?_) fun _ _ _ => trivial
  cases delivery with
  | rejected => trivial
  | failed => exact (only_enqueue payload).follows_of_forall fun _ hc => hc.allowed
  | acknowledged ack =>
    show Follows _ _ (settings.scheduler.executePendingActions ack) _
    have hexecutor : settings.scheduler.executor = if settings.remediationEnabled then
        some fun action => (AgentCall.execute action).perform else none := rfl
    unfold AgentScheduler.executePendingActions
    split
    · trivial
    · rename_i execute hexecute
      rw [hexecutor] at hexecute
      split_ifs at hexecute
      obtain rfl := Option.some.inj hexecute
      exact follows_executeAll ack.pendingActions (hm₃ ack rfl)

end Agent

/-! ## The whole -/

/-- The executor answered `executed` for the id. -/
def WasExecuted (executions : Executions) (actionId : ℕ) : Prop :=
  ∃ x ∈ executions, x.1.actionId = actionId ∧ ∃ message, x.2 = .ok ⟨.executed, message⟩

theorem HttpRequest.Justified.mono {request : HttpRequest} {executions executions' : Executions}
    (h : request.Justified executions) (hsub : executions ⊆ executions') :
    request.Justified executions' := by
  cases request with
  | metrics payload => trivial
  | actionResult actionId result =>
    obtain ⟨action, hmem, hid⟩ := h
    exact ⟨action, hsub hmem, hid⟩

theorem WasExecuted.mono {executions executions' : Executions} {i : ℕ}
    (h : WasExecuted executions i) (hsub : executions ⊆ executions') :
    WasExecuted executions' i := by
  obtain ⟨x, hx, h⟩ := h
  exact ⟨x, hsub hx, h⟩

/-- The actions on the way of a dispatch: executed, held by the Agent, or carried by a response. -/
def Cluster.taken (nodeId : String) (m : Mode) (s : Cluster) : List (String × PendingAction) :=
  s.executions.map (fun x => (nodeId, x.1)) ++ (m.held ++ s.link.carried HttpRequest.offered)

/-- Where every dispatched action is, with the Agent's program in mode `m`. -/
structure Accounted (settings : AgentSettings) (m : Mode) (s : Cluster) : Prop where
  agent : Follows (discipline settings.nodeId) m s.agent fun _ _ => True
  executions : m.executions = s.executions
  taken : (s.taken settings.nodeId m).Subperm (offers s.collector)
  justified : ∀ a ∈ s.link.requests, a.request.Justified s.executions
  numbered : Numbered s.collector
  executed : ExecutedOnly (WasExecuted s.executions) s.collector

section Steps

variable {env : Environment} {settings : AgentSettings} {m : Mode} {s s' : Cluster}

theorem accounted_initial (settings : AgentSettings) : Accounted settings ⟨[], []⟩ {} where
  agent := trivial
  executions := rfl
  taken := List.Subperm.refl _
  justified a ha := by cases ha
  numbered := numbered_fresh
  executed row hrow := by cases hrow

/-- A response arrives: what it offered is held from now on. -/
theorem Accounted.receive (hs : Accounted settings m s) {number : ℕ} {request : HttpRequest}
    {i : ℕ} {response : HttpResponse} {link : Link HttpRequest HttpResponse}
    {p : AgentProgram Unit}
    (hp : Follows (discipline settings.nodeId)
      (m.next settings.nodeId (.post request) (.ok response)) p fun _ _ => True)
    (h : s.link.receive i ⟨number, request⟩ = some (response, link)) :
    Accounted settings (m.next settings.nodeId (.post request) (.ok response))
      { s with agent := p, awaiting := none, link } := by
  have hcarried := Link.carried_receive (f := HttpRequest.offered) h
  have hjustified : ∀ a ∈ link.requests, a.request.Justified s.executions := by
    rw [Link.requests_receive h]
    exact hs.justified
  refine ⟨hp, ?_, ?_, hjustified, hs.numbered, hs.executed⟩
  · cases request with
    | metrics payload => exact hs.executions
    | actionResult actionId result => exact hs.executions
  · refine List.Subperm.trans ((List.subperm_append_left _).2 ?_) hs.taken
    cases request with
    | metrics payload => exact hcarried.subperm.trans (List.sublist_append_right ..).subperm
    | actionResult actionId result => exact (List.subperm_append_left _).2 hcarried.subperm

/-- An attempt fails: nothing is held because of it. -/
theorem Accounted.fail (hs : Accounted settings m s) {request : HttpRequest}
    (failure : Except AgentError ℕ) {p : AgentProgram Unit}
    (hp : Follows (discipline settings.nodeId) (m.next settings.nodeId (.post request)
      (failure.map fun statusCode => ⟨statusCode, none⟩)) p fun _ _ => True) :
    Accounted settings (m.next settings.nodeId (.post request)
      (failure.map fun statusCode => ⟨statusCode, none⟩)) { s with agent := p, awaiting := none } := by
  cases request with
  | actionResult actionId result => exact { hs with agent := hp }
  | metrics payload =>
    cases failure with
    | error e => exact { hs with agent := hp }
    | ok statusCode =>
      refine ⟨hp, hs.executions, ?_, hs.justified, hs.numbered, hs.executed⟩
      refine List.Subperm.trans ((List.subperm_append_left _).2 ?_) hs.taken
      exact (List.sublist_append_right ..).subperm

/-- A held action is executed. -/
theorem Accounted.execute (hs : Accounted settings m s) {action : PendingAction}
    (hheld : (settings.nodeId, action) ∈ m.held) (answer : Except AgentError ActionResult)
    {p : AgentProgram Unit}
    (hp : Follows (discipline settings.nodeId) (m.next settings.nodeId (.execute action) answer) p
      fun _ _ => True) :
    Accounted settings (m.next settings.nodeId (.execute action) answer)
      { s with agent := p, executions := s.executions ++ [(action, answer)] } := by
  have hsub : s.executions ⊆ s.executions ++ [(action, answer)] := List.subset_append_left ..
  refine ⟨hp, ?_, ?_, fun a ha => (hs.justified a ha).mono hsub, hs.numbered,
    hs.executed.mono fun i hi => hi.mono hsub⟩
  · show m.executions ++ _ = s.executions ++ _
    rw [hs.executions]
  · refine List.Subperm.trans ?_ hs.taken
    unfold Cluster.taken Mode.next
    rw [List.map_append, List.append_assoc]
    refine (List.subperm_append_left _).2 ?_
    exact ((List.perm_cons_erase hheld).symm.append_right _).subperm

/-- The Agent's program goes on after its next call, in the mode after the call. -/
theorem Accounted.answer (hs : Accounted settings m s) {event : Event} {c : AgentCall}
    {k : Except AgentError c.Res → AgentProgram Unit} (hc : s.agent = .call c k)
    {r : Except AgentError c.Res} (h : s.answer event c = some (r, s')) :
    Accounted settings (m.next settings.nodeId c r) { s' with agent := k r } := by
  have hagent := hs.agent
  rw [hc] at hagent
  have hk := hagent.2 r
  unfold Cluster.answer at h
  split at h
  · obtain ⟨rfl, rfl⟩ := Prod.mk.inj (Option.some.inj h)
    exact { hs with agent := hk }
  · obtain ⟨rfl, rfl⟩ := Prod.mk.inj (Option.some.inj h)
    exact { hs with agent := hk }
  · obtain ⟨rfl, rfl⟩ := Prod.mk.inj (Option.some.inj h)
    exact { hs with agent := hk }
  · obtain ⟨rfl, rfl⟩ := Prod.mk.inj (Option.some.inj h)
    split_ifs
    · exact { hs with agent := hk }
    · exact { hs with agent := hk }
  · split at h
    · cases h
    · rename_i number _
      obtain ⟨⟨response, link⟩, hreceive, hx⟩ := Option.map_eq_some_iff.1 h
      obtain ⟨rfl, rfl⟩ := Prod.mk.inj hx
      exact hs.receive hk hreceive
  · obtain ⟨rfl, rfl⟩ := Prod.mk.inj (Option.some.inj h)
    exact hs.fail _ hk
  · obtain ⟨rfl, rfl⟩ := Prod.mk.inj (Option.some.inj h)
    exact hs.execute hagent.1 _ hk
  · cases h

theorem Accounted.resume (hs : Accounted settings m s) (event : Event) :
    ∃ m', Accounted settings m' (s.resume event) := by
  unfold Cluster.resume
  split
  · rename_i c k hc
    split
    · rename_i r s' h
      exact ⟨_, hs.answer hc h⟩
    · exact ⟨m, hs⟩
  · exact ⟨m, hs⟩

theorem Accounted.cycle (hs : Accounted settings m s) : Accounted settings m (s.cycle settings) := by
  unfold Cluster.cycle
  split
  · exact hs
  · exact { hs with agent := follows_runOnce settings m }

theorem Accounted.transmit (hs : Accounted settings m s) : Accounted settings m s.transmit := by
  unfold Cluster.transmit
  split
  · rename_i request k hc _
    have hagent := hs.agent
    rw [hc] at hagent
    have hrequest : request.Justified s.executions := hs.executions ▸ hagent.1
    refine { hs with justified := fun a ha => ?_ }
    rcases List.mem_append.1 ha with ha | ha
    · exact hs.justified a ha
    · obtain rfl := List.mem_singleton.1 ha
      exact hrequest
  · exact hs

/-! ### The Collector's steps -/

/-- An operation of the Collector keeps its tables in order; a report is one the Agent made. -/
theorem Accounted.run_program (env : Environment) (hs : Accounted settings m s) (op : Operation)
    (hop : ∀ actionId result now, op = .reportResult actionId result now →
      result.status = .executed → WasExecuted s.executions actionId) :
    Numbered (op.program.run (handle env) s.collector).2 ∧
      ExecutedOnly (WasExecuted s.executions) (op.program.run (handle env) s.collector).2 :=
  ⟨op.run_program_invariant Numbered (fun c _ _ hw => hw.step env c) hs.numbered,
    op.run_program_invariant (ExecutedOnly (WasExecuted s.executions))
      (fun _ _ hc hw => hw.step env (hc.executesOnly hop)) hs.executed⟩

/-- What the response to a request offers was dispatched while the request was served. -/
theorem offered_responseTo (env : Environment) (svc : AlertEvaluationService) (now : Instant)
    (request : HttpRequest) (w : World) :
    (offers w ++ request.offered (responseTo
        ((request.operation svc now).program.run (handle env) w).1)).Subperm
      (offers ((request.operation svc now).program.run (handle env) w).2) := by
  cases request with
  | actionResult actionId result =>
    rw [HttpRequest.offered, List.append_nil]
    exact (offers_sublist env (.reportResult actionId result now) w).subperm
  | metrics payload =>
    obtain ⟨xs, hxs, hack⟩ := MetricsIngestionService.run_ingest_dispatches env svc payload now w
    show (offers w ++ (HttpRequest.metrics payload).offered (responseTo ((Reply.ack <$>
      MetricsIngestionService.ingest svc payload now).run (handle env) w).1)).Subperm (offers
        ((Reply.ack <$> MetricsIngestionService.ingest svc payload now).run (handle env) w).2)
    rw [run_map]
    rw [hxs.offers_eq]
    refine (List.subperm_append_left _).2 ?_
    rcases hr : ((MetricsIngestionService.ingest svc payload now).run (handle env) w).1 with e | ack
    · exact List.nil_subperm
    · show List.Subperm (ack.pendingActions.map _) _
      rcases hack ack hr with hactions | hactions
      · rw [hactions, List.map_map]
        exact List.Subperm.refl _
      · rw [hactions]
        exact List.nil_subperm

theorem Accounted.serve (hs : Accounted settings m s) (i : ℕ) (svc : AlertEvaluationService)
    (now : Instant) : Accounted settings m (s.serve env i svc now) := by
  unfold Cluster.serve
  split
  · rename_i a hi
    have ha := hs.justified a (List.mem_of_getElem? hi)
    obtain ⟨hnumbered, hexecuted⟩ := hs.run_program env (a.request.operation svc now) <| by
      intro actionId result t hop hstatus
      cases hrequest : a.request with
      | metrics payload =>
        rw [hrequest] at hop
        cases hop
      | actionResult actionId' result' =>
        rw [hrequest] at hop ha
        cases hop
        obtain ⟨action, hmem, hid⟩ := ha
        exact ⟨_, hmem, hid, result.message, hstatus ▸ rfl⟩
    have hoffered := offered_responseTo env svc now a.request s.collector
    refine ⟨hs.agent, hs.executions, ?_, ?_, hnumbered, hexecuted⟩
    · refine List.Subperm.trans ?_ hoffered
      unfold Cluster.taken
      rw [Link.carried_respond, ← List.append_assoc m.held, ← List.append_assoc]
      exact (List.subperm_append_right _).2 hs.taken
    · exact fun a' ha' => hs.justified a' (List.mem_of_mem_eraseIdx ha')
  · exact hs

theorem Accounted.step (hs : Accounted settings m s) (event : Event) :
    ∃ m', Accounted settings m' (s.step env settings event) := by
  cases event with
  | cycle => exact ⟨m, hs.cycle⟩
  | kill => exact ⟨m, { hs with agent := trivial }⟩
  | transmit => exact ⟨m, hs.transmit⟩
  | serve i svc now => exact ⟨m, hs.serve i svc now⟩
  | loseRequest i =>
    exact ⟨m, { hs with justified := fun a ha => hs.justified a (List.mem_of_mem_eraseIdx ha) }⟩
  | loseResponse i =>
    refine ⟨m, { hs with taken := List.Subperm.trans ?_ hs.taken }⟩
    refine (List.subperm_append_left _).2 ((List.subperm_append_left _).2 ?_)
    exact Link.carried_loseResponse.subperm
  | operate op =>
    unfold Cluster.step
    dsimp only
    split_ifs with hreport
    · exact ⟨m, hs⟩
    · obtain ⟨hnumbered, hexecuted⟩ := hs.run_program env op fun actionId result now hop =>
        absurd (congrArg Operation.isReport hop) hreport
      exact ⟨m, { hs with
        taken := hs.taken.trans (offers_sublist env op s.collector).subperm
        numbered := hnumbered
        executed := hexecuted }⟩
  | collected | clock | buffer | receive | fail | executed => exact hs.resume _

/-- Every dispatched action is accounted for, in every state of every run. -/
theorem accounted_after (env : Environment) (settings : AgentSettings) (events : List Event) :
    ∃ m, Accounted settings m (Cluster.after env settings events) := by
  induction events using List.reverseRecOn with
  | nil => exact ⟨_, accounted_initial settings⟩
  | append_singleton events event ih =>
    obtain ⟨m, hm⟩ := ih
    unfold Cluster.after
    rw [List.foldl_append]
    exact hm.step event

end Steps

/-- In every run: no action is executed twice, what is executed was dispatched to this Agent as it
is, and a row is `executed` only if the executor said so. -/
theorem executed_at_most_once (env : Environment) (settings : AgentSettings)
    (events : List Event) :
    let s := Cluster.after env settings events
    (s.executions.map fun x => x.1.actionId).Nodup ∧
      (∀ x ∈ s.executions, ∃ row ∈ s.collector.recorded, row.id = x.1.actionId ∧
        row.status = .dispatched ∧ row.nodeId = settings.nodeId ∧
        row.actionType = x.1.actionType ∧ row.parameters = x.1.parameters) ∧
      ∀ row ∈ s.collector.store.remediationActions.rows, row.status = .executed →
        WasExecuted s.executions row.id := by
  intro s
  obtain ⟨m, hm⟩ := accounted_after env settings events
  have htaken : (s.executions.map fun x => (settings.nodeId, x.1)).Subperm (offers s.collector) :=
    (List.sublist_append_left _ _).subperm.trans hm.taken
  refine ⟨?_, fun x hx => ?_, hm.executed⟩
  · -- the ids of what was offered are ids of recorded rows, each given out once
    have hids : ((offers s.collector).map fun x => x.2.actionId).Nodup := by
      unfold offers
      rw [List.map_map]
      exact hm.numbered.nodup.sublist (List.filter_sublist.map _)
    obtain ⟨l, hperm, hsub⟩ := htaken
    have hnodup := (hperm.map _).nodup_iff.1 (hids.sublist (hsub.map _))
    rwa [List.map_map] at hnodup
  · obtain ⟨row, hrow, hx⟩ := List.mem_map.1 (htaken.subset (List.mem_map_of_mem hx))
    obtain ⟨hrecorded, hdispatched⟩ := List.mem_filter.1 hrow
    obtain ⟨hnode, haction⟩ := Prod.mk.inj hx
    have hstatus : row.status = .dispatched := beq_iff_eq.1 hdispatched
    exact ⟨row, hrecorded, congrArg PendingAction.actionId haction, hstatus, hnode,
      congrArg PendingAction.actionType haction, congrArg PendingAction.parameters haction⟩

namespace Scenario

/-- A cycle up to the delivery of its payload, with an empty buffer. -/
def collecting (seconds : Fin 86400) (usage : Double) : List Event :=
  [.cycle, .buffer true, .buffer true, .collected (.ok [⟨.cpuUsagePercent, usage, "percent", []⟩]),
    .collected (.ok []), .collected (.error (.exception "no memory")), .collected (.ok []),
    .clock (clock seconds)]

/-- An attempt that reaches the Collector and is answered. -/
def exchange (seconds : Fin 86400) : List Event :=
  [.transmit, .serve 0 service (clock seconds).instant, .receive 0]

/-- An attempt that reaches the Collector, and whose response is lost. -/
def unanswered (seconds : Fin 86400) : List Event :=
  [.transmit, .serve 0 service (clock seconds).instant, .loseResponse 0,
    .fail (.error (.httpxError .readTimeout "timed out"))]

/-- The second payload is served twice; the action of the third is executed and reported. -/
def lossyRun : List Event :=
  collecting 0 95 ++ exchange 0 ++ collecting 1000 96 ++ unanswered 1001 ++ exchange 1002 ++
    collecting 2000 97 ++ exchange 2000 ++ [.executed (.ok executed)] ++ unanswered 2001 ++
    exchange 2002

example :
    let s := Cluster.after .calm { nodeId := "node-1", remediationEnabled := true } lossyRun
    s.executions = [(⟨1, .noop, []⟩, .ok executed)] ∧
      s.collector.store.remediationActions.rows.map RemediationActionRecord.status =
        [.executed] := by
  decide +kernel

end Scenario

end ClusterPulse
