import ClusterPulse.Proof.ApiCalls
import ClusterPulse.Proof.NotifierInfluence
import ClusterPulse.Proof.TokenCheck

/-!
# What a request changes

Whoever has none of the configured tokens, and whoever only reads, changes nothing: without their requests
the tables are the same, and so is every other response (`outsiders_without_influence`).
-/

namespace ClusterPulse

open Prog

/-! ## Requests that count -/

/-- The route changes the tables. -/
def ApiRequest.writes : ApiRequest → Bool
  | receiveMetrics _ | receiveHeartbeat _ | acknowledgeAlert .. | reportRemediationActionResult .. =>
    true
  | _ => false

/-- The credentials are one of the configured tokens, if there are any. -/
def App.knows (app : App) (credentials : Option String) : Bool :=
  decide (tokenSet app.apiTokens = ∅ ∨ credentials.getD "" ∈ tokenSet app.apiTokens)

/-- A job, or a request that writes and carries a configured token. -/
def CollectorTask.counts (app : App) : CollectorTask → Bool
  | request r credentials _ => r.writes && app.knows credentials
  | job _ => true

/-! ## The token -/

section Token

variable {app : App} {request : ApiRequest} {credentials : Option String} {now : Instant}

theorem mem_of_anyMatches {presented : String} {order : List String}
    (h : anyMatches presented order = .ok true) : presented ∈ order := by
  induction order with
  | nil => cases h
  | cons token order ih =>
    unfold anyMatches at h
    by_cases hascii : isAscii presented = true ∧ isAscii token = true
    · rw [compareDigest_of_ascii hascii.1 hascii.2] at h
      by_cases heq : presented = token
      · rw [heq]
        exact List.mem_cons_self
      · rw [show (presented == token) = false from beq_false_of_ne heq] at h
        exact List.mem_cons_of_mem _ (ih h)
    · obtain ⟨message, hmessage⟩ := exists_compareDigest_error hascii
      rw [hmessage] at h
      cases h

/-- Nothing but a configured token is accepted. -/
theorem knows_of_verify (h : verifyApiToken app.iteration credentials = .ok ()) :
    app.knows credentials = true := by
  unfold App.knows
  rw [decide_eq_true_iff]
  by_cases hempty : tokenSet app.apiTokens = ∅
  · exact .inl hempty
  · rw [verifyApiToken_of_nonempty app.iteration hempty] at h
    cases hmatches : anyMatches (credentials.getD "") app.iteration.order with
    | error e =>
      rw [hmatches] at h
      cases h
    | ok found =>
      rw [hmatches] at h
      cases found with
      | false => cases h
      | true => exact .inr ((app.iteration.mem_iff _).1 (mem_of_anyMatches hmatches))

/-- A request without a configured token is answered without a call. -/
theorem respond_of_not_knows (hclosed : request.isOpen = false)
    (h : app.knows credentials = false) :
    ∃ e : TokenError, app.respond request credentials now =
      .pure ⟨(ApiError.token e).statusCode, (ApiError.token e).body app.repr⟩ := by
  cases hverify : verifyApiToken app.iteration credentials with
  | ok _ =>
    rw [knows_of_verify hverify] at h
    cases h
  | error e =>
    refine ⟨e, ?_⟩
    unfold App.respond App.authenticate
    rw [hclosed, hverify]
    rfl

end Token

/-! ## Lookups -/

/-- The calls of the routes that only read. -/
def ApiCall.IsLookup : ApiCall → Prop
  | .repo c => c = .listAllNodes ∨ (∃ alertId, c = .getAlert alertId) ∨
      ∃ actionId, c = .getAction actionId
  | _ => True

theorem ApiRequest.Makes.isLookup {request : ApiRequest} {c : ApiCall}
    (hwrites : request.writes = false) (hc : request.Makes c) : c.IsLookup := by
  cases c with
  | repo c =>
    cases request with
    | receiveMetrics | receiveHeartbeat | acknowledgeAlert | reportRemediationActionResult =>
      cases hwrites
    | listNodes => exact .inl hc
    | getAlert alertId => exact .inr (.inl ⟨alertId, hc⟩)
    | getRemediationAction actionId => exact .inr (.inr ⟨actionId, hc⟩)
    | getNode | listAlerts | listRemediationActions | healthz => cases hc
  | getNode | listAlerts | listActions | selectOne => trivial

theorem only_lookups {app : App} {task : CollectorTask} (h : task.counts app = false) :
    Only ApiCall.IsLookup (task.response app) := by
  cases task with
  | job op => cases h
  | request request credentials now =>
    obtain hwrites | hknows := Bool.and_eq_false_iff.1 h
    · exact (only_response app (.request request credentials now)).mono fun c hc =>
        ApiRequest.Makes.isLookup hwrites hc
    · cases hclosed : request.isOpen with
      | true =>
        have hwrites : request.writes = false := by
          cases request with
          | healthz => rfl
          | _ => cases hclosed
        exact (only_response app (.request request credentials now)).mono fun c hc =>
          ApiRequest.Makes.isLookup hwrites hc
      | false =>
        have hrefused : ∃ e : TokenError, app.respond request credentials now =
            .pure ⟨(ApiError.token e).statusCode, (ApiError.token e).body app.repr⟩ :=
          respond_of_not_knows hclosed hknows
        obtain ⟨e, hrespond⟩ := hrefused
        show Only _ (some <$> app.respond request credentials now)
        rw [hrespond]
        exact only_pure _

/-! ## Runs -/

/-- The `i`-th call meets the fate of the number `f i`. -/
def ApiEnvironment.along (env : ApiEnvironment) (f : ℕ → ℕ) : ApiEnvironment where
  toEnvironment := env.toEnvironment.along f
  readFault n := env.readFault (f n)

/-- Apart from the number of calls. -/
def World.Same (w w' : World) : Prop := w.SameTables w' ∧ w'.sent = w.sent

section Calls

variable {env env' : ApiEnvironment} {w w' : World}

theorem world_read {α : Type} (a : α) : (env.read a w).2 = { w with calls := w.calls + 1 } := by
  unfold ApiEnvironment.read
  split <;> rfl

theorem answer_read {α : Type} (a : α) (h : env'.readFault w'.calls = env.readFault w.calls) :
    (env'.read a w').1 = (env.read a w).1 := by
  unfold ApiEnvironment.read
  rw [h]
  cases env.readFault w.calls <;> rfl

/-- A lookup leaves everything as it is. -/
theorem same_lookup {c : ApiCall} (hc : c.IsLookup) : w.Same (env.handle c w).2 := by
  cases c with
  | repo c =>
    show w.Same (handle env.toEnvironment c w).2
    obtain ⟨e, -, heq⟩ | ⟨-, heq⟩ := handle_cases env.toEnvironment c w
    · rw [heq]
      exact ⟨⟨rfl, rfl⟩, rfl⟩
    · rw [heq]
      obtain rfl | ⟨id, rfl⟩ | ⟨id, rfl⟩ := hc
      · exact ⟨⟨rfl, List.append_nil _⟩, List.append_nil _⟩
      · exact ⟨⟨rfl, List.append_nil _⟩, List.append_nil _⟩
      · exact ⟨⟨rfl, List.append_nil _⟩, List.append_nil _⟩
  | getNode | listAlerts | listActions | selectOne =>
    show w.Same (env.read _ w).2
    rw [world_read]
    exact ⟨⟨rfl, rfl⟩, rfl⟩

theorem read_alike {α : Type} {a a' : α} (ha : a' = a) (hw : w.Same w')
    (h : env'.readFault w'.calls = env.readFault w.calls) :
    (env'.read a' w').1 = (env.read a w).1 ∧ (env.read a w).2.Same (env'.read a' w').2 := by
  subst ha
  refine ⟨answer_read a' h, ?_⟩
  rw [world_read, world_read]
  exact hw

theorem apiHandle_alike (c : ApiCall) (hfault : env'.fault w'.calls = env.fault w.calls)
    (hscan : env'.scan w'.calls = env.scan w.calls)
    (hread : env'.readFault w'.calls = env.readFault w.calls) (hw : w.Same w') :
    (env'.handle c w').1 = (env.handle c w).1 ∧ (env.handle c w).2.Same (env'.handle c w').2 := by
  cases c with
  | repo c =>
    obtain ⟨hanswer, htables, hsent⟩ := handle_alike c hfault hscan hw.1
    exact ⟨congrArg Except.ok hanswer, htables, hsent hw.2⟩
  | getNode nodeId =>
    have hanswer : NodeRepository.get w'.store nodeId = NodeRepository.get w.store nodeId := by
      rw [hw.1.1]
    exact read_alike hanswer hw hread
  | listAlerts status =>
    have hanswer : AlertRepository.listAlerts (env'.scan w'.calls) w'.store status =
        AlertRepository.listAlerts (env.scan w.calls) w.store status := by
      rw [hw.1.1, hscan]
    exact read_alike hanswer hw hread
  | listActions nodeId =>
    have hanswer : RemediationActionRepository.listActions (env'.scan w'.calls) w'.store nodeId =
        RemediationActionRepository.listActions (env.scan w.calls) w.store nodeId := by
      rw [hw.1.1, hscan]
    exact read_alike hanswer hw hread
  | selectOne => exact read_alike rfl hw hread

end Calls

theorem silences_lookups (env : ApiEnvironment) :
    Silences World.calls ApiEnvironment.handle
      (fun env n env' n' => env'.fault n' = env.fault n ∧ env'.scan n' = env.scan n ∧
        env'.readFault n' = env.readFault n)
      ApiCall.IsLookup (fun _ _ => True) World.Same env where
  count_succ env c w := by
    cases c with
    | repo c => exact handle_calls env.toEnvironment c w
    | getNode | listAlerts | listActions | selectOne =>
      show (env.read _ w).2.calls = _
      rw [world_read]
  answers c w _ := trivial
  silent c w w' hc hw := by
    have hsame : w.Same (env.handle c w).2 := same_lookup hc
    obtain ⟨⟨hstore, hrecorded⟩, hsent⟩ := hsame
    exact ⟨⟨hw.1.1.trans hstore.symm, hw.1.2.trans hrecorded.symm⟩, hw.2.trans hsent.symm⟩
  visible env' c w w' hagree hw := apiHandle_alike c hagree.1 hagree.2.1 hagree.2.2 hw

/-! ## Without the requests that do not count -/

/-- Of the results of these tasks, those of the tasks that count. -/
def kept {α : Type} (app : App) (tasks : List CollectorTask) (results : List α) : List α :=
  ((tasks.zip results).filter fun x => x.1.counts app).map Prod.snd

theorem erases_serve (app : App) (tasks : List CollectorTask) :
    Erases ApiCall.IsLookup (fun _ _ => True)
      (kept app tasks <$> results (tasks.map (CollectorTask.response app)))
      (results ((tasks.filter (CollectorTask.counts app)).map (CollectorTask.response app))) := by
  induction tasks with
  | nil => exact .pure []
  | cons task tasks ih =>
    have hsplit : kept app (task :: tasks) <$>
        results ((task :: tasks).map (CollectorTask.response app)) =
        (task.response app).result >>= fun r =>
          (fun rs => kept app (task :: tasks) (r :: rs)) <$>
            results (tasks.map (CollectorTask.response app)) := by
      show kept app (task :: tasks) <$> ((task.response app).result >>= fun r => _) = _
      rw [map_bind]
      congr 1
      funext r
      rw [map_bind]
      rfl
    rw [hsplit]
    cases hcounts : task.counts app with
    | true =>
      rw [List.filter_cons_of_pos hcounts]
      refine (Erases.refl _).bind fun r => ?_
      have hkept : ∀ rs, kept app (task :: tasks) (r :: rs) = r :: kept app tasks rs := by
        intro rs
        simp [kept, hcounts]
      simp only [hkept]
      rw [← Functor.map_map]
      exact ih.map _
    | false =>
      rw [List.filter_cons_of_neg (by simp [hcounts])]
      refine erases_result (only_lookups hcounts) fun r => ?_
      have hkept : ∀ rs, kept app (task :: tasks) (r :: rs) = kept app tasks rs := by
        intro rs
        simp [kept, hcounts]
      simp only [hkept]
      exact ih

/-- Without the requests of those who have no token and of those who only read, the tables are the same
at the end, and so are the responses to the others.  The calls that are left are the same, each with the
fate of the number that it had; only lookups are left out. -/
theorem outsiders_without_influence (app : App) (env : ApiEnvironment) (tasks : List CollectorTask)
    (w : World) :
    ∃ f : ℕ → ℕ, StrictMonoOn f (Set.Ici w.calls) ∧ w.calls ≤ f w.calls ∧
      let served := results (tasks.map (CollectorTask.response app))
      let counted := results ((tasks.filter (CollectorTask.counts app)).map
        (CollectorTask.response app))
      (counted.run (env.along f).handle w).1 = (served.run env.handle w).1.map (kept app tasks) ∧
        (served.run env.handle w).2.Same (counted.run (env.along f).handle w).2 ∧
        Renumbers World.calls ApiCall.IsLookup f (served.trace env.handle w)
          (counted.trace (env.along f).handle w) := by
  obtain ⟨f, hmono, hle, hrun⟩ :=
    (erases_serve app tasks).exists_run (silences_lookups env) w w.calls
  have hcounted := hrun w (env.along f) ⟨⟨rfl, rfl⟩, rfl⟩ rfl fun i _ => ⟨rfl, rfl, rfl⟩
  rw [run_map, trace_map] at hcounted
  exact ⟨f, hmono, hle, hcounted⟩

end ClusterPulse
