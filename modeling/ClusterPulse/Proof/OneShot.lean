import ClusterPulse.Proof.Lifecycle

/-!
# One decision for an alert, and none after an acknowledgement

A request reads the alert, records its decision and marks the alert in separate transactions.
`oneShot_of_decidesAlone`: as long as every decision is recorded for an alert that is neither
acknowledged nor remediated at that moment, and that no other request has just decided on, no alert
is decided on twice, and none after its acknowledgement.
-/

namespace ClusterPulse

open AlertRepository Prog

/-! ## Where a request is -/

/-- What a request has just done. -/
inductive Phase where
  | idle
  /-- It has recorded a decision for the alert. -/
  | deciding (alertId : ℕ)
  /-- It has acknowledged the alert. -/
  | acknowledged (alertId : ℕ)
deriving DecidableEq

/-- The phase after a call. -/
def Phase.after : (c : Call) → Except PyError c.Res → Phase
  | .createAction _ alertId .., .ok _ => .deciding alertId
  | .acknowledgeAlert alertId .., .ok _ => .acknowledged alertId
  | _, _ => .idle

/-- A decision is followed by the mark on its alert, and nothing is deleted. -/
def requests : Protocol Call Call.Res PyError Phase where
  allowed
    | .deciding alertId, c => ∃ t, c = .markRemediated alertId t
    | _, c => ∀ cutoff batchSize, c ≠ .pruneResolvedBefore cutoff batchSize
  next _ c r := Phase.after c r

theorem Call.IsRoutine.requests {c : Call} (hc : c.IsRoutine) :
    requests.allowed .idle c ∧ ∀ r, requests.next .idle c r = .idle := by
  cases c with
  | createAction | acknowledgeAlert | pruneResolvedBefore => exact hc.elim
  | _ => exact ⟨fun _ _ => nofun, fun _ => rfl⟩

theorem follows_routine {α : Type} {p : Repo α} (hp : Only Call.IsRoutine p) :
    Follows requests .idle p fun _ m => m = .idle :=
  hp.follows fun _ => Call.IsRoutine.requests

/-- The program starts and ends without an open decision. -/
abbrev Decides {α : Type} (p : Repo α) : Prop :=
  Follows requests .idle p (Ends (fun _ m => m = .idle) fun _ m => m = .idle)

theorem decides_routine {α : Type} {p : Repo α} (hp : Only Call.IsRoutine p) : Decides p := by
  refine (follows_routine hp).mono ?_
  rintro (e | a) m hm
  · exact hm
  · exact hm

/-- The next part of a program starts where the one before it ended. -/
theorem Decides.bind {α β : Type} {p : Repo α} {f : α → Repo β} (hp : Decides p)
    (hf : ∀ a, Decides (f a)) : Decides (p >>= f) := by
  refine hp.andThen ?_
  rintro a m rfl
  exact hf a

variable {svc : AlertEvaluationService} {nodeId : String} {t : Datetime}

/-- A decision leaves the mark to its caller. -/
theorem RemediationEngine.follows_decide (e : RemediationEngine) (i : ℕ) (ruleKey : String) :
    Follows requests .idle (e.decide nodeId i ruleKey t) (Ends
      (fun decision m => m = match decision with
        | none => .idle
        | some _ => .deciding i)
      fun _ m => m = .idle) := by
  unfold RemediationEngine.decide
  split_ifs
  swap
  · exact rfl
  rcases e.byRuleKey? ruleKey with _ | playbook
  · exact rfl
  refine (decides_routine (e.routine_checkSafetyLimits playbook)).andThen ?_
  rintro reason m rfl
  refine (follows_perform (fun _ _ h => nomatch h) fun r => ?_ : Follows requests .idle
    (Call.createAction nodeId i ruleKey playbook.playbookName playbook.actionType
      playbook.parameters (statusFor reason) reason t).perform (Ends
        (fun _ m => m = .deciding i) fun _ m => m = .idle)).andThen fun action m hm => hm
  cases r with
  | ok row => rfl
  | error e => rfl

namespace AlertEvaluationService

theorem decides_maybeRemediate (result : RuleEvaluationResult) (a : AlertRecord) :
    Decides (svc.maybeRemediate nodeId result t a) := by
  refine (decides_routine (only_lift _)).bind fun due => ?_
  rcases due, svc.remediationEngine with ⟨_ | _, _ | engine⟩
  · exact rfl
  · exact rfl
  · exact rfl
  · refine (engine.follows_decide a.id result.ruleKey).andThen ?_
    rintro (_ | decision) m rfl
    · exact rfl
    · have hmark : Follows requests (.deciding a.id) (Call.markRemediated a.id t).perform
          (Ends (fun _ m => m = .idle) fun _ m => m = .idle) := by
        refine follows_perform ⟨t, rfl⟩ fun r => ?_
        cases r with
        | ok row => rfl
        | error e => rfl
      exact hmark.andThen fun updated m hm => hm

theorem decides_apply (result : RuleEvaluationResult) : Decides (svc.apply nodeId result t) := by
  have hfind : (Call.findOpenAlert nodeId result.ruleKey).IsRoutine := trivial
  refine (decides_routine (only_perform hfind)).bind fun current => ?_
  split_ifs
  · have hopen : Decides (svc.openOrAdvance nodeId result t current) := by
      cases current with
      | none => exact (decides_routine (svc.routine_openAlert result)).bind fun _ => rfl
      | some a =>
        have hadvance : (Call.updateLastFired a.id result.value t).IsRoutine := trivial
        refine (decides_routine (only_perform hadvance)).bind fun a₁ => ?_
        refine (decides_routine (svc.routine_maybeEscalate a₁)).bind fun a₂ => ?_
        exact decides_maybeRemediate result a₂
    exact hopen.bind fun _ => rfl
  · cases current with
    | none => exact rfl
    | some a => exact (decides_routine (svc.routine_resolve a)).bind fun _ => rfl

theorem decides_evaluateAndApply (samples : List MetricSample) :
    Decides (svc.evaluateAndApply nodeId samples t) := by
  refine (decides_routine (svc.ruleEngine.only_evaluate (fun _ _ => trivial) samples)).bind ?_
  intro results
  refine Follows.foldlM (fun outcome result m hm => ?_) results _ _ rfl
  obtain rfl := hm
  exact (decides_apply result).bind fun _ => rfl

end AlertEvaluationService

theorem MetricsIngestionService.decides_ingest (payload : NodeMetricsPayload)
    (receivedAt : Instant) : Decides (ingest svc payload receivedAt) := by
  refine (decides_routine (routine_persist payload receivedAt)).bind fun _ => ?_
  have hevaluate : Decides (evaluateRulesBestEffort svc payload) := by
    refine Follows.tryCatch ((svc.decides_evaluateAndApply payload.samples).bind fun _ => rfl)
      (fun _ _ hm => hm) ?_
    rintro e m rfl
    exact rfl
  exact hevaluate.bind fun _ => rfl

theorem AlertEvaluationService.follows_acknowledge (alertId : ℕ) (acknowledgedBy : String)
    (now : Instant) : Follows requests .idle (acknowledge alertId acknowledgedBy now)
      (Ends (fun _ m => m = .acknowledged alertId) fun _ m => m = .idle) := by
  have hread : Decides (Call.getAlert alertId).perform :=
    follows_perform (fun _ _ => nofun) fun r => by cases r <;> rfl
  have hget : Decides (getAlert alertId) := by
    refine hread.bind fun record => ?_
    cases record with
    | none => exact rfl
    | some a => exact rfl
  refine hget.andThen ?_
  rintro a m rfl
  split_ifs
  · exact rfl
  · exact follows_perform (fun _ _ => nofun) fun r => by cases r <;> rfl

/-! ## Requests -/

/-- An ingestion or an acknowledgement. -/
def Operation.IsRequest : Operation → Prop
  | .ingest .. => True
  | .acknowledge .. => True
  | _ => False

/-- How a request ends: without an open decision, and having acknowledged, if it was to. -/
structure Ended (op : Operation) (r : Except PyError Reply) (m : Phase) : Prop where
  settled : ∀ i, m ≠ .deciding i
  acknowledged : ∀ i acknowledgedBy now, op = .acknowledge i acknowledgedBy now → ∀ reply,
    r = .ok reply → m = .acknowledged i

theorem Operation.IsRequest.follows {op : Operation} (hop : op.IsRequest) :
    Follows requests .idle op.program (Ended op) := by
  cases op with
  | ingest svc payload receivedAt =>
    have hingest : Decides (Operation.ingest svc payload receivedAt).program :=
      (MetricsIngestionService.decides_ingest payload receivedAt).bind fun _ => rfl
    refine hingest.mono fun r m hm => ?_
    have hidle : m = .idle := by
      cases r with
      | ok reply => exact hm
      | error e => exact hm
    subst hidle
    exact ⟨fun _ => nofun, fun _ _ _ => nofun⟩
  | acknowledge alertId acknowledgedBy now =>
    refine (AlertEvaluationService.follows_acknowledge alertId acknowledgedBy now).map ?_
    rintro (e | record) m rfl
    · exact ⟨fun _ => nofun, fun _ _ _ _ _ => nofun⟩
    · refine ⟨fun _ => nofun, ?_⟩
      rintro i acknowledgedBy' now' ⟨⟩ reply -
      rfl
  | _ => exact hop.elim

/-! ## What requests keep -/

/-- Marks and acknowledgements stay. -/
structure KeepsTimes (a a' : AlertRecord) : Prop where
  remediated : a.remediatedAt.isSome → a'.remediatedAt.isSome
  acknowledged : a.acknowledgedAt.isSome → a'.acknowledgedAt.isSome

theorem KeepsTimes.refl (a : AlertRecord) : KeepsTimes a a := ⟨id, id⟩

theorem exists_keeps_modify {t : AlertTable} {i j : ℕ} {f : AlertRecord → AlertRecord}
    (hf : ∀ a, (f a).id = a.id) (hkeeps : ∀ a, KeepsTimes a (f a)) {a : AlertRecord}
    (ha : t.get? j = some a) : ∃ a', (t.modify i f hf).get? j = some a' ∧ KeepsTimes a a' := by
  by_cases hi : j = i
  · subst hi
    rw [Table.get?_modify_self, ha]
    exact ⟨f a, rfl, hkeeps a⟩
  · rw [Table.get?_modify_of_ne hi]
    exact ⟨a, ha, .refl a⟩

theorem Call.exists_keeps {c : Call}
    (hc : ∀ cutoff batchSize, c ≠ .pruneResolvedBefore cutoff batchSize) (scan : Scan) {σ : Store}
    {j : ℕ} {a : AlertRecord} (ha : σ.alerts.get? j = some a) :
    ∃ a', (c.alerts scan σ).get? j = some a' ∧ KeepsTimes a a' := by
  cases c with
  | createAlert nodeId ruleKey ruleKind severity description triggeringValue bound firedAt =>
    have hget : (σ.alerts.insert (newAlert nodeId ruleKey ruleKind severity description
        triggeringValue bound firedAt) fun _ => id_newAlert ..).get? j = some a :=
      Table.get?_insert_of_get? ha
    exact ⟨a, hget, .refl a⟩
  | updateLastFired alertId triggeringValue t =>
    exact exists_keeps_modify (id_advanced · triggeringValue t) (fun _ => ⟨id, id⟩) ha
  | resolveAlert alertId t =>
    exact exists_keeps_modify (id_resolved · t) (fun _ => ⟨id, id⟩) ha
  | acknowledgeAlert alertId acknowledgedBy t =>
    exact exists_keeps_modify (id_acknowledged · acknowledgedBy t) (fun _ => ⟨id, fun _ => rfl⟩) ha
  | escalateAlert alertId t =>
    exact exists_keeps_modify (id_escalated · t) (fun _ => ⟨id, id⟩) ha
  | markRemediated alertId t =>
    exact exists_keeps_modify (id_remediated · t) (fun _ => ⟨fun _ => rfl, id⟩) ha
  | pruneResolvedBefore cutoff batchSize => exact absurd rfl (hc cutoff batchSize)
  | _ => exact ⟨a, ha, .refl a⟩

/-! ## Interleavings -/

/-- The alert that thread `i` records a decision for next. -/
def decidesNext (P : Pool Call Call.Res PyError Reply World) (i : ℕ) : Option ℕ :=
  match P.nextCall i with
  | some (.createAction _ alertId ..) => some alertId
  | _ => none

/-- The alert that a program marks next, having recorded a decision for it. -/
def markingNext (p : Repo Reply) : Option ℕ :=
  match p.nextCall with
  | some (.markRemediated alertId _) => some alertId
  | _ => none

/-- Nobody has acknowledged the alert or decided on it. -/
def AlertRecord.isOpenToDecision (a : AlertRecord) : Bool :=
  a.acknowledgedAt.isNone && a.remediatedAt.isNone

/-- A decision is recorded only for an alert that is open to one, and that no other request is about
to mark. -/
def DecidesAlone (P : Pool Call Call.Res PyError Reply World) (i : ℕ) : Prop :=
  ∀ alertId ∈ decidesNext P i,
    (P.state.store.alerts.get? alertId).any AlertRecord.isOpenToDecision = true ∧
      ∀ p ∈ P.threads, markingNext p ≠ some alertId

instance (P : Pool Call Call.Res PyError Reply World) (i : ℕ) : Decidable (DecidesAlone P i) :=
  inferInstanceAs (Decidable (∀ alertId ∈ decidesNext P i,
    (P.state.store.alerts.get? alertId).any AlertRecord.isOpenToDecision = true ∧
      ∀ p ∈ P.threads, markingNext p ≠ some alertId))

/-- The invariant, for threads in these phases. -/
structure Attempts (modes : ℕ → Phase) (P : Pool Call Call.Res PyError Reply World) : Prop where
  nodup : (P.state.recorded.map RemediationActionRecord.alertId).Nodup
  /-- An alert that was decided on is marked, or about to be. -/
  marked : ∀ r ∈ P.state.recorded, ∃ a, P.state.store.alerts.get? r.alertId = some a ∧
    (a.remediatedAt.isSome ∨
      ∃ (i : ℕ) (p : Repo Reply), P.threads[i]? = some p ∧ markingNext p = some r.alertId)
  acknowledged : ∀ i alertId, modes i = .acknowledged alertId →
    ∃ a, P.state.store.alerts.get? alertId = some a ∧ a.acknowledgedAt.isSome

/-- How thread `i` ends. -/
def EndsRequest (ops : List Operation) (i : ℕ) (r : Except PyError Reply) (m : Phase) : Prop :=
  ∃ op, ops[i]? = some op ∧ Ended op r m

theorem not_prune_of_allowed {m : Phase} {c : Call} (h : requests.allowed m c) :
    ∀ cutoff batchSize, c ≠ .pruneResolvedBefore cutoff batchSize := by
  cases m with
  | deciding i =>
    obtain ⟨t, rfl⟩ := h
    exact fun _ _ => nofun
  | idle => exact h
  | acknowledged i => exact h

theorem markingNext_of_deciding {ops : List Operation} {i alertId : ℕ} {p : Repo Reply}
    (h : Prog.Follows requests (.deciding alertId) p (EndsRequest ops i)) :
    markingNext p = some alertId := by
  cases p with
  | pure a =>
    obtain ⟨op, -, hend⟩ := h
    exact absurd rfl (hend.settled alertId)
  | throw e =>
    obtain ⟨op, -, hend⟩ := h
    exact absurd rfl (hend.settled alertId)
  | call c k =>
    obtain ⟨⟨t, rfl⟩, -⟩ := h
    rfl

theorem eq_markRemediated_of_markingNext {c : Call} {k : Except PyError c.Res → Repo Reply}
    {alertId : ℕ} (h : markingNext (.call c k) = some alertId) : ∃ t, c = .markRemediated alertId t := by
  cases c with
  | markRemediated i t =>
    obtain rfl : i = alertId := Option.some.inj h
    exact ⟨t, rfl⟩
  | _ => cases h

theorem Phase.after_error (c : Call) (e : PyError) : Phase.after c (.error e) = .idle := by
  cases c <;> rfl

/-- The row of an alert that was just acknowledged. -/
theorem exists_of_after_acknowledged {scan : Scan} {c : Call} {σ : Store} {alertId : ℕ}
    (h : Phase.after c (exec scan c σ).1 = .acknowledged alertId) :
    ∃ a, (c.alerts scan σ).get? alertId = some a ∧ a.acknowledgedAt.isSome := by
  cases c with
  | acknowledgeAlert i acknowledgedBy t =>
    rcases ha : σ.alerts.get? i with _ | a
    · have herror : (exec scan (.acknowledgeAlert i acknowledgedBy t) σ).1 =
          .error (.persistenceError "failed to acknowledge alert: alert not found") := by
        show (acknowledgeAlert σ i acknowledgedBy t).1 = _
        unfold acknowledgeAlert update
        rw [ha]
        rfl
      rw [herror, Phase.after_error] at h
      cases h
    · have hok : (exec scan (.acknowledgeAlert i acknowledgedBy t) σ).1 =
          .ok (acknowledged acknowledgedBy t a) := update_of_get? ha
      rw [hok] at h
      obtain rfl : i = alertId := Phase.acknowledged.inj h
      refine ⟨acknowledged acknowledgedBy t a, ?_, rfl⟩
      show (σ.alerts.modify i (acknowledged acknowledgedBy t)
        (id_acknowledged · acknowledgedBy t)).get? i = _
      rw [Table.get?_modify_self, ha]
      rfl
  | _ =>
    generalize (exec scan _ σ).1 = r at h
    cases r <;> cases h

/-! ## One step -/

section Step

variable {env : Environment} {ops : List Operation} {modes : ℕ → Phase}
  {P : Pool Call Call.Res PyError Reply World} {i : ℕ} {c : Call}
  {k : Except PyError c.Res → Repo Reply}

/-- A thread that is about to mark stays so while others make calls. -/
theorem marking_called (hk : P.threads[i]? = some (.call c k)) {alertId : ℕ}
    (hc : ∀ t, c ≠ .markRemediated alertId t)
    (h : ∃ (j : ℕ) (p : Repo Reply), P.threads[j]? = some p ∧ markingNext p = some alertId) :
    ∃ (j : ℕ) (p : Repo Reply), (P.called (handle env) i c k).threads[j]? = some p ∧
      markingNext p = some alertId := by
  obtain ⟨j, p, hp, hmarking⟩ := h
  by_cases hj : j = i
  · subst hj
    obtain rfl := Option.some.inj (hk.symm.trans hp)
    obtain ⟨t, ht⟩ := eq_markRemediated_of_markingNext hmarking
    exact absurd ht (hc t)
  · refine ⟨j, p, ?_, hmarking⟩
    rw [Pool.threads_called hk, if_neg hj]
    exact hp

/-- A call that records no decision. -/
theorem Attempts.keep (hmark : env.MarksRemediated) (hP : Attempts modes P)
    (hk : P.threads[i]? = some (.call c k))
    (hprune : ∀ cutoff batchSize, c ≠ .pruneResolvedBefore cutoff batchSize)
    (hrecorded : (handle env c P.state).2.recorded = P.state.recorded) :
    Attempts (Function.update modes i (Phase.after c (handle env c P.state).1))
      (P.called (handle env) i c k) := by
  have hkeeps : ∀ j a, P.state.store.alerts.get? j = some a →
      ∃ a', (handle env c P.state).2.store.alerts.get? j = some a' ∧ KeepsTimes a a' := by
    intro j a ha
    rcases handle_cases env c P.state with ⟨e, -, h⟩ | ⟨-, h⟩ <;> rw [h]
    · exact ⟨a, ha, .refl a⟩
    · rw [World.after_alerts]
      exact Call.exists_keeps hprune _ ha
  refine ⟨?_, fun r hr => ?_, fun j alertId hj => ?_⟩
  · rw [Pool.state_called, hrecorded]
    exact hP.nodup
  · rw [Pool.state_called, hrecorded] at hr
    obtain ⟨a, ha, hmarked⟩ := hP.marked r hr
    obtain ⟨a', ha', hkeep⟩ := hkeeps _ a ha
    refine ⟨a', ha', ?_⟩
    rcases hmarked with hset | hmarking
    · exact .inl (hkeep.remediated hset)
    by_cases hc : ∃ t, c = .markRemediated r.alertId t
    · -- this is the mark
      obtain ⟨t, rfl⟩ := hc
      left
      rw [handle_of_ok (hmark _ _ _), World.after_alerts] at ha'
      have hmodify : (P.state.store.alerts.modify r.alertId (remediated t)
          (id_remediated · t)).get? r.alertId = some a' := ha'
      rw [Table.get?_modify_self, ha] at hmodify
      obtain rfl := Option.some.inj hmodify
      rfl
    · exact .inr (marking_called hk (fun t ht => hc ⟨t, ht⟩) hmarking)
  · by_cases hi : j = i
    · subst hi
      rw [Function.update_self] at hj
      rcases handle_cases env c P.state with ⟨e, -, h⟩ | ⟨-, h⟩
      · rw [h, Phase.after_error] at hj
        cases hj
      · rw [h] at hj
        rw [Pool.state_called, h, World.after_alerts]
        exact exists_of_after_acknowledged hj
    · rw [Function.update_of_ne hi] at hj
      obtain ⟨a, ha, hset⟩ := hP.acknowledged j alertId hj
      obtain ⟨a', ha', hkeep⟩ := hkeeps _ a ha
      exact ⟨a', ha', hkeep.acknowledged hset⟩

/-- An alert that is decided on by one thread alone has no recorded decision. -/
theorem Attempts.ne_of_alone {alertId : ℕ} (hP : Attempts modes P) (halone : DecidesAlone P i)
    (hnext : decidesNext P i = some alertId) {r : RemediationActionRecord}
    (hr : r ∈ P.state.recorded) : r.alertId ≠ alertId := by
  rintro rfl
  obtain ⟨hopen, hothers⟩ := halone r.alertId hnext
  obtain ⟨a, ha, hnone⟩ := (Option.any_eq_true _ _).1 hopen
  obtain ⟨b, hb, hmarked⟩ := hP.marked r hr
  obtain rfl : a = b := Option.some.inj (ha.symm.trans hb)
  rcases hmarked with hset | ⟨j, p, hp, hmarking⟩
  · unfold AlertRecord.isOpenToDecision at hnone
    rw [Bool.and_eq_true, Option.isNone_iff_eq_none, Option.isNone_iff_eq_none] at hnone
    rw [hnone.2] at hset
    cases hset
  · exact hothers p (List.mem_of_getElem? hp) hmarking

/-- A call that records a decision. -/
theorem Attempts.decide {nodeId : String} {alertId : ℕ} {ruleKey playbookName : String}
    {actionType : PlaybookActionType} {parameters : StrDict} {status : RemediationActionStatus}
    {reason : Option String} {createdAt : Datetime}
    {k : Except PyError RemediationActionRecord → Repo Reply}
    (hP : Attempts modes P)
    (hk : P.threads[i]? = some (.call (.createAction nodeId alertId ruleKey playbookName actionType
      parameters status reason createdAt) k))
    (hthreads : P.Follows requests (EndsRequest ops) modes) (halone : DecidesAlone P i)
    (hfault : env.fault P.state.calls (.createAction nodeId alertId ruleKey playbookName actionType
      parameters status reason createdAt) = none) :
    Attempts (Function.update modes i (.deciding alertId)) (P.called (handle env) i
      (.createAction nodeId alertId ruleKey playbookName actionType parameters status reason
        createdAt) k) := by
  have hnext : decidesNext P i = some alertId := by
    unfold decidesNext Pool.nextCall
    rw [hk]
    rfl
  obtain ⟨a, ha, -⟩ := (Option.any_eq_true _ _).1 (halone alertId hnext).1
  obtain ⟨-, hrest⟩ := hthreads i _ hk
  have hmarks : markingNext (k (handle env (.createAction nodeId alertId ruleKey playbookName
      actionType parameters status reason createdAt) P.state).1) = some alertId := by
    rw [handle_of_ok hfault]
    have hdeciding := hrest (.ok (RemediationActionRepository.newAction nodeId alertId ruleKey
      playbookName actionType parameters status reason createdAt
      P.state.store.remediationActions.next))
    exact markingNext_of_deciding hdeciding
  have hafter : (P.called (handle env) i (.createAction nodeId alertId ruleKey playbookName
      actionType parameters status reason createdAt) k).state = P.state.after
        (env.scan P.state.calls) (.createAction nodeId alertId ruleKey playbookName actionType
          parameters status reason createdAt) := by
    rw [Pool.state_called, handle_of_ok hfault]
  refine ⟨?_, fun r hr => ?_, fun j alertId' hj => ?_⟩
  · rw [hafter, World.after_recorded, List.map_append]
    refine List.nodup_append.2 ⟨hP.nodup, List.nodup_singleton _, ?_⟩
    intro x hx y hy
    obtain ⟨r, hr, rfl⟩ := List.mem_map.1 hx
    obtain rfl := List.mem_singleton.1 hy
    exact hP.ne_of_alone halone hnext hr
  · rw [hafter, World.after_recorded] at hr
    rw [hafter, World.after_alerts]
    rcases List.mem_append.1 hr with hr | hr
    · obtain ⟨b, hb, hmarked⟩ := hP.marked r hr
      exact ⟨b, hb, hmarked.imp_right (marking_called hk fun t => nofun)⟩
    · obtain rfl := List.mem_singleton.1 hr
      refine ⟨a, ha, .inr ⟨i, _, ?_, hmarks⟩⟩
      rw [Pool.threads_called hk, if_pos rfl]
  · rw [hafter, World.after_alerts]
    by_cases hi : j = i
    · subst hi
      rw [Function.update_self] at hj
      cases hj
    · rw [Function.update_of_ne hi] at hj
      exact hP.acknowledged j alertId' hj

theorem Attempts.step (hmark : env.MarksRemediated) (hP : Attempts modes P)
    (hk : P.threads[i]? = some (.call c k)) (hthreads : P.Follows requests (EndsRequest ops) modes)
    (halone : DecidesAlone P i) :
    Attempts (Function.update modes i (Phase.after c (handle env c P.state).1))
      (P.called (handle env) i c k) := by
  have hprune := not_prune_of_allowed (hthreads i _ hk).1
  rcases handle_cases env c P.state with ⟨e, -, h⟩ | ⟨hfault, h⟩
  · exact hP.keep hmark hk hprune (by rw [h])
  · cases c with
    | createAction =>
      rw [h]
      exact hP.decide hk hthreads halone hfault
    | _ => exact hP.keep hmark hk hprune (by rw [h]; exact List.append_nil _)

/-- The decisions recorded for an alert. -/
def decisionsFor (alertId : ℕ) (w : World) : List RemediationActionRecord :=
  w.recorded.filter fun r => r.alertId == alertId

/-- No decision is recorded for an acknowledged alert. -/
theorem decisionsFor_called (hk : P.threads[i]? = some (.call c k)) (halone : DecidesAlone P i)
    {alertId : ℕ} {a : AlertRecord} (ha : P.state.store.alerts.get? alertId = some a)
    (hack : a.acknowledgedAt.isSome) :
    decisionsFor alertId (P.called (handle env) i c k).state = decisionsFor alertId P.state := by
  rw [Pool.state_called]
  rcases handle_cases env c P.state with ⟨e, -, h⟩ | ⟨-, h⟩ <;> rw [h]
  · rfl
  unfold decisionsFor
  rw [World.after_recorded, List.filter_append]
  cases c with
  | createAction nodeId alertId' ruleKey playbookName actionType parameters status reason
      createdAt =>
    have hnext : decidesNext P i = some alertId' := by
      unfold decidesNext Pool.nextCall
      rw [hk]
      rfl
    have hne : alertId' ≠ alertId := by
      rintro rfl
      have hopen := (halone alertId' hnext).1
      rw [ha] at hopen
      unfold AlertRecord.isOpenToDecision at hopen
      rw [Option.any_some, Bool.and_eq_true, Option.isNone_iff_eq_none] at hopen
      rw [hopen.1] at hack
      cases hack
    have hnil : ([RemediationActionRepository.newAction nodeId alertId' ruleKey playbookName
        actionType parameters status reason createdAt P.state.store.remediationActions.next].filter
          fun r => r.alertId == alertId) = [] := by
      refine List.filter_eq_nil_iff.2 fun r hr => ?_
      obtain rfl := List.mem_singleton.1 hr
      exact fun h => hne (beq_iff_eq.1 h)
    exact (congrArg _ hnil).trans (List.append_nil _)
  | _ => exact List.append_nil _

end Step

/-! ## Runs -/

/-- No alert is decided on twice, and none after a request has acknowledged it. -/
structure OneShot (env : Environment) (ops : List Operation) (sched : List ℕ) (w : World) :
    Prop where
  decided_once : ∀ pre, pre <+: sched →
    ((Pool.run (handle env) pre (Operation.pool ops w)).state.recorded.map
      RemediationActionRecord.alertId).Nodup
  not_after_acknowledge : ∀ pre mid, pre ++ mid <+: sched →
    ∀ i alertId acknowledgedBy now reply, ops[i]? = some (.acknowledge alertId acknowledgedBy now) →
      (Pool.run (handle env) pre (Operation.pool ops w)).outcome i = some (.ok reply) →
        decisionsFor alertId (Pool.run (handle env) (pre ++ mid) (Operation.pool ops w)).state =
          decisionsFor alertId (Pool.run (handle env) pre (Operation.pool ops w)).state

/-- The invariant, whatever the phases. -/
def Tried (ops : List Operation) (P : Pool Call Call.Res PyError Reply World) : Prop :=
  ∃ modes, P.Follows requests (EndsRequest ops) modes ∧ Attempts modes P

theorem tried_pool {ops : List Operation} (hops : ∀ op ∈ ops, op.IsRequest) {w : World}
    (hw : w.recorded = []) : Tried ops (Operation.pool ops w) := by
  refine ⟨fun _ => .idle, fun i p hp => ?_, ?_, ?_, fun _ _ => nofun⟩
  · have hthread : ops[i]?.map Operation.program = some p := (List.getElem?_map ..).symm.trans hp
    obtain ⟨op, hop, rfl⟩ := Option.map_eq_some_iff.1 hthread
    exact (hops op (List.mem_of_getElem? hop)).follows.mono fun r m hend => ⟨op, hop, hend⟩
  · show (w.recorded.map RemediationActionRecord.alertId).Nodup
    rw [hw]
    exact List.nodup_nil
  · intro r hr
    replace hr : r ∈ w.recorded := hr
    rw [hw] at hr
    cases hr

theorem Tried.step {env : Environment} (hmark : env.MarksRemediated) {ops : List Operation}
    {P : Pool Call Call.Res PyError Reply World} {i : ℕ} {c : Call}
    {k : Except PyError c.Res → Repo Reply} (hk : P.threads[i]? = some (.call c k))
    (halone : DecidesAlone P i) (hP : Tried ops P) : Tried ops (P.called (handle env) i c k) := by
  obtain ⟨modes, hthreads, hattempts⟩ := hP
  exact ⟨_, (hthreads.called hk).2, hattempts.step hmark hk hthreads halone⟩

/-- An acknowledgement that has returned is in the alert's row. -/
theorem Tried.acknowledged {ops : List Operation} {P : Pool Call Call.Res PyError Reply World}
    (hP : Tried ops P) {i alertId : ℕ} {acknowledgedBy : String} {now : Instant} {reply : Reply}
    (hop : ops[i]? = some (.acknowledge alertId acknowledgedBy now))
    (hreply : P.outcome i = some (.ok reply)) :
    ∃ a, P.state.store.alerts.get? alertId = some a ∧ a.acknowledgedAt.isSome := by
  obtain ⟨modes, hthreads, hattempts⟩ := hP
  obtain ⟨op, hop', hend⟩ := hthreads i _ (Pool.thread_of_outcome hreply)
  obtain rfl := Option.some.inj (hop'.symm.trans hop)
  exact hattempts.acknowledged i alertId (hend.acknowledged _ _ _ rfl reply rfl)

/-- For any ingestions and acknowledgements, and any interleaving in which decisions are recorded
alone. -/
theorem oneShot_of_decidesAlone {env : Environment} (hmark : env.MarksRemediated)
    {ops : List Operation} (hops : ∀ op ∈ ops, op.IsRequest) {w : World} (hw : w.recorded = [])
    {sched : List ℕ} (halone : Pool.Meets (handle env) DecidesAlone sched (Operation.pool ops w)) :
    OneShot env ops sched w := by
  have htried : ∀ pre, pre <+: sched →
      Tried ops (Pool.run (handle env) pre (Operation.pool ops w)) := fun pre hpre =>
    Pool.run_invariant_of_meets (Tried ops) (fun _ _ _ _ hk hC hP => hP.step hmark hk hC)
      (halone.initial hpre) (tried_pool hops hw)
  refine ⟨fun pre hpre => ?_, fun pre mid hpre i alertId acknowledgedBy now reply hop hreply => ?_⟩
  · obtain ⟨modes, -, hattempts⟩ := htried pre hpre
    exact hattempts.nodup
  · have hmeets := Pool.meets_append.1 (halone.initial hpre)
    have hstart := htried pre ((List.prefix_append _ _).trans hpre)
    rw [Pool.run_append]
    generalize Pool.run (handle env) pre (Operation.pool ops w) = P₀ at hreply hstart hmeets ⊢
    refine (Pool.run_invariant_of_meets (fun P => Tried ops P ∧ P.outcome i = some (.ok reply) ∧
      decisionsFor alertId P.state = decisionsFor alertId P₀.state) ?_ hmeets.2
        ⟨hstart, hreply, rfl⟩).2.2
    rintro P j c k hk hC ⟨hP, hreply', hsame⟩
    have hne : i ≠ j := by
      rintro rfl
      rw [Pool.outcome_eq_none_of_call hk] at hreply'
      cases hreply'
    obtain ⟨a, ha, hack⟩ := hP.acknowledged hop hreply'
    exact ⟨hP.step hmark hk hC, (Pool.outcome_called_of_ne hk hne).trans hreply',
      (decisionsFor_called hk hC ha hack).trans hsame⟩

namespace Scenario

/-- A push for the node of the due alert, and a human who acknowledges the alert. -/
def overridden : List Operation := [push 2000 97, .acknowledge 1 "operator" (clock 2000).instant]

theorem overridden_requests : ∀ op ∈ overridden, op.IsRequest := by
  intro op hop
  simp only [overridden, List.mem_cons, List.not_mem_nil, or_false] at hop
  rcases hop with rfl | rfl <;> trivial

theorem recorded_dueWorld : dueWorld.recorded = [] := by decide +kernel

/-- The alert is acknowledged after the push has read it and before it records its decision. -/
theorem not_oneShot :
    ¬ ∀ (env : Environment) (ops : List Operation) (sched : List ℕ) (w : World), env.Faultless →
      (∀ op ∈ ops, op.IsRequest) → w.recorded = [] → OneShot env ops sched w := by
  intro h
  have honeShot := h .calm overridden [0, 0, 0, 0, 0, 0, 1, 1, 0] dueWorld
    Environment.calm_faultless overridden_requests recorded_dueWorld
  have hreturned : ((Pool.run (handle .calm) [0, 0, 0, 0, 0, 0, 1, 1] (Operation.pool overridden
      dueWorld)).outcome 1).map Except.isOk = some true := by
    decide +kernel
  obtain ⟨outcome, houtcome, hok⟩ := Option.map_eq_some_iff.1 hreturned
  cases outcome with
  | error e => cases hok
  | ok reply =>
    have hsame := honeShot.not_after_acknowledge [0, 0, 0, 0, 0, 0, 1, 1] [0] (List.prefix_refl _)
      1 1 "operator" (clock 2000).instant reply rfl houtcome
    exact absurd hsame (by decide +kernel)

/-- The push records its decision and marks the alert before the acknowledgement. -/
theorem oneShot_in_turn :
    OneShot .calm overridden [0, 1, 0, 0, 0, 0, 0, 0, 0, 1] dueWorld ∧
      (Pool.run (handle .calm) [0, 1, 0, 0, 0, 0, 0, 0, 0, 1] (Operation.pool overridden
        dueWorld)).state.recorded.map RemediationActionRecord.alertId = [1] :=
  ⟨oneShot_of_decidesAlone Environment.calm_faultless.marksRemediated overridden_requests
    recorded_dueWorld (by decide +kernel), by decide +kernel⟩

end Scenario

end ClusterPulse
