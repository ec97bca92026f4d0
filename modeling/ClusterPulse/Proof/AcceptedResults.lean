import ClusterPulse.Proof.GroundTruth

/-!
# Accepted results

A report reads the action and marks it in two transactions, and a sweep marks every action on a list
that it read before.  `accepted_result_kept`: as long as a report marks its action only when no
other program still holds a reading of it, at most one report on an action is accepted, and the row
of the action stays as that report left it.
-/

namespace ClusterPulse

open Prog RemediationActionRepository

/-! ## The programs in progress -/

/-- A report that has found its action dispatched. -/
def reportMarks (actionId : ℕ) (result : ActionResult) (now : Instant) : Repo Reply :=
  Reply.action <$> (Call.markResult actionId
    (RemediationActionService.actionStatus result.status) result.message now).perform

/-- How a report goes on from the row that it reads. -/
def reportGoesOn (actionId : ℕ) (result : ActionResult) (now : Instant) :
    Except PyError (Option RemediationActionRecord) → Repo Reply
  | .ok none => .throw (.remediationActionNotFoundError actionId)
  | .ok (some row) =>
    if row.status = .dispatched then reportMarks actionId result now
    else .throw (.remediationActionNotDispatchedError actionId row.status.value)
  | .error e => .throw e

/-- A sweep with these listed actions left. -/
def sweepMarks (now : Datetime) (actions : List RemediationActionRecord) (count : ℕ) : Repo Reply :=
  Reply.timedOut <$> actions.foldlM (ReconciliationJob.timeOut now) count

/-- How a sweep goes on from the list that it reads. -/
def sweepGoesOn (now : Datetime) : Except PyError (List RemediationActionRecord) → Repo Reply
  | .ok actions => sweepMarks now actions 0
  | .error e => .throw e

/-- What a program of a report or a sweep has come to. -/
inductive Stage : Operation → Repo Reply → Prop where
  | checks (actionId : ℕ) (result : ActionResult) (now : Instant) :
    Stage (.reportResult actionId result now)
      (.call (.getAction actionId) (reportGoesOn actionId result now))
  | accepts (actionId : ℕ) (result : ActionResult) (now : Instant) :
    Stage (.reportResult actionId result now) (reportMarks actionId result now)
  | accepted (actionId : ℕ) (result : ActionResult) (now : Instant)
      (row : RemediationActionRecord) :
    Stage (.reportResult actionId result now) (.pure (.action row))
  | lists (settings : CollectorSettings) (now : Datetime) (cutoff : Instant) :
    Stage (.reconciliation settings now) (.call (.listDispatchedBefore cutoff) (sweepGoesOn now))
  | marks (settings : CollectorSettings) (now : Datetime) (actions : List RemediationActionRecord)
      (count : ℕ) :
    Stage (.reconciliation settings now) (sweepMarks now actions count)
  | raised (op : Operation) (e : PyError) : Stage op (.throw e)

/-- A report or a sweep. -/
def Operation.MarksResults : Operation → Prop
  | .reportResult .. => True
  | .reconciliation .. => True
  | _ => False

theorem reportMarks_eq (actionId : ℕ) (result : ActionResult) (now : Instant) :
    reportMarks actionId result now = .call (.markResult actionId
      (RemediationActionService.actionStatus result.status) result.message now) fun
        | .ok row => .pure (.action row)
        | .error e => .throw e := by
  unfold reportMarks Call.perform perform
  rw [map_call]
  congr 1
  funext r
  cases r <;> rfl

theorem sweepMarks_cons (now : Datetime) (action : RemediationActionRecord)
    (actions : List RemediationActionRecord) (count : ℕ) :
    sweepMarks now (action :: actions) count = .call (.markResult action.id .failed
      (some ReconciliationJob.timedOutReason) now.instant) fun
        | .ok _ => sweepMarks now actions (count + 1)
        | .error e => .throw e := by
  unfold sweepMarks
  rw [List.foldlM_cons]
  unfold ReconciliationJob.timeOut Call.perform perform
  rw [call_bind, call_bind, map_call]
  congr 1
  funext r
  cases r <;> rfl

theorem program_reportResult (actionId : ℕ) (result : ActionResult) (now : Instant) :
    (Operation.reportResult actionId result now).program =
      .call (.getAction actionId) (reportGoesOn actionId result now) := by
  show Reply.action <$> RemediationActionService.reportResult actionId result now = _
  unfold RemediationActionService.reportResult RemediationActionService.getAction
    Call.perform perform
  rw [call_bind, call_bind, map_call]
  congr 1
  funext r
  rcases r with e | _ | row
  · rfl
  · rfl
  · simp only [reportGoesOn, pure_eq, pure_bind']
    split_ifs
    · rfl
    · rfl

/-- Every program starts at a stage. -/
theorem Operation.MarksResults.stage {op : Operation} (hop : op.MarksResults) :
    Stage op op.program := by
  cases op with
  | reportResult actionId result now =>
    rw [program_reportResult]
    exact .checks actionId result now
  | reconciliation settings now =>
    show Stage _ (Reply.timedOut <$> ReconciliationJob.run settings now)
    unfold ReconciliationJob.run
    rcases ReconciliationJob.cutoff settings.remediationDispatchTimeoutSeconds now with e | cutoff
    · exact .raised _ e
    · have hlists : Reply.timedOut <$> (lift (.ok cutoff) >>= fun cutoff : Datetime =>
          (Call.listDispatchedBefore cutoff.instant).perform >>= fun actions =>
            actions.foldlM (ReconciliationJob.timeOut now) 0) =
          .call (.listDispatchedBefore cutoff.instant) (sweepGoesOn now) := by
        unfold Call.perform perform
        rw [lift_ok, pure_bind', call_bind, map_call]
        congr 1
        funext r
        cases r <;> rfl
      rw [hlists]
      exact .lists settings now cutoff.instant
  | _ => exact hop.elim

/-! ## The marks in progress -/

/-- The actions that a program marks before it makes any other call, when marks return `x`. -/
def marksNext (x : RemediationActionRecord) : Repo Reply → List ℕ
  | .call (.markResult actionId _ _ _) k => actionId :: marksNext x (k (.ok x))
  | _ => []

theorem marksNext_reportMarks (x : RemediationActionRecord) (actionId : ℕ) (result : ActionResult)
    (now : Instant) : marksNext x (reportMarks actionId result now) = [actionId] := by
  rw [reportMarks_eq]
  rfl

theorem marksNext_sweepMarks (x : RemediationActionRecord) (now : Datetime)
    (actions : List RemediationActionRecord) (count : ℕ) :
    marksNext x (sweepMarks now actions count) = actions.map RemediationActionRecord.id := by
  induction actions generalizing count with
  | nil => rfl
  | cons action actions ih =>
    rw [sweepMarks_cons, marksNext, List.map_cons]
    exact congrArg _ (ih (count + 1))

/-- The record that marks return makes no difference. -/
theorem Stage.marksNext_eq {op : Operation} {p : Repo Reply} (hp : Stage op p)
    (x y : RemediationActionRecord) : marksNext x p = marksNext y p := by
  cases hp with
  | accepts => rw [marksNext_reportMarks, marksNext_reportMarks]
  | marks => rw [marksNext_sweepMarks, marksNext_sweepMarks]
  | _ => rfl

/-- The action is still dispatched. -/
def AwaitsResult (t : ActionTable) (actionId : ℕ) : Prop :=
  ∃ row, t.get? actionId = some row ∧ row.status = .dispatched

/-- What one call of a report or a sweep does. -/
structure StageStep (op : Operation) (p p' : Repo Reply) (t t' : ActionTable) : Prop where
  stage : Stage op p'
  /-- A new mark is for an action that awaits its result. -/
  marks : ∀ x, ∀ i ∈ marksNext x p', i ∈ marksNext x p ∨ AwaitsResult t i
  /-- Only the actions to be marked change. -/
  get? : ∀ i, (∀ x, i ∉ marksNext x p) → t'.get? i = t.get? i
  /-- A report that returns has marked its action. -/
  accepted : ∀ actionId result now, op = .reportResult actionId result now →
    ∀ reply, p' = .pure reply → p = reportMarks actionId result now ∧
      (t.get? actionId).isSome ∧ ¬ AwaitsResult t' actionId

theorem mem_listDispatchedBefore {scan : Scan} {σ : Store} {cutoff : Instant} {i : ℕ}
    (hi : i ∈ (listDispatchedBefore scan σ cutoff).map RemediationActionRecord.id) :
    AwaitsResult σ.remediationActions i := by
  obtain ⟨row, hrow, rfl⟩ := List.mem_map.1 hi
  obtain ⟨hmem, hcond⟩ := List.mem_filter.1 hrow
  rw [Bool.and_eq_true, beq_iff_eq] at hcond
  exact ⟨row, Table.get?_of_mem (mem_reorder.1 hmem), hcond.1⟩

/-- A call after which the program raises, and that changes no action. -/
theorem stageStep_raise (op : Operation) (p : Repo Reply) (e : PyError) (t : ActionTable) :
    StageStep op p (.throw e) t t where
  stage := .raised op e
  marks _ _ hi := nomatch hi
  get? _ _ := rfl
  accepted _ _ _ _ _ hp := nomatch hp

theorem Stage.handle_error {op : Operation} {c : Call} {k : Except PyError c.Res → Repo Reply}
    (hs : Stage op (.call c k)) (e : PyError) : k (.error e) = .throw e := by
  generalize hp : Prog.call c k = p at hs
  cases hs with
  | checks =>
    cases hp
    rfl
  | accepts =>
    rw [reportMarks_eq] at hp
    cases hp
    rfl
  | accepted => cases hp
  | lists =>
    cases hp
    rfl
  | marks settings now actions count =>
    cases actions with
    | nil => cases hp
    | cons action actions =>
      rw [sweepMarks_cons] at hp
      cases hp
      rfl
  | raised => cases hp

/-- A mark, followed by `k`. -/
theorem stageStep_mark {op : Operation} {p : Repo Reply} {i : ℕ} {status : RemediationActionStatus}
    {reason : Option String} {completedAt : Instant}
    {k : Except PyError RemediationActionRecord → Repo Reply} {σ : Store}
    (herror : ∀ e, k (.error e) = .throw e)
    (hok : ∀ row, (σ.remediationActions.get? i).isSome →
      StageStep op p (k (.ok row)) σ.remediationActions (σ.remediationActions.modify i
        (marked status reason completedAt) (id_marked status reason completedAt))) :
    StageStep op p (k (markResult σ i status reason completedAt).1) σ.remediationActions
      (σ.remediationActions.modify i (marked status reason completedAt)
        (id_marked status reason completedAt)) := by
  rcases hrow : σ.remediationActions.get? i with _ | row
  · rw [Table.modify_of_get?_eq_none hrow]
    unfold markResult
    rw [hrow]
    dsimp only
    rw [herror]
    exact stageStep_raise ..
  · rw [markResult_of_get? hrow]
    exact hok _ (by rw [hrow]; rfl)

theorem get?_modify_of_not_mem {t : ActionTable} {i j : ℕ} {l : List ℕ}
    {f : RemediationActionRecord → RemediationActionRecord} {hf : ∀ a, (f a).id = a.id}
    (hi : i ∈ l) (hj : j ∉ l) : (t.modify i f hf).get? j = t.get? j :=
  Table.get?_modify_of_ne fun h => hj (h ▸ hi)

/-- A call of a report or a sweep in any environment. -/
theorem Stage.step {op : Operation} {c : Call} {k : Except PyError c.Res → Repo Reply}
    (hs : Stage op (.call c k)) (env : Environment) (w : World) :
    StageStep op (.call c k) (k (handle env c w).1) w.store.remediationActions
      (handle env c w).2.store.remediationActions := by
  rcases handle_cases env c w with ⟨e, -, h⟩ | ⟨-, h⟩
  · rw [h, hs.handle_error]
    exact stageStep_raise ..
  rw [h]
  show StageStep op (.call c k) (k (exec (env.scan w.calls) c w.store).1) _
    (w.after (env.scan w.calls) c).store.remediationActions
  rw [World.after_actions]
  generalize hp : Prog.call c k = p at hs
  cases hs with
  | checks actionId result now =>
    cases hp
    show StageStep _ _ (reportGoesOn actionId result now
      (.ok (w.store.remediationActions.get? actionId))) _ w.store.remediationActions
    rcases hrow : w.store.remediationActions.get? actionId with _ | row
    · exact stageStep_raise ..
    · rw [reportGoesOn]
      split_ifs with hstatus
      · refine ⟨.accepts actionId result now, fun x i hi => .inr ?_, fun _ _ => rfl, ?_⟩
        · rw [marksNext_reportMarks, List.mem_singleton] at hi
          subst hi
          exact ⟨row, hrow, hstatus⟩
        · intro actionId' result' now' hop reply hpure
          rw [reportMarks_eq] at hpure
          cases hpure
      · exact stageStep_raise ..
  | accepts actionId result now =>
    rw [reportMarks_eq] at hp
    obtain ⟨rfl, hk⟩ := Prog.call.inj hp
    have hk := eq_of_heq hk
    refine stageStep_mark (σ := w.store) (k := k) (fun e => by rw [hk]) fun row hsome => ?_
    rw [hk]
    refine ⟨.accepted actionId result now row, fun x i hi => (nomatch hi), fun i hi => ?_, ?_⟩
    · exact get?_modify_of_not_mem List.mem_cons_self (hi row)
    · rintro _ _ _ ⟨⟩ reply -
      refine ⟨rfl, hsome, ?_⟩
      rintro ⟨row', hrow', hstatus⟩
      rw [Table.get?_modify_self] at hrow'
      obtain ⟨row, -, rfl⟩ := Option.map_eq_some_iff.1 hrow'
      cases hresult : result.status <;> rw [hresult] at hstatus <;> cases hstatus
  | accepted => cases hp
  | lists settings now cutoff =>
    cases hp
    refine ⟨.marks settings now _ 0, fun x i hi => .inr ?_, fun _ _ => rfl, ?_⟩
    · replace hi : i ∈ marksNext x (sweepMarks now
          (listDispatchedBefore (env.scan w.calls) w.store cutoff) 0) := hi
      rw [marksNext_sweepMarks] at hi
      exact mem_listDispatchedBefore hi
    · rintro actionId result now' ⟨⟩
  | marks settings now actions count =>
    cases actions with
    | nil => cases hp
    | cons action actions =>
      rw [sweepMarks_cons] at hp
      obtain ⟨rfl, hk⟩ := Prog.call.inj hp
      have hk := eq_of_heq hk
      refine stageStep_mark (σ := w.store) (k := k) (fun e => by rw [hk]) fun row hsome => ?_
      rw [hk]
      refine ⟨.marks settings now actions (count + 1), fun x i hi => .inl ?_, fun i hi => ?_, ?_⟩
      · exact List.mem_cons_of_mem _ hi
      · exact get?_modify_of_not_mem List.mem_cons_self (hi row)
      · rintro actionId result now' ⟨⟩
  | raised => cases hp

/-! ## Interleavings -/

/-- The action that thread `i` marks next, if it is a report. -/
def reportMarksNext (ops : List Operation) (P : Pool Call Call.Res PyError Reply World) (i : ℕ) :
    Option ℕ :=
  match ops[i]?, P.nextCall i with
  | some (.reportResult ..), some (.markResult actionId ..) => some actionId
  | _, _ => none

/-- A report marks its action only when no other program is about to mark it as well. -/
def MarksAlone (ops : List Operation) (P : Pool Call Call.Res PyError Reply World) (i : ℕ) : Prop :=
  ∀ actionId ∈ reportMarksNext ops P i, ∀ x ∈ P.state.store.remediationActions.get? actionId,
    ∀ p ∈ P.threads.eraseIdx i, actionId ∉ marksNext x p

instance (ops : List Operation) (P : Pool Call Call.Res PyError Reply World) (i : ℕ) :
    Decidable (MarksAlone ops P i) :=
  inferInstanceAs (Decidable (∀ actionId ∈ reportMarksNext ops P i,
    ∀ x ∈ P.state.store.remediationActions.get? actionId, ∀ p ∈ P.threads.eraseIdx i,
      actionId ∉ marksNext x p))

/-- Operation `i` is a report on the action, and it has returned. -/
def Accepted (ops : List Operation) (P : Pool Call Call.Res PyError Reply World) (i actionId : ℕ) :
    Prop :=
  ∃ result now reply, ops[i]? = some (.reportResult actionId result now) ∧
    P.outcome i = some (.ok reply)

/-- The action awaits no result, and only thread `i` can be about to mark it. -/
structure Closed (P : Pool Call Call.Res PyError Reply World) (i actionId : ℕ) : Prop where
  awaits : ¬ AwaitsResult P.state.store.remediationActions actionId
  marks : ∀ (j : ℕ) (p : Repo Reply), j ≠ i → P.threads[j]? = some p → ∀ x, actionId ∉ marksNext x p

/-- The invariant: accepted actions are closed. -/
structure Settles (ops : List Operation) (P : Pool Call Call.Res PyError Reply World) : Prop where
  stage : ∀ (i : ℕ) (p : Repo Reply), P.threads[i]? = some p → ∃ op, ops[i]? = some op ∧ Stage op p
  closed : ∀ i actionId, Accepted ops P i actionId → Closed P i actionId
  unique : ∀ i j actionId, Accepted ops P i actionId → Accepted ops P j actionId → i = j

section Step

variable {env : Environment} {ops : List Operation} {P : Pool Call Call.Res PyError Reply World}
  {i : ℕ} {c : Call} {k : Except PyError c.Res → Repo Reply}

theorem Accepted.ne_of_call (hk : P.threads[i]? = some (.call c k)) {j actionId : ℕ}
    (h : Accepted ops P j actionId) : j ≠ i := by
  rintro rfl
  obtain ⟨-, -, reply, -, hreply⟩ := h
  rw [Pool.outcome_eq_none_of_call hk] at hreply
  cases hreply

/-- A report that returns now has just marked its action. -/
theorem Accepted.of_called (hk : P.threads[i]? = some (.call c k)) (hP : Settles ops P)
    {actionId : ℕ} (h : Accepted ops (P.called (handle env) i c k) i actionId) :
    ∃ result now, ops[i]? = some (.reportResult actionId result now) ∧
      .call c k = reportMarks actionId result now ∧
      (P.state.store.remediationActions.get? actionId).isSome ∧
      ¬ AwaitsResult (P.called (handle env) i c k).state.store.remediationActions actionId := by
  obtain ⟨result, now, reply, hop, hreply⟩ := h
  obtain ⟨op, hop', hstage⟩ := hP.stage i _ hk
  obtain rfl := Option.some.inj (hop'.symm.trans hop)
  rw [Pool.outcome_called_self hk] at hreply
  have hpure := eq_pure_of_outcome hreply
  exact ⟨result, now, hop, (hstage.step env P.state).accepted _ _ _ rfl reply hpure⟩

/-- A call of another thread leaves a closed action alone. -/
theorem Closed.step_other (hk : P.threads[i]? = some (.call c k)) (hP : Settles ops P) {j actionId : ℕ}
    (h : Closed P j actionId) (hj : j ≠ i) :
    Closed (P.called (handle env) i c k) j actionId ∧
      (P.called (handle env) i c k).state.store.remediationActions.get? actionId =
        P.state.store.remediationActions.get? actionId := by
  obtain ⟨op, hop, hstage⟩ := hP.stage i _ hk
  have hstep := hstage.step env P.state
  have hmarks : ∀ x, actionId ∉ marksNext x (.call c k) := h.marks i _ hj.symm hk
  -- the call marks other actions only, so the row stays and nobody takes it up again
  have hrow : (P.called (handle env) i c k).state.store.remediationActions.get? actionId =
      P.state.store.remediationActions.get? actionId := hstep.get? actionId hmarks
  refine ⟨⟨?_, fun j' p hj' hp x hmem => ?_⟩, ?_⟩
  · rintro ⟨row, hget, hstatus⟩
    exact h.awaits ⟨row, hrow ▸ hget, hstatus⟩
  · rw [Pool.threads_called hk] at hp
    split_ifs at hp with hi
    · obtain rfl := Option.some.inj hp
      rcases hstep.marks x actionId hmem with hold | hawaits
      · exact hmarks x hold
      · exact h.awaits hawaits
    · exact h.marks j' p hj' hp x hmem
  · exact hrow

/-- What the condition says when a report has just marked its action. -/
theorem Closed.of_marksAlone (hk : P.threads[i]? = some (.call c k)) (hP : Settles ops P)
    (halone : MarksAlone ops P i) {actionId : ℕ}
    (h : Accepted ops (P.called (handle env) i c k) i actionId) :
    Closed (P.called (handle env) i c k) i actionId := by
  obtain ⟨result, now, hop, hcall, hsome, hawaits⟩ := h.of_called hk hP
  refine ⟨hawaits, fun j p hj hp x hmem => ?_⟩
  rw [Pool.threads_called hk, if_neg hj] at hp
  obtain ⟨row, hrow⟩ := Option.isSome_iff_exists.1 hsome
  have hnext : reportMarksNext ops P i = some actionId := by
    unfold reportMarksNext Pool.nextCall
    rw [hop, hk, hcall, reportMarks_eq]
    rfl
  have hothers : p ∈ P.threads.eraseIdx i := by
    rw [List.mem_eraseIdx_iff_getElem?]
    exact ⟨j, hj, hp⟩
  obtain ⟨op', -, hstage⟩ := hP.stage j p hp
  rw [hstage.marksNext_eq x row] at hmem
  exact halone actionId hnext row hrow p hothers hmem

theorem Settles.step (hk : P.threads[i]? = some (.call c k)) (hP : Settles ops P)
    (halone : MarksAlone ops P i) : Settles ops (P.called (handle env) i c k) := by
  have hold : ∀ {j actionId : ℕ}, Accepted ops (P.called (handle env) i c k) j actionId →
      j ≠ i → Accepted ops P j actionId := by
    rintro j actionId ⟨result, now, reply, hop, hreply⟩ hj
    exact ⟨result, now, reply, hop, (Pool.outcome_called_of_ne hk hj).symm.trans hreply⟩
  -- a report that returns now is not about an action that was accepted before
  have hfirst : ∀ {j actionId : ℕ}, Accepted ops (P.called (handle env) i c k) i actionId →
      Accepted ops (P.called (handle env) i c k) j actionId → j = i := by
    intro j actionId hi hj
    by_contra hne
    obtain ⟨result, now, -, hcall, hsome, -⟩ := hi.of_called hk hP
    obtain ⟨row, -⟩ := Option.isSome_iff_exists.1 hsome
    refine (hP.closed j actionId (hold hj hne)).marks i _ (Ne.symm hne) hk row ?_
    rw [hcall, marksNext_reportMarks]
    exact List.mem_singleton_self _
  refine ⟨fun j p hp => ?_, fun j actionId hj => ?_, fun j j' actionId hj hj' => ?_⟩
  · rw [Pool.threads_called hk] at hp
    split_ifs at hp with hi
    · obtain rfl := Option.some.inj hp
      obtain ⟨op, hop, hstage⟩ := hP.stage i _ hk
      exact ⟨op, hi ▸ hop, (hstage.step env P.state).stage⟩
    · exact hP.stage j p hp
  · by_cases hi : j = i
    · subst hi
      exact Closed.of_marksAlone hk hP halone hj
    · exact ((hP.closed j actionId (hold hj hi)).step_other hk hP hi).1
  · by_cases hi : j = i
    · subst hi
      exact (hfirst hj hj').symm
    · by_cases hi' : j' = i
      · subst hi'
        exact hfirst hj' hj
      · exact hP.unique j j' actionId (hold hj hi) (hold hj' hi')

end Step

theorem settles_pool {ops : List Operation} (hops : ∀ op ∈ ops, op.MarksResults) (w : World) :
    Settles ops (Operation.pool ops w) := by
  have hthreads : ∀ i : ℕ, (Operation.pool ops w).threads[i]? = ops[i]?.map Operation.program :=
    fun i => List.getElem?_map ..
  have hnone : ∀ i actionId, ¬ Accepted ops (Operation.pool ops w) i actionId := by
    rintro i actionId ⟨result, now, reply, hop, hreply⟩
    have hthread : (Operation.pool ops w).threads[i]? =
        some (.call (.getAction actionId) (reportGoesOn actionId result now)) := by
      rw [hthreads, hop, ← program_reportResult]
      rfl
    rw [Pool.outcome_eq_none_of_call hthread] at hreply
    cases hreply
  refine ⟨fun i p hp => ?_, fun i actionId h => absurd h (hnone i actionId), fun i j actionId h =>
    absurd h (hnone i actionId)⟩
  obtain ⟨op, hop, rfl⟩ := Option.map_eq_some_iff.1 ((hthreads i).symm.trans hp)
  exact ⟨op, hop, (hops op (List.mem_of_getElem? hop)).stage⟩

/-- The part of an action's row that a mark writes. -/
def verdict (t : ActionTable) (actionId : ℕ) :
    Option (RemediationActionStatus × Option String × Option Instant) :=
  (t.get? actionId).map fun a => (a.status, a.reason, a.completedAt)

/-- Once a report has returned, no other report on its action returns, and the row stays as it is. -/
def KeepsAccepted (env : Environment) (ops : List Operation) (sched : List ℕ) (w : World) : Prop :=
  ∀ pre mid, pre ++ mid <+: sched → ∀ i actionId,
    Accepted ops (Pool.run (handle env) pre (Operation.pool ops w)) i actionId →
      (∀ j, Accepted ops (Pool.run (handle env) (pre ++ mid) (Operation.pool ops w)) j actionId →
        j = i) ∧
      verdict (Pool.run (handle env) (pre ++ mid)
          (Operation.pool ops w)).state.store.remediationActions actionId =
        verdict (Pool.run (handle env) pre
          (Operation.pool ops w)).state.store.remediationActions actionId

/-- For any reports and sweeps, and any interleaving in which reports mark alone. -/
theorem accepted_result_kept {env : Environment} {ops : List Operation}
    (hops : ∀ op ∈ ops, op.MarksResults) (w : World) {sched : List ℕ}
    (halone : Pool.Meets (handle env) (MarksAlone ops) sched (Operation.pool ops w)) :
    KeepsAccepted env ops sched w := by
  intro pre mid hpre i actionId hi
  have hmeets := Pool.meets_append.1 (halone.initial hpre)
  have hstart : Settles ops (Pool.run (handle env) pre (Operation.pool ops w)) :=
    Pool.run_invariant_of_meets (Settles ops) (fun P j c k hk hC hP => hP.step hk hC) hmeets.1
      (settles_pool hops w)
  rw [Pool.run_append]
  generalize Pool.run (handle env) pre (Operation.pool ops w) = P₀ at hi hstart hmeets ⊢
  -- from here on, every step leaves the accepted action as it is
  have hend := Pool.run_invariant_of_meets (fun P => Settles ops P ∧ Accepted ops P i actionId ∧
      P.state.store.remediationActions.get? actionId =
        P₀.state.store.remediationActions.get? actionId) ?_ hmeets.2 ⟨hstart, hi, rfl⟩
  · obtain ⟨hP, hi', hrow⟩ := hend
    refine ⟨fun j hj => hP.unique j i actionId hj hi', ?_⟩
    unfold verdict
    rw [hrow]
  · rintro P j c k hk hC ⟨hP, hi', hrow⟩
    have hne : i ≠ j := hi'.ne_of_call hk
    refine ⟨hP.step hk hC, ?_, ?_⟩
    · obtain ⟨result, now, reply, hop, hreply⟩ := hi'
      exact ⟨result, now, reply, hop, (Pool.outcome_called_of_ne hk hne).trans hreply⟩
    · exact ((hP.closed i actionId hi').step_other hk hP hne).2.trans hrow

namespace Scenario

/-- A sweep at 4000 seconds, when the action has timed out, and the Agent's report. -/
def lateSweep : List Operation :=
  [(sweep 4000).operation, .reportResult 1 executed (clock 4000).instant]

theorem lateSweep_marksResults : ∀ op ∈ lateSweep, op.MarksResults := by
  intro op hop
  simp only [lateSweep, List.mem_cons, List.not_mem_nil, or_false] at hop
  rcases hop with rfl | rfl <;> trivial

/-- The report is accepted after the sweep has listed the action and before it marks it. -/
theorem not_keepsAccepted :
    ¬ ∀ (env : Environment) (ops : List Operation) (sched : List ℕ) (w : World),
      (∀ op ∈ ops, op.MarksResults) → KeepsAccepted env ops sched w := by
  intro h
  have hkept := h .calm lateSweep [0, 1, 1, 0] dispatched lateSweep_marksResults [0, 1, 1] [0]
    (List.prefix_refl _) 1 1
  have hreturned : ((Pool.run (handle .calm) [0, 1, 1] (Operation.pool lateSweep
      dispatched)).outcome 1).map Except.isOk = some true := by
    decide +kernel
  obtain ⟨outcome, houtcome, hok⟩ := Option.map_eq_some_iff.1 hreturned
  cases outcome with
  | error e => cases hok
  | ok reply =>
    have hverdict := (hkept ⟨executed, (clock 4000).instant, reply, rfl, houtcome⟩).2
    exact absurd hverdict (by decide +kernel)

/-- Two reports and two sweeps, where the first report reads and marks without interruption. -/
def reportsAndSweeps : List Operation :=
  [(sweep 3000).operation, .reportResult 1 executed (clock 3500).instant,
    .reportResult 1 executed (clock 3600).instant, (sweep 4000).operation]

theorem keepsAccepted_alone :
    KeepsAccepted .calm reportsAndSweeps [0, 1, 1, 2, 3] dispatched ∧
      (Pool.run (handle .calm) [0, 1, 1, 2, 3] (Operation.pool reportsAndSweeps
        dispatched)).state.store.remediationActions.rows.map RemediationActionRecord.status =
          [.executed] := by
  refine ⟨accepted_result_kept (fun op hop => ?_) dispatched (by decide +kernel), by decide +kernel⟩
  simp only [reportsAndSweeps, List.mem_cons, List.not_mem_nil, or_false] at hop
  rcases hop with rfl | rfl | rfl | rfl <;> trivial

end Scenario

end ClusterPulse
