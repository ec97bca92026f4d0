import ClusterPulse.Proof.Lifecycle

/-!
# The decisions of an evaluation

What an evaluation adds to the audit log, in any environment.  `Dispatches` says which rows were
recorded as dispatched; `evaluateAndApply` returns exactly these, when it returns, and a row is
dispatched only under a timely clock.
-/

namespace ClusterPulse

open Prog

/-- The row was recorded as dispatched. -/
def RemediationActionRecord.isDispatched (x : RemediationActionRecord) : Bool :=
  x.status == .dispatched

/-- The rows that were recorded as dispatched between two worlds. -/
def dispatchedSince (w w' : World) : List RemediationActionRecord :=
  (w'.recorded.drop w.recorded.length).filter RemediationActionRecord.isDispatched

/-- Between the worlds, `xs` were recorded as dispatched, all for the node. -/
structure Dispatches (nodeId : String) (t : Datetime) (xs : List RemediationActionRecord)
    (w w' : World) : Prop where
  recorded : ∃ l, w'.recorded = w.recorded ++ l ∧ l.filter RemediationActionRecord.isDispatched = xs
  nodeId : ∀ x ∈ xs, x.nodeId = nodeId
  timely : xs ≠ [] → Timely t

section Dispatches

variable {nodeId : String} {t : Datetime} {xs ys : List RemediationActionRecord} {w w' w'' : World}

theorem dispatches_nil (h : w'.recorded = w.recorded) : Dispatches nodeId t [] w w' :=
  ⟨⟨[], h.trans (List.append_nil _).symm, rfl⟩, by simp, fun hne => absurd rfl hne⟩

theorem Dispatches.trans (h : Dispatches nodeId t xs w w') (h' : Dispatches nodeId t ys w' w'') :
    Dispatches nodeId t (xs ++ ys) w w'' := by
  obtain ⟨l, hl, hxs⟩ := h.recorded
  obtain ⟨l', hl', hys⟩ := h'.recorded
  refine ⟨⟨l ++ l', by rw [hl', hl, List.append_assoc], by rw [List.filter_append, hxs, hys]⟩,
    fun x hx => ?_, fun hne => ?_⟩
  · rcases List.mem_append.1 hx with hx | hx
    · exact h.nodeId x hx
    · exact h'.nodeId x hx
  · by_cases hxs : xs = []
    · rw [hxs, List.nil_append] at hne
      exact h'.timely hne
    · exact h.timely hxs

theorem Dispatches.dispatchedSince (h : Dispatches nodeId t xs w w') :
    dispatchedSince w w' = xs := by
  obtain ⟨l, hl, hxs⟩ := h.recorded
  unfold ClusterPulse.dispatchedSince
  rw [hl, List.drop_left, hxs]

theorem dispatchedSince_of_recorded_eq (h : w'.recorded = w.recorded) :
    ClusterPulse.dispatchedSince w w' = [] := by
  unfold ClusterPulse.dispatchedSince
  rw [h, List.drop_length, List.filter_nil]

theorem dispatchedSince_congr {w₁ w₂ w₁' w₂' : World} (h : w₁.recorded = w₂.recorded)
    (h' : w₁'.recorded = w₂'.recorded) :
    ClusterPulse.dispatchedSince w₁ w₁' = ClusterPulse.dispatchedSince w₂ w₂' := by
  unfold ClusterPulse.dispatchedSince
  rw [h, h']

end Dispatches

/-! ## Calls that record nothing -/

/-- The call is not a decision. -/
def Call.Unrecorded (c : Call) : Prop := ∀ n, c.audit n = none

variable {env : Environment} {w : World} {svc : AlertEvaluationService} {nodeId : String}
  {t : Datetime}

theorem Call.Unrecorded.recorded {c : Call} (hc : c.Unrecorded) (w : World) :
    (handle env c w).2.recorded = w.recorded := by
  rcases handle_cases env c w with ⟨e, -, h⟩ | ⟨-, h⟩ <;> rw [h]
  rw [World.after_recorded, hc, Option.toList_none, List.append_nil]

theorem Call.IsRoutine.unrecorded {c : Call} (hc : c.IsRoutine) : c.Unrecorded := by
  cases c with
  | createAction => exact hc.elim
  | _ => exact fun _ => rfl

theorem runs_unrecorded (env : Environment) {α : Type} {p : Repo α}
    (hp : Only Call.Unrecorded p) (w : World) :
    Runs (handle env) (fun _ _ => True) p w fun _ w' => w'.recorded = w.recorded :=
  hp.runs (fun w' : World => w'.recorded = w.recorded)
    (fun _ w' hc hw' => (hc.recorded w').trans hw') rfl

/-! ## The decision -/

/-- The limits let a dispatch through only if an hour can be subtracted. -/
theorem runs_checkRateLimit_reason (e : RemediationEngine) :
    Runs (handle env) (fun _ _ => True) (e.checkRateLimit nodeId t) w (Ends
      (fun reason w' => w'.recorded = w.recorded ∧
        (reason = none → ∃ since, t.minus Timedelta.hour = .ok since))
      fun _ w' => w'.recorded = w.recorded) := by
  unfold RemediationEngine.checkRateLimit
  rcases hsince : t.minus Timedelta.hour with err | since
  · rfl
  rw [lift_ok, pure_bind']
  refine (runs_unrecorded env (only_perform fun _ => rfl) w).bind (fun count w' hw' => ?_)
    fun _ _ hw' => hw'
  split_ifs
  · exact ⟨hw', fun h => by cases h⟩
  · exact ⟨hw', fun _ => ⟨since, rfl⟩⟩

theorem runs_checkSafetyLimits_reason (e : RemediationEngine) (playbook : PlaybookDefinition) :
    Runs (handle env) (fun _ _ => True) (e.checkSafetyLimits nodeId playbook t) w (Ends
      (fun reason w' => w'.recorded = w.recorded ∧
        (reason = none → ∃ since, t.minus Timedelta.hour = .ok since))
      fun _ w' => w'.recorded = w.recorded) := by
  unfold RemediationEngine.checkSafetyLimits
  refine (runs_unrecorded env (only_perform fun _ => rfl) w).bind (fun last w₁ hw₁ => ?_)
    fun _ _ hw₁ => hw₁
  have hrate : Runs (handle env) (fun _ _ => True) (e.checkRateLimit nodeId t) w₁ (Ends
      (fun reason w' => w'.recorded = w.recorded ∧
        (reason = none → ∃ since, t.minus Timedelta.hour = .ok since))
      fun _ w' => w'.recorded = w.recorded) := hw₁ ▸ runs_checkRateLimit_reason e
  rcases RemediationEngine.elapsedSince t last with err | _ | elapsed
  · exact hw₁
  · exact hrate
  · simp only [lift_ok, pure_bind']
    split_ifs
    · exact ⟨hw₁, fun h => by cases h⟩
    · exact hrate

theorem runs_createAction_dispatches {i : ℕ} {ruleKey playbookName : String}
    {actionType : PlaybookActionType} {parameters : StrDict} {reason : Option String}
    (ht : reason = none → Timely t) :
    Runs (handle env) (fun _ _ => True) (Call.createAction nodeId i ruleKey playbookName actionType
      parameters (RemediationEngine.statusFor reason) reason t).perform w (Ends
      (fun x w' => Dispatches nodeId t ([x].filter RemediationActionRecord.isDispatched) w w')
      fun _ w' => Dispatches nodeId t [] w w') := by
  refine Call.runs_perform (fun e _ => ⟨trivial, dispatches_nil rfl⟩) fun _ => ⟨trivial, ?_⟩
  refine ⟨⟨_, rfl, rfl⟩, fun x hx => ?_, fun hne => ?_⟩
  · obtain rfl := List.mem_singleton.1 (List.mem_filter.1 hx).1
    rfl
  · -- a blocked decision is not among the dispatched
    cases reason with
    | none => exact ht rfl
    | some reason => exact absurd rfl hne

theorem runs_decide_dispatches (ht : t.utcoffset.isSome) (e : RemediationEngine) (i : ℕ)
    (ruleKey : String) :
    Runs (handle env) (fun _ _ => True) (e.decide nodeId i ruleKey t) w (Ends
      (fun decision w' => Dispatches nodeId t
        (decision.toList.filter RemediationActionRecord.isDispatched) w w')
      fun _ w' => Dispatches nodeId t [] w w') := by
  unfold RemediationEngine.decide
  split_ifs
  swap
  · exact dispatches_nil rfl
  rcases e.byRuleKey? ruleKey with _ | playbook
  · exact dispatches_nil rfl
  refine (runs_checkSafetyLimits_reason e playbook).bind (fun reason w₁ hreason => ?_)
    fun _ _ hw₁ => dispatches_nil hw₁
  obtain ⟨hw₁, hhour⟩ := hreason
  have htimely : reason = none → Timely t := fun h => ⟨ht, hhour h⟩
  refine (runs_createAction_dispatches htimely).bind (fun x w₂ hx => ?_) fun _ w₂ hx => ?_
  · exact (dispatches_nil hw₁).trans hx
  · exact (dispatches_nil hw₁).trans hx

/-! ## The service -/

theorem toList_dispatchedOnly (x : RemediationActionRecord) :
    (AlertEvaluationService.dispatchedOnly x).toList =
      [x].filter RemediationActionRecord.isDispatched := by
  unfold AlertEvaluationService.dispatchedOnly RemediationActionRecord.isDispatched
  rw [List.filter_singleton]
  by_cases hx : x.status = .dispatched
  · simp [hx]
  · rw [if_neg hx, beq_eq_false_iff_ne.2 hx]
    rfl

/-- Since `w₀`, `xs` of the result were dispatched; if the program raises, anything may have been. -/
abbrev Dispatching {α : Type} (env : Environment) (nodeId : String) (t : Datetime) (p : Repo α)
    (w₀ w : World) (xs : α → List RemediationActionRecord) : Prop :=
  Runs (handle env) (fun _ _ => True) p w (Ends
    (fun a w' => Dispatches nodeId t (xs a) w₀ w')
    fun _ w' => ∃ xs, Dispatches nodeId t xs w₀ w')

section Service

variable {w₀ : World} {zs : List RemediationActionRecord}

theorem Dispatches.of_recorded (h₀ : Dispatches nodeId t zs w₀ w) {w' : World}
    (h : w'.recorded = w.recorded) : Dispatches nodeId t zs w₀ w' := by
  have htrans := h₀.trans (dispatches_nil h)
  rwa [List.append_nil] at htrans

theorem Dispatches.append_none (h₀ : Dispatches nodeId t zs w₀ w) :
    Dispatches nodeId t (zs ++ (none : Option RemediationActionRecord).toList) w₀ w :=
  h₀.trans (dispatches_nil rfl)

theorem Dispatches.unrecorded {α : Type} {p : Repo α} (h₀ : Dispatches nodeId t zs w₀ w)
    (hp : Only Call.Unrecorded p) : Dispatching env nodeId t p w₀ w fun _ => zs := by
  refine (runs_unrecorded env hp w).post ?_
  rintro (e | a) w' hw'
  · exact ⟨zs, h₀.of_recorded hw'⟩
  · exact h₀.of_recorded hw'

theorem Dispatches.routine {α : Type} {p : Repo α} (h₀ : Dispatches nodeId t zs w₀ w)
    (hp : Only Call.IsRoutine p) : Dispatching env nodeId t p w₀ w fun _ => zs :=
  h₀.unrecorded (hp.mono fun _ => Call.IsRoutine.unrecorded)

theorem Dispatches.maybeRemediate (h₀ : Dispatches nodeId t zs w₀ w)
    (result : RuleEvaluationResult) (a : AlertRecord) :
    Dispatching env nodeId t (svc.maybeRemediate nodeId result t a) w₀ w
      fun r => zs ++ r.2.toList := by
  unfold AlertEvaluationService.maybeRemediate
  rcases hdue : svc.shouldRemediate a t with e | due
  · exact ⟨zs, h₀⟩
  rw [lift_ok, pure_bind']
  rcases due, hengine : svc.remediationEngine with ⟨_ | _, _ | engine⟩
  · exact h₀.append_none
  · exact h₀.append_none
  · exact h₀.append_none
  · have haware : t.utcoffset.isSome := AlertEvaluationService.aware_of_shouldRemediate hdue
    refine (runs_decide_dispatches haware engine a.id result.ruleKey).bind ?_
      fun _ w₁ hw₁ => ⟨zs ++ [], h₀.trans hw₁⟩
    rintro (_ | decision) w₁ hw₁
    · exact h₀.trans hw₁
    · have hmark : Only Call.Unrecorded
          (AlertEvaluationService.markDecision t a (some decision)) :=
        (only_perform fun _ => rfl).bind fun _ => only_pure _
      refine (h₀.trans hw₁).unrecorded (only_perform fun _ => rfl) |>.andThen fun b w₂ hw₂ => ?_
      show Dispatches nodeId t (zs ++ (AlertEvaluationService.dispatchedOnly decision).toList) w₀ w₂
      rw [toList_dispatchedOnly]
      exact hw₂

theorem Dispatches.apply (h₀ : Dispatches nodeId t zs w₀ w) (result : RuleEvaluationResult) :
    Dispatching env nodeId t (svc.apply nodeId result t) w₀ w fun r => zs ++ r.2.toList := by
  unfold AlertEvaluationService.apply
  refine (h₀.unrecorded (only_perform fun _ => rfl)).andThen fun current w₁ h₁ => ?_
  split_ifs
  · have hopen : Dispatching env nodeId t (svc.openOrAdvance nodeId result t current) w₀ w₁
        fun r => zs ++ r.2.toList := by
      cases current with
      | none =>
        refine (h₁.routine (svc.routine_openAlert result)).andThen fun record w₂ h₂ => ?_
        exact h₂.append_none
      | some a =>
        refine (h₁.unrecorded (only_perform fun _ => rfl)).andThen fun a₂ w₂ h₂ => ?_
        refine (h₂.routine (svc.routine_maybeEscalate a₂)).andThen fun a₃ w₃ h₃ => ?_
        exact h₃.maybeRemediate result a₃
    exact hopen.andThen fun r w₂ h₂ => h₂
  · cases current with
    | none => exact h₁.append_none
    | some a =>
      refine (h₁.routine (svc.routine_resolve a)).andThen fun record w₂ h₂ => ?_
      exact h₂.append_none

theorem Dispatches.applyAll (h₀ : Dispatches nodeId t [] w₀ w)
    (results : List RuleEvaluationResult) :
    Dispatching env nodeId t (svc.applyAll nodeId t results) w₀ w
      EvaluationOutcome.dispatchedActions := by
  have hstep : ∀ (outcome : EvaluationOutcome) (result : RuleEvaluationResult) (w₁ : World),
      Dispatches nodeId t outcome.dispatchedActions w₀ w₁ →
      Dispatching env nodeId t (svc.applyNext nodeId t outcome result) w₀ w₁
        EvaluationOutcome.dispatchedActions :=
    fun outcome result w₁ h₁ => (h₁.apply result).andThen fun r w₂ h₂ => h₂
  exact Runs.foldlM hstep results ⟨[], []⟩ w h₀

end Service

/-- An evaluation returns what it dispatched. -/
theorem dispatching_evaluateAndApply (env : Environment) (svc : AlertEvaluationService)
    (nodeId : String) (samples : List MetricSample) (t : Datetime) (w : World) :
    Dispatching env nodeId t (svc.evaluateAndApply nodeId samples t) w w
      EvaluationOutcome.dispatchedActions := by
  have h₀ : Dispatches nodeId t [] w w := dispatches_nil rfl
  refine (h₀.unrecorded (svc.ruleEngine.only_evaluate (fun _ _ _ => rfl) samples)).andThen ?_
  exact fun results w₁ h₁ => h₁.applyAll results

/-! ## Ingestion -/

/-- How the evaluation of an ingestion ends decides its acknowledgement. -/
theorem MetricsIngestionService.run_evaluateRulesBestEffort (payload : NodeMetricsPayload) :
    (evaluateRulesBestEffort svc payload).run (handle env) w =
      match (svc.evaluateAndApply payload.nodeId payload.samples payload.collectedAt).run
        (handle env) w with
      | (.ok outcome, w') => (.ok (outcome.dispatchedActions.map pendingAction), w')
      | (.error _, w') => (.ok [], w') := by
  unfold evaluateRulesBestEffort
  rw [run_tryCatch, run_bind]
  rcases (svc.evaluateAndApply payload.nodeId payload.samples payload.collectedAt).run (handle env)
    w with ⟨e | outcome, w'⟩
  · rfl
  · rfl

end ClusterPulse
