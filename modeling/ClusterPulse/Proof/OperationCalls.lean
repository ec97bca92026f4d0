import ClusterPulse.Proof.Lifecycle

/-!
# Which calls an operation makes

`Operation.Makes op c` says once what each operation may ask of the repositories, with the values
it passes where they matter.  `Operation.only_program` shows that it asks nothing else, and
`Operation.runs_program` turns an invariant of these calls into an invariant of the operation.
-/

namespace ClusterPulse

open Prog

/-- The calls of an evaluation of a node's samples at time `t`. -/
def Call.IsEvaluation (nodeId : String) (t : Datetime) : Call → Prop
  | .createAction nodeId' _ _ _ _ _ status reason createdAt =>
    nodeId' = nodeId ∧ status = RemediationEngine.statusFor reason ∧ createdAt = t
  | .markRemediated _ remediatedAt => remediatedAt = t
  | c => c.IsRoutine

theorem Call.IsRoutine.isEvaluation {c : Call} (hc : c.IsRoutine) (nodeId : String)
    (t : Datetime) : c.IsEvaluation nodeId t := by
  cases c with
  | createAction | markRemediated => exact hc.elim
  | _ => exact hc

/-- These calls without those that store the samples. -/
def Call.IsAlerting (nodeId : String) (t : Datetime) : Call → Prop
  | .upsertSeen .. | .bulkInsert .. => False
  | c => c.IsEvaluation nodeId t

theorem Call.IsAlerting.isEvaluation {nodeId : String} {t : Datetime} {c : Call}
    (hc : c.IsAlerting nodeId t) : c.IsEvaluation nodeId t := by
  cases c with
  | upsertSeen | bulkInsert => exact hc.elim
  | _ => exact hc

theorem Call.IsLifecycle.isAlerting {c : Call} (hc : c.IsLifecycle) (nodeId : String)
    (t : Datetime) : c.IsAlerting nodeId t := by
  cases c with
  | upsertSeen | bulkInsert | createAction | markRemediated => exact hc.elim
  | _ => exact hc

/-- The calls of a staleness sweep. -/
def Call.IsSweep : Call → Prop
  | .listAllNodes | .findOpenAlert .. | .createAlert .. | .resolveAlert .. | .notify .. => True
  | _ => False

/-- The calls that an operation may make. -/
def Operation.Makes : Operation → Call → Prop
  | evaluateAndApply _ nodeId _ t, c => c.IsEvaluation nodeId t
  | ingest _ payload _, c => c.IsEvaluation payload.nodeId payload.collectedAt
  | acknowledge alertId acknowledgedBy now, c =>
    c = .getAlert alertId ∨ c = .acknowledgeAlert alertId acknowledgedBy now
  | reportResult actionId result now, c => c = .getAction actionId ∨
    c = .markResult actionId (RemediationActionService.actionStatus result.status) result.message now
  | reconciliation _ now, c => (∃ cutoff, c = .listDispatchedBefore cutoff) ∨
    ∃ actionId, c = .markResult actionId .failed (some ReconciliationJob.timedOutReason) now.instant
  | retention .., c => (∃ cutoff batchSize, c = .pruneTerminalBefore cutoff batchSize) ∨
    (∃ cutoff batchSize, c = .pruneResolvedBefore cutoff batchSize) ∨
    ∃ cutoff batchSize, c = .pruneSamplesBefore cutoff batchSize
  | staleness .., c => c = .listAllNodes ∨ c.IsRoutine

/-! ## Evaluations -/

section Evaluation

variable {nodeId : String} {t : Datetime} {svc : AlertEvaluationService}

theorem only_routine {α : Type} {p : Repo α} (hp : Only Call.IsRoutine p) :
    Only (Call.IsEvaluation nodeId t) p :=
  hp.mono fun _ hc => hc.isEvaluation nodeId t

theorem only_lifecycle {α : Type} {p : Repo α} (hp : Only Call.IsLifecycle p) :
    Only (Call.IsAlerting nodeId t) p :=
  hp.mono fun _ hc => hc.isAlerting nodeId t

theorem RemediationEngine.only_decide (e : RemediationEngine) (i : ℕ) (ruleKey : String) :
    Only (Call.IsAlerting nodeId t) (e.decide nodeId i ruleKey t) := by
  unfold RemediationEngine.decide
  split_ifs
  swap
  · exact only_pure _
  cases e.byRuleKey? ruleKey with
  | none => exact only_pure _
  | some playbook =>
    have hlimits : Only Call.IsLifecycle (e.checkSafetyLimits nodeId playbook t) :=
      (e.only_checkSafetyLimits playbook).mono fun _ hc => hc.query.lifecycle
    refine (only_lifecycle hlimits).bind fun reason => ?_
    exact (only_perform ⟨rfl, rfl, rfl⟩).bind fun _ => only_pure _

namespace AlertEvaluationService

theorem only_maybeRemediate (result : RuleEvaluationResult) (a : AlertRecord) :
    Only (Call.IsAlerting nodeId t) (svc.maybeRemediate nodeId result t a) := by
  refine (only_lift _).bind fun due => ?_
  rcases due, svc.remediationEngine with ⟨_ | _, _ | engine⟩
  · exact only_pure _
  · exact only_pure _
  · exact only_pure _
  · refine (engine.only_decide a.id result.ruleKey).bind fun decision => ?_
    cases decision with
    | none => exact only_pure _
    | some decision =>
      have hmark : Call.IsAlerting nodeId t (.markRemediated a.id t) := rfl
      exact (only_perform hmark).bind fun _ => only_pure _

theorem only_apply (result : RuleEvaluationResult) :
    Only (Call.IsAlerting nodeId t) (svc.apply nodeId result t) := by
  refine (only_perform trivial).bind fun current => ?_
  split_ifs
  · have hopen : Only (Call.IsAlerting nodeId t) (svc.openOrAdvance nodeId result t current) := by
      cases current with
      | none => exact (only_lifecycle (svc.lifecycle_openAlert result)).bind fun _ => only_pure _
      | some a =>
        refine (only_perform trivial).bind fun a₁ => ?_
        exact (only_lifecycle (svc.lifecycle_maybeEscalate a₁)).bind fun a₂ =>
          only_maybeRemediate result a₂
    exact hopen.bind fun _ => only_pure _
  · cases current with
    | none => exact only_pure _
    | some a => exact (only_lifecycle (svc.lifecycle_resolve a)).bind fun _ => only_pure _

theorem only_applyAll (results : List RuleEvaluationResult) :
    Only (Call.IsAlerting nodeId t) (svc.applyAll nodeId t results) :=
  Only.foldlM (fun _ result => (only_apply result).bind fun _ => only_pure _) results _

theorem only_evaluateAndApply (samples : List MetricSample) :
    Only (Call.IsAlerting nodeId t) (svc.evaluateAndApply nodeId samples t) :=
  (svc.ruleEngine.only_evaluate (fun _ _ => trivial) samples).bind fun results =>
    only_applyAll results

end AlertEvaluationService

theorem MetricsIngestionService.only_evaluateRulesBestEffort (payload : NodeMetricsPayload) :
    Only (Call.IsAlerting payload.nodeId payload.collectedAt)
      (evaluateRulesBestEffort svc payload) :=
  ((svc.only_evaluateAndApply payload.samples).bind fun _ => only_pure _).tryCatch
    fun _ => only_pure _

theorem MetricsIngestionService.only_ingest (payload : NodeMetricsPayload) (receivedAt : Instant) :
    Only (Call.IsEvaluation payload.nodeId payload.collectedAt)
      (ingest svc payload receivedAt) := by
  refine (only_routine (routine_persist payload receivedAt)).bind fun _ => ?_
  have hbody : Only (Call.IsEvaluation payload.nodeId payload.collectedAt)
      (evaluateRulesBestEffort svc payload) :=
    (only_evaluateRulesBestEffort payload).mono fun _ => Call.IsAlerting.isEvaluation
  exact hbody.bind fun _ => only_pure _

end Evaluation

/-! ### What an evaluation keeps -/

/-- The calls of an evaluation that are not decisions. -/
def Call.IsUndecided : Call → Prop
  | .markRemediated .. => True
  | c => c.IsRoutine

theorem Call.IsRoutine.isUndecided {c : Call} (hc : c.IsRoutine) : c.IsUndecided := by
  cases c with
  | markRemediated => trivial
  | _ => exact hc

/-- The decisions of an evaluation keep `I`, and so does every other call. -/
structure KeptBy {S : Type} (h : Handler Call Call.Res PyError S) (I : S → Prop)
    (svc : AlertEvaluationService) (nodeId : String) (t : Datetime) : Prop where
  call : ∀ c s, c.IsUndecided → I s → I (h c s).2
  decide : ∀ e ∈ svc.remediationEngine, ∀ alertId ruleKey s, I s →
    Keeps h I (e.decide nodeId alertId ruleKey t) s

namespace KeptBy

variable {S : Type} {h : Handler Call Call.Res PyError S} {I : S → Prop}
  {svc : AlertEvaluationService} {nodeId : String} {t : Datetime} {s : S}

theorem of_only {α : Type} {p : Repo α} (hI : KeptBy h I svc nodeId t)
    (hp : Only Call.IsUndecided p) (hs : I s) : Keeps h I p s :=
  hp.runs I hI.call hs

theorem of_routine {α : Type} {p : Repo α} (hI : KeptBy h I svc nodeId t)
    (hp : Only Call.IsRoutine p) (hs : I s) : Keeps h I p s :=
  hI.of_only (hp.mono fun _ => Call.IsRoutine.isUndecided) hs

theorem maybeRemediate (hI : KeptBy h I svc nodeId t) (result : RuleEvaluationResult)
    (a : AlertRecord) (hs : I s) : Keeps h I (svc.maybeRemediate nodeId result t a) s := by
  unfold AlertEvaluationService.maybeRemediate
  rcases svc.shouldRemediate a t with e | due
  · exact hs
  rw [lift_ok, pure_bind']
  rcases due, hengine : svc.remediationEngine with ⟨_ | _, _ | engine⟩
  · exact hs
  · exact hs
  · exact hs
  · refine Keeps.bind (hI.decide engine (Option.mem_def.2 hengine) a.id result.ruleKey s hs) ?_
    intro decision s₁ hs₁
    cases decision with
    | none => exact hs₁
    | some decision =>
      have hmark : Only Call.IsUndecided
          (AlertEvaluationService.markDecision t a (some decision)) :=
        (only_perform trivial).bind fun _ => only_pure _
      exact hI.of_only hmark hs₁

theorem openOrAdvance (hI : KeptBy h I svc nodeId t) (result : RuleEvaluationResult)
    (current : Option AlertRecord) (hs : I s) :
    Keeps h I (svc.openOrAdvance nodeId result t current) s := by
  cases current with
  | none => exact Keeps.bind (hI.of_routine (svc.routine_openAlert result) hs) fun _ _ hs₁ => hs₁
  | some a =>
    refine Keeps.bind (hI.of_routine (only_perform trivial) hs) fun a₁ s₁ hs₁ => ?_
    refine Keeps.bind (hI.of_routine (svc.routine_maybeEscalate a₁) hs₁) fun a₂ s₂ hs₂ => ?_
    exact hI.maybeRemediate result a₂ hs₂

theorem apply (hI : KeptBy h I svc nodeId t) (result : RuleEvaluationResult) (hs : I s) :
    Keeps h I (svc.apply nodeId result t) s := by
  refine Keeps.bind (hI.of_routine (only_perform trivial) hs) fun current s₁ hs₁ => ?_
  split_ifs
  · exact Keeps.bind (hI.openOrAdvance result current hs₁) fun _ _ hs₂ => hs₂
  · cases current with
    | none => exact hs₁
    | some a => exact Keeps.bind (hI.of_routine (svc.routine_resolve a) hs₁) fun _ _ hs₂ => hs₂

theorem evaluateAndApply (hI : KeptBy h I svc nodeId t) (samples : List MetricSample) (hs : I s) :
    Keeps h I (svc.evaluateAndApply nodeId samples t) s := by
  have hrules : Only Call.IsRoutine (svc.ruleEngine.evaluate nodeId samples t) :=
    svc.ruleEngine.only_evaluate (fun _ _ => trivial) samples
  refine Keeps.bind (hI.of_routine hrules hs) fun results s₁ hs₁ => ?_
  have hnext : ∀ outcome result s₂, I s₂ → Keeps h I (svc.applyNext nodeId t outcome result) s₂ :=
    fun _ result _ hs₂ => Keeps.bind (hI.apply result hs₂) fun _ _ hs₃ => hs₃
  exact Keeps.foldlM hnext results _ s₁ hs₁

theorem ingest {payload : NodeMetricsPayload}
    (hI : KeptBy h I svc payload.nodeId payload.collectedAt) (receivedAt : Instant) (hs : I s) :
    Keeps h I (MetricsIngestionService.ingest svc payload receivedAt) s := by
  have hpersist := MetricsIngestionService.routine_persist payload receivedAt
  refine Keeps.bind (hI.of_routine hpersist hs) fun _ s₁ hs₁ => ?_
  have hevaluate : Keeps h I (MetricsIngestionService.evaluateRulesBestEffort svc payload) s₁ :=
    Keeps.tryCatch (Keeps.bind (hI.evaluateAndApply payload.samples hs₁) fun _ _ hs₂ => hs₂)
      fun _ _ hs₂ => hs₂
  exact Keeps.bind hevaluate fun _ _ hs₂ => hs₂

end KeptBy

/-! ## The other operations -/

theorem AlertEvaluationService.only_acknowledge (alertId : ℕ) (acknowledgedBy : String)
    (now : Instant) :
    Only (Operation.acknowledge alertId acknowledgedBy now).Makes
      (acknowledge alertId acknowledgedBy now) := by
  have hget : Only (Operation.acknowledge alertId acknowledgedBy now).Makes (getAlert alertId) := by
    refine (only_perform (.inl rfl)).bind fun record => ?_
    cases record with
    | none => trivial
    | some a => exact only_pure _
  refine hget.bind fun current => ?_
  split_ifs
  · trivial
  · exact only_perform (.inr rfl)

theorem RemediationActionService.only_reportResult (actionId : ℕ) (result : ActionResult)
    (now : Instant) :
    Only (Operation.reportResult actionId result now).Makes (reportResult actionId result now) := by
  have hget : Only (Operation.reportResult actionId result now).Makes (getAction actionId) := by
    refine (only_perform (.inl rfl)).bind fun record => ?_
    cases record with
    | none => trivial
    | some a => exact only_pure _
  refine hget.bind fun current => ?_
  split_ifs
  · exact only_perform (.inr rfl)
  · trivial

theorem ReconciliationJob.only_run (settings : CollectorSettings) (now : Datetime) :
    Only (Operation.reconciliation settings now).Makes (run settings now) := by
  refine (only_lift _).bind fun cutoff => (only_perform (.inl ⟨_, rfl⟩)).bind fun actions => ?_
  exact Only.foldlM (fun _ action => (only_perform (.inr ⟨_, rfl⟩)).bind fun _ => only_pure _)
    actions 0

theorem RetentionJob.only_drain {C : Call → Prop} {prune : Repo ℕ} (hprune : Only C prune)
    (passes total : ℕ) : Only C (drain prune passes total) := by
  induction passes generalizing total with
  | zero => trivial
  | succ passes ih =>
    refine hprune.bind fun deleted => ?_
    split_ifs
    · exact ih _
    · exact only_pure _

theorem RetentionJob.only_run (settings : CollectorSettings) (now : Datetime) (passes : ℕ) :
    Only (Operation.retention settings now passes).Makes (run settings now passes) := by
  refine (only_lift _).bind fun c₁ => ?_
  refine (only_drain (only_perform (.inl ⟨_, _, rfl⟩)) passes 0).bind fun _ => ?_
  refine (only_lift _).bind fun c₂ => ?_
  refine (only_drain (only_perform (.inr (.inl ⟨_, _, rfl⟩))) passes 0).bind fun _ => ?_
  refine (only_lift _).bind fun c₃ => ?_
  exact (only_drain (only_perform (.inr (.inr ⟨_, _, rfl⟩))) passes 0).bind fun _ => only_pure _

theorem StalenessJob.only_run (settings : CollectorSettings) (firstRunDone : Bool)
    (now : Datetime) : Only Call.IsSweep (run settings firstRunDone now) := by
  have hnotify : ∀ m, Only Call.IsSweep (notify settings m) := by
    intro m
    unfold notify
    split_ifs
    · exact only_perform trivial
    · exact only_pure _
  refine (only_perform trivial).bind fun nodes => Only.foldlM (fun counts node => ?_) nodes _
  refine (only_lift _).bind fun silent => (only_perform trivial).bind fun found => ?_
  split_ifs
  · have hopen : Only Call.IsSweep (openAlert settings now node silent.totalSeconds) :=
      (only_lift _).bind fun _ => (only_perform trivial).bind fun _ => hnotify _
    exact hopen.bind fun _ => only_pure _
  · exact only_pure _
  · cases found with
    | none => exact only_pure _
    | some a =>
      have hresolve : Only Call.IsSweep (resolve settings now a) :=
        (only_perform trivial).bind fun _ => hnotify _
      exact hresolve.bind fun _ => only_pure _

/-! ## All of them -/

theorem Operation.only_program (op : Operation) : Only op.Makes op.program := by
  have hmap : ∀ {α : Type} {p : Repo α} {f : α → Reply}, Only op.Makes p → Only op.Makes (f <$> p) :=
    fun hp => hp.bind fun _ => only_pure _
  cases op with
  | evaluateAndApply svc nodeId samples t =>
    exact hmap ((svc.only_evaluateAndApply samples).mono fun _ => Call.IsAlerting.isEvaluation)
  | ingest svc payload receivedAt =>
    exact hmap (MetricsIngestionService.only_ingest payload receivedAt)
  | acknowledge alertId acknowledgedBy now =>
    exact hmap (AlertEvaluationService.only_acknowledge alertId acknowledgedBy now)
  | reportResult actionId result now =>
    exact hmap (RemediationActionService.only_reportResult actionId result now)
  | reconciliation settings now => exact hmap (ReconciliationJob.only_run settings now)
  | retention settings now passes => exact hmap (RetentionJob.only_run settings now passes)
  | staleness settings firstRunDone now =>
    refine hmap ((StalenessJob.only_run settings firstRunDone now).mono fun c hc => ?_)
    cases c with
    | listAllNodes => exact .inl rfl
    | findOpenAlert | createAlert | resolveAlert | notify => exact .inr trivial
    | _ => exact hc.elim

/-- What the calls of an operation keep, the operation keeps. -/
theorem Operation.run_program_invariant {env : Environment} (op : Operation) (I : World → Prop)
    (hI : ∀ c w, op.Makes c → I w → I (handle env c w).2) {w : World} (hw : I w) :
    I (op.program.run (handle env) w).2 :=
  (op.only_program.runs I hI hw).run

end ClusterPulse
