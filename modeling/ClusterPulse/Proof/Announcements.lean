import ClusterPulse.Proof.OperationCalls
import ClusterPulse.Proof.Evaluation

/-!
# What a program writes to an alert, and what it says of it

A program writes only to an alert that it has found firing, with the row as its last call left it; it
escalates only one that is not escalated; and a message is about the write just before it.  With a
notifier every such write is followed by its message.  `Desk` is what a program has before it, and
`announcing` the rules it goes by.
-/

namespace ClusterPulse

open Prog

/-! ## The rules -/

/-- What a program works on. -/
structure Desk where
  /-- The alert that it has found firing, by its id. -/
  found : Option (ℕ × AlertRecord)
  /-- The message about its last write. -/
  due : Option Notification

namespace Desk

def clear : Desk := ⟨none, none⟩

/-- The desk after a call, with its answer. -/
def next (m : Desk) : (c : Call) → Except PyError c.Res → Desk
  | .findOpenAlert .., .ok found =>
    ⟨(found : Option AlertRecord).map fun a => (a.id, a), none⟩
  | .getAlert alertId, .ok found =>
    ⟨((found : Option AlertRecord).filter fun a => a.status = .firing).map fun a => (alertId, a),
      none⟩
  | .createAlert .., .ok a => ⟨none, some (.opened a)⟩
  | .updateLastFired .., .ok a => ⟨some (a.id, a), none⟩
  | .escalateAlert .., .ok a => ⟨some (a.id, a), some (.escalated a)⟩
  | .resolveAlert .., .ok a => ⟨none, some (.resolved a)⟩
  | .notify _, .ok _ | .countRecentActions .., .ok _ | .findLastAction .., .ok _
  | .createAction .., .ok _ => ⟨m.found, none⟩
  | _, .ok _ => clear
  | _, .error _ => ⟨m.found, none⟩

/-- What a call requires of the desk. -/
def Allows (m : Desk) : Call → Prop
  | .updateLastFired alertId _ _ | .resolveAlert alertId _ | .acknowledgeAlert alertId _ _
  | .markRemediated alertId _ => ∃ a, m.found = some (alertId, a)
  | .escalateAlert alertId _ => ∃ a, m.found = some (alertId, a) ∧ a.escalatedAt = none
  | .notify message => m.due = some message
  | _ => True

/-- Where a notifier tells of every write, no message is due. -/
def Done (tells : Bool) (m : Desk) : Prop := tells = true → m.due = none

/-- Apart from a message that is due, calls are made with no message due. -/
def Admits (tells : Bool) (m : Desk) (c : Call) : Prop :=
  m.Allows c ∧ (m.Done tells ∨ ∃ message, c = .notify message)

end Desk

def announcing (tells : Bool) : Protocol Call Call.Res PyError Desk := ⟨Desk.Admits tells, Desk.next⟩

theorem Desk.done_clear (tells : Bool) : Desk.clear.Done tells := fun _ => rfl

variable {tells : Bool} {m : Desk} {nodeId : String} {t : Datetime} {svc : AlertEvaluationService}

/-! ## Calls about nothing on the desk -/

/-- The calls that are allowed on any desk, and say or write nothing that there is a message for. -/
def Call.IsAside : Call → Prop
  | .createAlert .. | .updateLastFired .. | .resolveAlert .. | .acknowledgeAlert ..
  | .escalateAlert .. | .markRemediated .. | .notify _ => False
  | _ => True

/-- Those among them that leave the desk as it is. -/
def Call.IsDecision : Call → Prop
  | .countRecentActions .. | .findLastAction .. | .createAction .. => True
  | _ => False

theorem Call.IsDecision.aside {c : Call} (hc : c.IsDecision) : c.IsAside := by
  cases c with
  | countRecentActions | findLastAction | createAction => trivial
  | _ => exact hc.elim

theorem Call.IsAside.allowed {c : Call} (hc : c.IsAside) (hm : m.Done tells) :
    (announcing tells).allowed m c := by
  refine ⟨?_, .inl hm⟩
  cases c with
  | createAlert | updateLastFired | resolveAlert | acknowledgeAlert | escalateAlert | markRemediated
  | notify => exact hc.elim
  | _ => trivial

theorem Call.IsAside.done {c : Call} (hc : c.IsAside) (r : Except PyError c.Res) :
    (m.next c r).Done tells := by
  intro _
  rcases r with e | a
  · cases c <;> rfl
  · cases c with
    | createAlert | updateLastFired | resolveAlert | acknowledgeAlert | escalateAlert
    | markRemediated | notify => exact hc.elim
    | _ => rfl

theorem follows_aside {α : Type} {p : Repo α} (hp : Only Call.IsAside p) (hm : m.Done tells) :
    Follows (announcing tells) m p fun _ m' => m'.Done tells :=
  hp.follows_keeps (Desk.Done tells) (fun _ _ hc hm => ⟨hc.allowed hm, fun r => hc.done r⟩) hm

theorem follows_decision {α : Type} {p : Repo α} (hp : Only Call.IsDecision p)
    (hm : m.Done tells) :
    Follows (announcing tells) m p fun _ m' => m'.found = m.found ∧ m'.Done tells := by
  refine hp.follows_keeps (fun m' : Desk => m'.found = m.found ∧ m'.Done tells) ?_
    ⟨rfl, hm⟩
  rintro c m' hc ⟨hfound, hdone⟩
  refine ⟨hc.aside.allowed hdone, fun r => ⟨?_, hc.aside.done r⟩⟩
  cases c with
  | countRecentActions | findLastAction | createAction => cases r <;> exact hfound
  | _ => exact hc.elim

/-! ## Evaluations -/

/-- The message that is due, if there is a notifier. -/
theorem follows_notify (notifier : Bool) (hn : tells = true → notifier = true)
    {message : Notification} (hm : m.due = some message) :
    Follows (announcing tells) m
      (if notifier then (Call.notify message).perform else return () : Repo Unit)
      fun _ m' => m'.found = m.found ∧ m'.Done tells := by
  cases notifier with
  | true =>
    refine follows_perform ⟨hm, .inr ⟨message, rfl⟩⟩ fun r => ?_
    cases r <;> exact ⟨rfl, fun _ => rfl⟩
  | false =>
    refine ⟨rfl, fun htells => ?_⟩
    cases hn htells

namespace AlertEvaluationService

theorem tells_openAlert (hn : tells = true → svc.notifier = true)
    (result : RuleEvaluationResult) (hm : m.Done tells) :
    Follows (announcing tells) m (svc.openAlert nodeId result t) fun _ m' => m'.Done tells := by
  have hcreate : Follows (announcing tells) m (Call.createAlert nodeId result.ruleKey
      result.ruleKind result.severity result.description result.value result.bound t).perform
      (Ends (fun a m' => m'.due = some (.opened a)) fun _ m' => m'.Done tells) := by
    refine follows_perform ⟨trivial, .inl hm⟩ fun r => ?_
    cases r with
    | error e => exact fun _ => rfl
    | ok a => rfl
  refine hcreate.bind (fun a m₁ hdue => ?_) fun _ _ h => h
  exact (follows_notify svc.notifier hn hdue).bind (fun _ _ h => h.2) fun _ _ h => h.2

theorem tells_maybeEscalate (hn : tells = true → svc.notifier = true) {a : AlertRecord}
    (hfound : m.found = some (a.id, a)) (hm : m.Done tells) :
    Follows (announcing tells) m (svc.maybeEscalate t a) (Ends
      (fun a' m' => m'.found = some (a'.id, a') ∧ m'.Done tells) fun _ m' => m'.Done tells) := by
  unfold maybeEscalate
  rcases hdue : svc.shouldEscalate a t with e | due
  · exact hm
  rw [lift_ok, pure_bind']
  cases due with
  | false => exact ⟨hfound, hm⟩
  | true =>
    have hnew : a.escalatedAt = none := ((shouldEscalate_eq_ok hdue).1 rfl).2.1
    have hescalate : Follows (announcing tells) m (Call.escalateAlert a.id t).perform (Ends
        (fun a' m' => m'.found = some (a'.id, a') ∧ m'.due = some (.escalated a'))
        fun _ m' => m'.Done tells) := by
      refine follows_perform ⟨⟨a, hfound, hnew⟩, .inl hm⟩ fun r => ?_
      cases r with
      | error e => exact fun _ => rfl
      | ok a' => exact ⟨rfl, rfl⟩
    refine hescalate.bind (fun a' m₁ h₁ => ?_) fun _ _ h => h
    refine (follows_notify svc.notifier hn h₁.2).bind (fun _ m₂ h₂ => ?_) fun _ _ h => h.2
    exact ⟨h₂.1.trans h₁.1, h₂.2⟩

theorem tells_resolve (hn : tells = true → svc.notifier = true) {a : AlertRecord}
    (hfound : m.found = some (a.id, a)) (hm : m.Done tells) :
    Follows (announcing tells) m (svc.resolve t a) fun _ m' => m'.Done tells := by
  have hresolve : Follows (announcing tells) m (Call.resolveAlert a.id t).perform (Ends
      (fun a' m' => m'.due = some (.resolved a')) fun _ m' => m'.Done tells) := by
    refine follows_perform ⟨⟨a, hfound⟩, .inl hm⟩ fun r => ?_
    cases r with
    | error e => exact fun _ => rfl
    | ok a' => rfl
  refine hresolve.bind (fun a' m₁ hdue => ?_) fun _ _ h => h
  exact (follows_notify svc.notifier hn hdue).bind (fun _ _ h => h.2) fun _ _ h => h.2

end AlertEvaluationService

namespace RemediationEngine

theorem decision_checkRateLimit (e : RemediationEngine) :
    Only Call.IsDecision (e.checkRateLimit nodeId t) := by
  refine (only_lift _).bind fun since => (only_perform trivial).bind fun count => ?_
  split_ifs
  · exact only_pure _
  · exact only_pure _

theorem decision_checkSafetyLimits (e : RemediationEngine) (playbook : PlaybookDefinition) :
    Only Call.IsDecision (e.checkSafetyLimits nodeId playbook t) := by
  refine (only_perform trivial).bind fun last => (only_lift _).bind fun elapsed => ?_
  cases elapsed with
  | none => exact e.decision_checkRateLimit
  | some elapsed =>
    dsimp only
    split_ifs
    · exact only_pure _
    · exact e.decision_checkRateLimit

theorem decision_decide (e : RemediationEngine) (i : ℕ) (ruleKey : String) :
    Only Call.IsDecision (e.decide nodeId i ruleKey t) := by
  unfold decide
  split_ifs
  · cases e.byRuleKey? ruleKey with
    | none => exact only_pure _
    | some playbook =>
      refine (e.decision_checkSafetyLimits playbook).bind fun reason => ?_
      exact (only_perform trivial).bind fun _ => only_pure _
  · exact only_pure _

end RemediationEngine

namespace AlertEvaluationService

theorem tells_maybeRemediate (result : RuleEvaluationResult) {a : AlertRecord}
    (hfound : m.found = some (a.id, a)) (hm : m.Done tells) :
    Follows (announcing tells) m (svc.maybeRemediate nodeId result t a)
      fun _ m' => m'.Done tells := by
  unfold maybeRemediate
  rcases svc.shouldRemediate a t with e | due
  · exact hm
  rw [lift_ok, pure_bind']
  rcases due, svc.remediationEngine with ⟨_ | _, _ | engine⟩
  · exact hm
  · exact hm
  · exact hm
  · refine (follows_decision (engine.decision_decide a.id result.ruleKey) hm).bind
      (fun decision m₁ h₁ => ?_) fun _ _ h => h.2
    cases decision with
    | none => exact h₁.2
    | some decision =>
      have hmark : Follows (announcing tells) m₁ (Call.markRemediated a.id t).perform
          fun _ m' => m'.Done tells := by
        refine follows_perform ⟨⟨a, h₁.1.trans hfound⟩, .inl h₁.2⟩ fun r => ?_
        cases r <;> exact fun _ => rfl
      exact hmark.bind (fun _ _ h => h) fun _ _ h => h

theorem tells_apply (hn : tells = true → svc.notifier = true) (result : RuleEvaluationResult)
    (hm : m.Done tells) :
    Follows (announcing tells) m (svc.apply nodeId result t) fun _ m' => m'.Done tells := by
  have hfind : Follows (announcing tells) m (Call.findOpenAlert nodeId result.ruleKey).perform
      (Ends (fun current m' => (∀ a ∈ (current : Option AlertRecord),
        m'.found = some (a.id, a)) ∧ m'.Done tells) fun _ m' => m'.Done tells) := by
    refine follows_perform ⟨trivial, .inl hm⟩ fun r => ?_
    cases r with
    | error e => exact fun _ => rfl
    | ok current =>
      refine ⟨fun a ha => ?_, fun _ => rfl⟩
      obtain rfl : current = some a := ha
      rfl
  refine hfind.bind (fun current m₁ h₁ => ?_) fun _ _ h => h
  obtain ⟨hfound, hdone⟩ := h₁
  split_ifs
  · have hopen : Follows (announcing tells) m₁ (svc.openOrAdvance nodeId result t current)
        fun _ m' => m'.Done tells := by
      cases current with
      | none => exact (tells_openAlert hn result hdone).bind (fun _ _ h => h) fun _ _ h => h
      | some a =>
        have hadvance : Follows (announcing tells) m₁
            (Call.updateLastFired a.id result.value t).perform (Ends
              (fun a' m' => m'.found = some (a'.id, a') ∧ m'.Done tells)
              fun _ m' => m'.Done tells) := by
          refine follows_perform ⟨⟨a, hfound a rfl⟩, .inl hdone⟩ fun r => ?_
          cases r with
          | error e => exact fun _ => rfl
          | ok a' => exact ⟨rfl, fun _ => rfl⟩
        refine hadvance.bind (fun a₁ m₂ h₂ => ?_) fun _ _ h => h
        refine (tells_maybeEscalate hn h₂.1 h₂.2).bind (fun a₂ m₃ h₃ => ?_) fun _ _ h => h
        exact tells_maybeRemediate result h₃.1 h₃.2
    exact hopen.bind (fun _ _ h => h) fun _ _ h => h
  · cases current with
    | none => exact hdone
    | some a =>
      exact (tells_resolve hn (hfound a rfl) hdone).bind (fun _ _ h => h) fun _ _ h => h

theorem tells_evaluateAndApply (hn : tells = true → svc.notifier = true)
    (samples : List MetricSample) (hm : m.Done tells) :
    Follows (announcing tells) m (svc.evaluateAndApply nodeId samples t)
      fun _ m' => m'.Done tells := by
  have hevaluate : Only Call.IsAside (svc.ruleEngine.evaluate nodeId samples t) :=
    svc.ruleEngine.only_evaluate (fun _ _ => trivial) samples
  refine (follows_aside hevaluate hm).bind (fun results m₁ h₁ => ?_) fun _ _ h => h
  have hall : Follows (announcing tells) m₁ (svc.applyAll nodeId t results)
      (Ends (fun _ m' => m'.Done tells) fun _ m' => m'.Done tells) := by
    refine Follows.foldlM (fun outcome result m₂ h₂ => ?_) results _ m₁ h₁
    exact (tells_apply hn result h₂).bind (fun _ _ h => h) fun _ _ h => h
  exact hall.mono fun r _ h => by cases r <;> exact h

/-- An alert is acknowledged only where it has been read as firing. -/
theorem tells_acknowledge (alertId : ℕ) (acknowledgedBy : String) (now : Instant)
    (hm : m.Done tells) :
    Follows (announcing tells) m (acknowledge alertId acknowledgedBy now)
      fun _ m' => m'.Done tells := by
  unfold acknowledge getAlert
  rw [bind_assoc]
  have hget : Follows (announcing tells) m (Call.getAlert alertId).perform (Ends
      (fun record m' => (∀ a ∈ (record : Option AlertRecord), a.status = .firing →
        m'.found = some (alertId, a)) ∧ m'.Done tells) fun _ m' => m'.Done tells) := by
    refine follows_perform ⟨trivial, .inl hm⟩ fun r => ?_
    cases r with
    | error e => exact fun _ => rfl
    | ok record =>
      refine ⟨fun a ha hfiring => ?_, fun _ => rfl⟩
      obtain rfl : record = some a := ha
      simp [announcing, Desk.next, hfiring]
  refine hget.bind (fun record m₁ h₁ => ?_) fun _ _ h => h
  obtain ⟨hfound, hdone⟩ := h₁
  cases record with
  | none => exact hdone
  | some a =>
    simp only [pure_eq, pure_bind']
    split_ifs with hstatus
    · exact hdone
    · have hfiring : a.status = .firing := by
        cases h : a.status with
        | firing => rfl
        | resolved => exact absurd h hstatus
      refine follows_perform ⟨⟨a, hfound a rfl hfiring⟩, .inl hdone⟩ fun r => ?_
      cases r <;> exact fun _ => rfl

end AlertEvaluationService

/-! ## Sweeps -/

namespace StalenessJob

variable {settings : CollectorSettings} {now : Datetime}

theorem tells_openAlert (hn : tells = true → settings.notificationsEnabled = true)
    (node : NodeRecord) (silentSeconds : Double) (hm : m.Done tells) :
    Follows (announcing tells) m (openAlert settings now node silentSeconds)
      fun _ m' => m'.Done tells := by
  unfold openAlert
  rcases intOfFloat silentSeconds with e | silentFor
  · exact hm
  rw [lift_ok, pure_bind']
  have hcreate : Follows (announcing tells) m (Call.createAlert node.nodeId stalenessRuleKey
      .staleness .critical (description silentFor) silentSeconds
      settings.heartbeatStaleAfterSeconds now).perform
      (Ends (fun a m' => m'.due = some (.opened a)) fun _ m' => m'.Done tells) := by
    refine follows_perform ⟨trivial, .inl hm⟩ fun r => ?_
    cases r with
    | error e => exact fun _ => rfl
    | ok a => rfl
  refine hcreate.bind (fun a m₁ hdue => ?_) fun _ _ h => h
  exact (follows_notify settings.notificationsEnabled hn hdue).mono fun _ _ h => h.2

theorem tells_resolve (hn : tells = true → settings.notificationsEnabled = true)
    {a : AlertRecord} (hfound : m.found = some (a.id, a)) (hm : m.Done tells) :
    Follows (announcing tells) m (resolve settings now a) fun _ m' => m'.Done tells := by
  have hresolve : Follows (announcing tells) m (Call.resolveAlert a.id now).perform (Ends
      (fun a' m' => m'.due = some (.resolved a')) fun _ m' => m'.Done tells) := by
    refine follows_perform ⟨⟨a, hfound⟩, .inl hm⟩ fun r => ?_
    cases r with
    | error e => exact fun _ => rfl
    | ok a' => rfl
  refine hresolve.bind (fun a' m₁ hdue => ?_) fun _ _ h => h
  exact (follows_notify settings.notificationsEnabled hn hdue).mono fun _ _ h => h.2

theorem tells_checkNode (hn : tells = true → settings.notificationsEnabled = true)
    (firstRunDone : Bool) (counts : StalenessCounts) (node : NodeRecord) (hm : m.Done tells) :
    Follows (announcing tells) m (checkNode settings firstRunDone now counts node)
      fun _ m' => m'.Done tells := by
  unfold checkNode
  rcases now.since node.lastSeenAt with e | silent
  · exact hm
  rw [lift_ok, pure_bind']
  have hfind : Follows (announcing tells) m (Call.findOpenAlert node.nodeId
      stalenessRuleKey).perform (Ends (fun current m' => (∀ a ∈ (current : Option AlertRecord),
        m'.found = some (a.id, a)) ∧ m'.Done tells) fun _ m' => m'.Done tells) := by
    refine follows_perform ⟨trivial, .inl hm⟩ fun r => ?_
    cases r with
    | error e => exact fun _ => rfl
    | ok current =>
      refine ⟨fun a ha => ?_, fun _ => rfl⟩
      obtain rfl : current = some a := ha
      rfl
  refine hfind.bind (fun current m₁ h₁ => ?_) fun _ _ h => h
  obtain ⟨hfound, hdone⟩ := h₁
  split_ifs
  · exact (tells_openAlert hn node _ hdone).bind (fun _ _ h => h) fun _ _ h => h
  · exact hdone
  · cases current with
    | none => exact hdone
    | some a => exact (tells_resolve hn (hfound a rfl) hdone).bind (fun _ _ h => h) fun _ _ h => h

theorem tells_run (hn : tells = true → settings.notificationsEnabled = true)
    (firstRunDone : Bool) (hm : m.Done tells) :
    Follows (announcing tells) m (run settings firstRunDone now) fun _ m' => m'.Done tells := by
  have hlist : Only Call.IsAside Call.listAllNodes.perform := only_perform trivial
  refine (follows_aside hlist hm).bind (fun nodes m₁ h₁ => ?_) fun _ _ h => h
  have hall : Follows (announcing tells) m₁
      (nodes.foldlM (checkNode settings firstRunDone now) ⟨0, 0, 0⟩)
      (Ends (fun _ m' => m'.Done tells) fun _ m' => m'.Done tells) := by
    refine Follows.foldlM (fun counts node m₂ h₂ => ?_) nodes _ m₁ h₁
    exact (tells_checkNode hn firstRunDone counts node h₂).mono fun r _ h => by
      cases r <;> exact h
  exact hall.mono fun r _ h => by cases r <;> exact h

end StalenessJob

/-! ## Operations -/

/-- The operation runs with a notifier, if it has anything to say. -/
def Operation.Notifies : Operation → Prop
  | evaluateAndApply svc _ _ _ => svc.notifier = true
  | ingest svc _ _ => svc.notifier = true
  | staleness settings _ _ => settings.notificationsEnabled = true
  | _ => True

/-- Every operation goes by the rules. -/
theorem Operation.follows_announcing {op : Operation} (hn : tells = true → op.Notifies)
    (hm : m.Done tells) :
    Follows (announcing tells) m op.program fun _ m' => m'.Done tells := by
  have haside : ∀ op' : Operation, (∀ c, op'.Makes c → c.IsAside) →
      Follows (announcing tells) m op'.program fun _ m' => m'.Done tells := fun op' h =>
    follows_aside (op'.only_program.mono h) hm
  cases op with
  | evaluateAndApply svc nodeId samples t =>
    exact (AlertEvaluationService.tells_evaluateAndApply hn samples hm).map fun _ _ h => h
  | ingest svc payload receivedAt =>
    have hpersist : Only Call.IsAside (MetricsIngestionService.persist payload receivedAt) :=
      (only_perform trivial).bind fun _ => only_perform trivial
    have hingest : Follows (announcing tells) m
        (MetricsIngestionService.ingest svc payload receivedAt) fun _ m' => m'.Done tells := by
      refine (follows_aside hpersist hm).bind (fun _ m₁ h₁ => ?_) fun _ _ h => h
      have hactions : Follows (announcing tells) m₁ (svc.evaluateAndApply payload.nodeId
          payload.samples payload.collectedAt >>= fun evaluated : EvaluationOutcome =>
            .pure (evaluated.dispatchedActions.map MetricsIngestionService.pendingAction))
          fun _ m' => m'.Done tells :=
        (AlertEvaluationService.tells_evaluateAndApply hn payload.samples h₁).bind
          (fun _ _ h => h) fun _ _ h => h
      have hbody : Follows (announcing tells) m₁
          (MetricsIngestionService.evaluateRulesBestEffort svc payload)
          fun _ m' => m'.Done tells := hactions.tryCatch (fun _ _ h => h) fun _ _ h => h
      exact hbody.bind (fun _ _ h => h) fun _ _ h => h
    exact hingest.map fun _ _ h => h
  | acknowledge alertId acknowledgedBy now =>
    exact (AlertEvaluationService.tells_acknowledge alertId acknowledgedBy now hm).map
      fun _ _ h => h
  | reportResult actionId result now =>
    refine haside _ fun c hc => ?_
    rcases hc with rfl | rfl <;> trivial
  | reconciliation settings now =>
    refine haside _ fun c hc => ?_
    rcases hc with ⟨_, rfl⟩ | ⟨_, rfl⟩ <;> trivial
  | retention settings now passes =>
    refine haside _ fun c hc => ?_
    rcases hc with ⟨_, _, rfl⟩ | ⟨_, _, rfl⟩ | ⟨_, _, rfl⟩ <;> trivial
  | staleness settings firstRunDone now =>
    exact (StalenessJob.tells_run hn firstRunDone hm).map fun _ _ h => h

end ClusterPulse
