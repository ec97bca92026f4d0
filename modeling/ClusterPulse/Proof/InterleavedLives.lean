import ClusterPulse.Lib.Interference
import ClusterPulse.Lib.TableHistory
import ClusterPulse.Proof.AuditLog
import ClusterPulse.Proof.Discipline

/-!
# The lives of alerts and actions, whatever runs next to each other

Requests and sweeps overlap, and what one of them has read another may overwrite before its next call.
What survives of the state machines of the two tables: an alert never fires again and loses none of
its marks, a blocked decision is final, an ended action is never dispatched again, no id comes back,
and retention removes nothing that is still open (`lives_interleaved`).  Whether a mark is set twice
depends on the order, and so does which of two results stays.

A report or a sweep ends only actions that it has read as dispatched, and an evaluation remediates
only an alert that it has read as escalated (`Seen`); no other program can take that back.
-/

namespace ClusterPulse

open Prog AlertRepository RemediationActionRepository

/-! ## What may become of a row -/

/-- A later value of the alert. -/
structure AlertRecord.GoesOn (a a' : AlertRecord) : Prop where
  identity : a'.identity = a.identity
  resolved : a.status = .resolved → a'.status = .resolved
  acknowledged : a.acknowledgedAt.isSome → a'.acknowledgedAt.isSome
  escalated : a.escalatedAt.isSome → a'.escalatedAt.isSome
  remediated : a.remediatedAt.isSome → a'.remediatedAt.isSome

/-- A later value of the action. -/
structure RemediationActionRecord.GoesOn (r r' : RemediationActionRecord) : Prop where
  identity : r'.identity = r.identity
  blocked : r.status = .blockedBySafetyLimit → r' = r
  ended : r.status ≠ .dispatched → r'.status ≠ .dispatched
  unblocked : r.status ≠ .blockedBySafetyLimit → r'.status ≠ .blockedBySafetyLimit

theorem AlertRecord.GoesOn.refl (a : AlertRecord) : a.GoesOn a :=
  ⟨rfl, fun h => h, fun h => h, fun h => h, fun h => h⟩

theorem AlertRecord.GoesOn.trans (a b c : AlertRecord) (h : a.GoesOn b) (h' : b.GoesOn c) :
    a.GoesOn c where
  identity := h'.identity.trans h.identity
  resolved := h'.resolved ∘ h.resolved
  acknowledged := h'.acknowledged ∘ h.acknowledged
  escalated := h'.escalated ∘ h.escalated
  remediated := h'.remediated ∘ h.remediated

theorem RemediationActionRecord.GoesOn.refl (r : RemediationActionRecord) : r.GoesOn r :=
  ⟨rfl, fun _ => rfl, fun h => h, fun h => h⟩

theorem RemediationActionRecord.GoesOn.trans (r s t : RemediationActionRecord) (h : r.GoesOn s)
    (h' : s.GoesOn t) : r.GoesOn t where
  identity := h'.identity.trans h.identity
  blocked hr := by
    obtain rfl := h.blocked hr
    exact h'.blocked hr
  ended := h'.ended ∘ h.ended
  unblocked := h'.unblocked ∘ h.unblocked

/-- The columns of an alert agree with each other. -/
structure AlertRecord.WellFormed (a : AlertRecord) : Prop where
  resolved : a.status = .resolved ↔ a.resolvedAt.isSome
  acknowledged : a.acknowledgedAt.isSome ↔ a.acknowledgedBy.isSome
  remediated : a.remediatedAt.isSome → a.escalatedAt.isSome

/-- The columns of an action agree with each other. -/
structure RemediationActionRecord.WellFormed (r : RemediationActionRecord) : Prop where
  completed : r.completedAt.isSome ↔ r.status = .executed ∨ r.status = .failed
  reason : r.status = .blockedBySafetyLimit → r.reason.isSome

/-- All rows are well formed. -/
structure Store.WellFormed (σ : Store) : Prop where
  alerts : ∀ a ∈ σ.alerts.rows, a.WellFormed
  actions : ∀ r ∈ σ.remediationActions.rows, r.WellFormed

/-- The tables `σ'` come later than `σ`. -/
structure Store.GoesOn (σ σ' : Store) : Prop where
  alerts : σ.alerts.LeadsTo AlertRecord.GoesOn σ'.alerts
  actions : σ.remediationActions.LeadsTo RemediationActionRecord.GoesOn σ'.remediationActions
  wellFormed : σ.WellFormed → σ'.WellFormed

theorem Store.GoesOn.refl (σ : Store) : σ.GoesOn σ :=
  ⟨.refl AlertRecord.GoesOn.refl _, .refl RemediationActionRecord.GoesOn.refl _, id⟩

theorem Store.GoesOn.trans {σ σ' σ'' : Store} (h : σ.GoesOn σ') (h' : σ'.GoesOn σ'') :
    σ.GoesOn σ'' :=
  ⟨h.alerts.trans AlertRecord.GoesOn.trans h'.alerts,
    h.actions.trans RemediationActionRecord.GoesOn.trans h'.actions, h'.wellFormed ∘ h.wellFormed⟩

/-- What is open in `σ` is there in `σ'`. -/
structure Store.KeepsOpen (σ σ' : Store) : Prop where
  alerts : σ.alerts.Kept (fun a => a.status = .firing) σ'.alerts
  actions : σ.remediationActions.Kept (fun r => r.status = .dispatched) σ'.remediationActions

/-! ## What a program has seen -/

/-- The actions that a program has read as dispatched, and the alerts it has read as escalated. -/
structure Seen where
  dispatched : Set ℕ
  escalated : Set ℕ

namespace Seen

def none : Seen := ⟨∅, ∅⟩

/-- What is seen after a call, with its answer. -/
def next (m : Seen) : (c : Call) → Except PyError c.Res → Seen
  | .getAction actionId, .ok row =>
    { m with dispatched := m.dispatched ∪ {i | i = actionId ∧ ∃ r ∈ row, r.status = .dispatched} }
  | .listDispatchedBefore _, .ok rows =>
    { m with dispatched := m.dispatched ∪ {i | ∃ r ∈ rows, r.id = i} }
  | .updateLastFired .., .ok a =>
    { m with escalated := m.escalated ∪ {i | a.escalatedAt.isSome ∧ a.id = i} }
  | .escalateAlert .., .ok a => { m with escalated := m.escalated ∪ {a.id} }
  | _, _ => m

/-- Only what has been read as open is ended, and only an escalated alert is remediated. -/
def Allows (m : Seen) : Call → Prop
  | .createAction _ _ _ _ _ _ status reason _ => status = RemediationEngine.statusFor reason
  | .markResult actionId status _ _ =>
    actionId ∈ m.dispatched ∧ (status = .executed ∨ status = .failed)
  | .markRemediated alertId _ => alertId ∈ m.escalated
  | _ => True

/-- Nobody takes back what has been seen. -/
structure HoldsOf (m : Seen) (σ : Store) : Prop where
  dispatched : ∀ i ∈ m.dispatched, i < σ.remediationActions.next ∧
    ∀ r, σ.remediationActions.get? i = some r → r.status ≠ .blockedBySafetyLimit
  escalated : ∀ i ∈ m.escalated, i < σ.alerts.next ∧
    ∀ a, σ.alerts.get? i = some a → a.escalatedAt.isSome

theorem holdsOf_none (σ : Store) : none.HoldsOf σ := ⟨nofun, nofun⟩

end Seen

/-- The programs of the Collector, by what they have seen. -/
def sighted : Protocol Call Call.Res PyError Seen := ⟨Seen.Allows, Seen.next⟩

theorem Seen.HoldsOf.stable {m : Seen} {σ σ' : Store} (h : σ.GoesOn σ') (hm : m.HoldsOf σ) :
    m.HoldsOf σ' where
  dispatched i hi := by
    obtain ⟨hlt, hrow⟩ := hm.dispatched i hi
    exact h.actions.keeps (fun _ _ hstep => hstep.unblocked) hlt hrow
  escalated i hi := by
    obtain ⟨hlt, hrow⟩ := hm.escalated i hi
    exact h.alerts.keeps (fun _ _ hstep => hstep.escalated) hlt hrow

/-! ## One call -/

section Call

variable {scan : Scan} {σ : Store} {c : Call} {m : Seen}

theorem Seen.Allows.alerts_goOn (hc : m.Allows c) :
    σ.alerts.LeadsTo AlertRecord.GoesOn (c.alerts scan σ) := by
  cases c with
  | createAlert =>
    unfold Call.alerts
    exact Table.leadsTo_insert .refl
  | updateLastFired | resolveAlert | acknowledgeAlert | escalateAlert | markRemediated =>
    unfold Call.alerts
    refine Table.leadsTo_modify .refl fun a _ => ?_
    constructor <;> intros <;> first | rfl | assumption
  | pruneResolvedBefore =>
    unfold Call.alerts
    exact Table.leadsTo_delete .refl
  | _ => exact .refl .refl _

theorem Seen.Allows.actions_goOn (hc : m.Allows c) (hm : m.HoldsOf σ) :
    σ.remediationActions.LeadsTo RemediationActionRecord.GoesOn (c.actions scan σ) := by
  cases c with
  | createAction =>
    unfold Call.actions
    exact Table.leadsTo_insert .refl
  | markResult actionId status reason completedAt =>
    obtain ⟨hseen, hstatus⟩ := hc
    unfold Call.actions
    refine Table.leadsTo_modify .refl fun r hr => ⟨rfl, fun hblocked => ?_, fun _ => ?_, fun _ => ?_⟩
    · exact absurd hblocked ((hm.dispatched actionId hseen).2 r hr)
    · show status ≠ .dispatched
      rcases hstatus with rfl | rfl <;> exact nofun
    · show status ≠ .blockedBySafetyLimit
      rcases hstatus with rfl | rfl <;> exact nofun
  | pruneTerminalBefore =>
    unfold Call.actions
    exact Table.leadsTo_delete .refl
  | _ => exact .refl .refl _

theorem Seen.Allows.alerts_wellFormed (hc : m.Allows c) (hm : m.HoldsOf σ)
    (h : ∀ a ∈ σ.alerts.rows, a.WellFormed) : ∀ a ∈ (c.alerts scan σ).rows, a.WellFormed := by
  cases c with
  | createAlert =>
    unfold Call.alerts
    exact Table.forall_mem_insert h ⟨⟨nofun, nofun⟩, ⟨nofun, nofun⟩, nofun⟩
  | updateLastFired =>
    unfold Call.alerts
    exact Table.forall_mem_modify h fun a _ ha => ⟨ha.1, ha.2, ha.3⟩
  | resolveAlert =>
    unfold Call.alerts
    exact Table.forall_mem_modify h fun a _ ha => ⟨⟨fun _ => rfl, fun _ => rfl⟩, ha.2, ha.3⟩
  | acknowledgeAlert =>
    unfold Call.alerts
    exact Table.forall_mem_modify h fun a _ ha => ⟨ha.1, ⟨fun _ => rfl, fun _ => rfl⟩, ha.3⟩
  | escalateAlert =>
    unfold Call.alerts
    exact Table.forall_mem_modify h fun a _ ha => ⟨ha.1, ha.2, fun _ => rfl⟩
  | markRemediated alertId =>
    unfold Call.alerts
    refine Table.forall_mem_modify h fun a hget ha => ⟨ha.1, ha.2, fun _ => ?_⟩
    exact (hm.escalated alertId hc).2 a hget
  | pruneResolvedBefore =>
    unfold Call.alerts
    exact Table.forall_mem_delete h
  | _ => exact h

theorem Seen.Allows.actions_wellFormed (hc : m.Allows c)
    (h : ∀ r ∈ σ.remediationActions.rows, r.WellFormed) :
    ∀ r ∈ (c.actions scan σ).rows, r.WellFormed := by
  cases c with
  | createAction nodeId alertId ruleKey playbookName actionType parameters status reason =>
    obtain rfl : status = RemediationEngine.statusFor reason := hc
    unfold Call.actions
    refine Table.forall_mem_insert h ?_
    cases reason with
    | none => exact ⟨⟨nofun, by rintro (h | h) <;> cases h⟩, nofun⟩
    | some reason => exact ⟨⟨nofun, by rintro (h | h) <;> cases h⟩, fun _ => rfl⟩
  | markResult actionId status =>
    unfold Call.actions
    refine Table.forall_mem_modify h fun r _ _ => ⟨⟨fun _ => hc.2, fun _ => rfl⟩, fun hblocked => ?_⟩
    obtain rfl : status = .blockedBySafetyLimit := hblocked
    rcases hc.2 with hstatus | hstatus <;> cases hstatus
  | pruneTerminalBefore =>
    unfold Call.actions
    exact Table.forall_mem_delete h
  | _ => exact h

theorem Call.alerts_kept (scan : Scan) (σ : Store) (c : Call) :
    σ.alerts.Kept (fun a => a.status = .firing) (c.alerts scan σ) :=
  fun _ _ ha hfiring => Call.firing_kept ha hfiring

theorem Call.actions_kept (scan : Scan) (σ : Store) (c : Call) :
    σ.remediationActions.Kept (fun r => r.status = .dispatched) (c.actions scan σ) := by
  cases c with
  | createAction =>
    unfold Call.actions
    exact Table.kept_insert
  | markResult =>
    unfold Call.actions
    exact Table.kept_modify
  | pruneTerminalBefore cutoff batchSize =>
    unfold Call.actions
    refine Table.kept_delete fun r hr hdoomed => ?_
    have hgone : r ∉ (RemediationActionRepository.pruneTerminalBefore scan σ cutoff
        batchSize).2.remediationActions.rows := fun hthere =>
      Bool.false_ne_true ((Table.mem_delete.1 hthere).2.symm.trans hdoomed)
    exact RemediationActionRepository.of_pruned hr hgone
  | _ => exact .refl _ _

end Call

/-! ## A call in an environment -/

section Handle

variable {env : Environment} {w : World} {c : Call} {m : Seen}

theorem Seen.Allows.goesOn (hc : m.Allows c) (hm : m.HoldsOf w.store) :
    w.store.GoesOn (handle env c w).2.store := by
  rcases handle_cases env c w with ⟨e, -, h⟩ | ⟨-, h⟩ <;> rw [h]
  · exact .refl _
  · refine ⟨?_, ?_, fun hw => ⟨?_, ?_⟩⟩
    · rw [World.after_alerts]
      exact hc.alerts_goOn
    · rw [World.after_actions]
      exact hc.actions_goOn hm
    · rw [World.after_alerts]
      exact hc.alerts_wellFormed hm hw.alerts
    · rw [World.after_actions]
      exact hc.actions_wellFormed hw.actions

theorem keepsOpen_handle (env : Environment) (c : Call) (w : World) :
    w.store.KeepsOpen (handle env c w).2.store := by
  rcases handle_cases env c w with ⟨e, -, h⟩ | ⟨-, h⟩ <;> rw [h]
  · exact ⟨.refl _ _, .refl _ _⟩
  · refine ⟨?_, ?_⟩
    · rw [World.after_alerts]
      exact c.alerts_kept _ _
    · rw [World.after_actions]
      exact c.actions_kept _ _

namespace Seen

variable {σ : Store}

theorem HoldsOf.seeDispatched (hm : m.HoldsOf σ) {S : Set ℕ}
    (hS : ∀ i ∈ S, ∃ r, σ.remediationActions.get? i = some r ∧ r.status = .dispatched) :
    HoldsOf { m with dispatched := m.dispatched ∪ S } σ where
  dispatched i hi := by
    rcases hi with hi | hi
    · exact hm.dispatched i hi
    · obtain ⟨r, hr, hstatus⟩ := hS i hi
      refine ⟨Table.lt_next_of_get? hr, fun r' hr' hblocked => ?_⟩
      obtain rfl : r = r' := Option.some.inj (hr.symm.trans hr')
      cases hstatus.symm.trans hblocked
  escalated := hm.escalated

theorem HoldsOf.seeEscalated (hm : m.HoldsOf σ) {S : Set ℕ}
    (hS : ∀ i ∈ S, ∃ a, σ.alerts.get? i = some a ∧ a.escalatedAt.isSome) :
    HoldsOf { m with escalated := m.escalated ∪ S } σ where
  dispatched := hm.dispatched
  escalated i hi := by
    rcases hi with hi | hi
    · exact hm.escalated i hi
    · obtain ⟨a, ha, hescalated⟩ := hS i hi
      refine ⟨Table.lt_next_of_get? ha, fun a' ha' => ?_⟩
      obtain rfl : a = a' := Option.some.inj (ha.symm.trans ha')
      exact hescalated

theorem next_error (m : Seen) (c : Call) (e : PyError) : m.next c (.error e) = m := by
  cases c <;> rfl

/-- A write answers with the row that it leaves. -/
theorem get?_of_update {i : ℕ} {errorMessage : String} {f : AlertRecord → AlertRecord}
    {hf : ∀ a, (f a).id = a.id} {a : AlertRecord} (h : (update σ i errorMessage f hf).1 = .ok a) :
    (σ.alerts.modify i f hf).get? a.id = some a := by
  obtain rfl := id_of_update h
  unfold update at h
  rcases hget : σ.alerts.get? a.id with _ | row
  · rw [hget] at h
    cases h
  · rw [hget] at h
    rw [Table.get?_modify_self, hget, Option.map_some]
    exact congrArg some (Except.ok.inj h)

theorem exists_of_update {i : ℕ} {errorMessage : String} {f : AlertRecord → AlertRecord}
    {hf : ∀ a, (f a).id = a.id} {a : AlertRecord} (h : (update σ i errorMessage f hf).1 = .ok a) :
    ∃ row, f row = a := by
  unfold update at h
  cases hget : σ.alerts.get? i with
  | none =>
    rw [hget] at h
    cases h
  | some row =>
    rw [hget] at h
    exact ⟨row, Except.ok.inj h⟩

theorem Allows.knows (hc : m.Allows c) (hm : m.HoldsOf w.store) :
    (m.next c (handle env c w).1).HoldsOf (handle env c w).2.store := by
  have hstable : m.HoldsOf (handle env c w).2.store := hm.stable (hc.goesOn hm)
  rcases handle_cases env c w with ⟨e, -, h⟩ | ⟨-, h⟩ <;> rw [h] at hstable ⊢
  · rw [next_error]
    exact hstable
  cases c with
  | getAction actionId =>
    refine hstable.seeDispatched ?_
    rintro i ⟨rfl, r, hr, hstatus⟩
    exact ⟨r, hr, hstatus⟩
  | listDispatchedBefore cutoff =>
    refine hstable.seeDispatched ?_
    rintro i ⟨r, hr, rfl⟩
    obtain ⟨hmem, htest⟩ := List.mem_filter.1 hr
    rw [Bool.and_eq_true, beq_iff_eq] at htest
    exact ⟨r, Table.get?_of_mem (mem_reorder.1 hmem), htest.1⟩
  | updateLastFired alertId triggeringValue firedAt =>
    rcases hr : (exec (env.scan w.calls) (.updateLastFired alertId triggeringValue firedAt)
      w.store).1 with e | a
    · rw [next_error]
      exact hstable
    · refine hstable.seeEscalated ?_
      rintro i ⟨hescalated, rfl⟩
      rw [World.after_alerts]
      exact ⟨a, get?_of_update hr, hescalated⟩
  | escalateAlert alertId firedAt =>
    rcases hr : (exec (env.scan w.calls) (.escalateAlert alertId firedAt) w.store).1 with e | a
    · rw [next_error]
      exact hstable
    · refine hstable.seeEscalated ?_
      rintro i rfl
      rw [World.after_alerts]
      refine ⟨a, get?_of_update hr, ?_⟩
      obtain ⟨row, rfl⟩ := exists_of_update hr
      rfl
  | _ => exact hstable

end Seen

theorem tolerates_sighted (env : Environment) :
    Pool.Tolerates (handle env) sighted (fun w w' => w.store.GoesOn w'.store)
      fun w m => Seen.HoldsOf m w.store where
  step _ _ _ hm hc := Seen.Allows.goesOn hc hm
  knows _ _ _ hm hc := Seen.Allows.knows hc hm
  stable _ _ _ h hm := hm.stable h

end Handle

/-! ## The programs -/

section Programs

variable {m : Seen} {nodeId : String} {t : Datetime} {svc : AlertEvaluationService}

/-- What has been seen is not forgotten. -/
theorem Seen.escalated_next {i : ℕ} (hi : i ∈ m.escalated) (c : Call)
    (r : Except PyError c.Res) : i ∈ (m.next c r).escalated := by
  rcases r with e | a
  · rwa [Seen.next_error]
  · cases c with
    | updateLastFired | escalateAlert => exact .inl hi
    | _ => exact hi

/-- The calls that are allowed whatever has been seen. -/
def Call.IsUnbound : Call → Prop
  | .createAction _ _ _ _ _ _ status reason _ => status = RemediationEngine.statusFor reason
  | .markResult .. | .markRemediated .. => False
  | _ => True

theorem Call.IsUnbound.allowed {c : Call} (hc : c.IsUnbound) (m : Seen) : m.Allows c := by
  cases c with
  | markResult | markRemediated => exact hc.elim
  | _ => exact hc

theorem Call.IsRoutine.unbound {c : Call} (hc : c.IsRoutine) : c.IsUnbound := by
  cases c with
  | createAction | markResult | markRemediated => exact hc.elim
  | _ => trivial

theorem follows_unbound {α : Type} {p : Repo α} (hp : Only Call.IsUnbound p) :
    Follows sighted m p fun _ _ => True :=
  hp.follows_of_forall fun _ hc m => hc.allowed m

/-- Such calls leave an alert seen as escalated. -/
theorem follows_escalated {α : Type} {p : Repo α} (hp : Only Call.IsUnbound p) {i : ℕ}
    (hi : i ∈ m.escalated) : Follows sighted m p fun _ m' => i ∈ m'.escalated :=
  hp.follows_keeps (fun m => i ∈ m.escalated)
    (fun c m hc hi => ⟨hc.allowed m, fun r => Seen.escalated_next hi c r⟩) hi

theorem RemediationEngine.unbound_decide (e : RemediationEngine) (i : ℕ) (ruleKey : String) :
    Only Call.IsUnbound (e.decide nodeId i ruleKey t) := by
  unfold RemediationEngine.decide
  split_ifs
  · cases e.byRuleKey? ruleKey with
    | none => exact only_pure _
    | some playbook =>
      refine ((e.routine_checkSafetyLimits playbook).mono fun _ hc => hc.unbound).bind ?_
      intro reason
      have hcreate : Call.IsUnbound (.createAction nodeId i ruleKey playbook.playbookName
        playbook.actionType playbook.parameters (statusFor reason) reason t) := rfl
      exact (only_perform hcreate).bind fun _ => only_pure _
  · exact only_pure _

namespace AlertEvaluationService

/-- An alert that is old enough to be escalated, and not acknowledged, has been seen escalated. -/
def SeenDue (svc : AlertEvaluationService) (t : Datetime) (m : Seen) (a : AlertRecord) : Prop :=
  a.acknowledgedAt = none →
    svc.escalationAfterSeconds ≤ Timedelta.totalSeconds (t.instant - a.firstFiredAt) →
      a.id ∈ m.escalated

theorem follows_maybeEscalate {a : AlertRecord} (ha : a.escalatedAt.isSome → a.id ∈ m.escalated) :
    Follows sighted m (svc.maybeEscalate t a) (Ends (fun a' m' => svc.SeenDue t m' a')
      fun _ _ => True) := by
  unfold maybeEscalate
  rcases hdue : svc.shouldEscalate a t with e | due
  · trivial
  have hiff := shouldEscalate_eq_ok hdue
  rw [lift_ok, pure_bind']
  cases due with
  | false =>
    intro hack hage
    apply ha
    by_contra hesc
    have htrue : false = true := hiff.2 ⟨hack, by simpa using hesc, hage⟩
    cases htrue
  | true =>
    have hescalate : Follows sighted m (Call.escalateAlert a.id t).perform
        (Ends (fun a' m' => a'.id ∈ m'.escalated) fun _ _ => True) := by
      refine follows_perform trivial fun r => ?_
      cases r with
      | error e => trivial
      | ok a' => exact .inr rfl
    refine hescalate.andThen fun a' m₁ ha' => ?_
    have hnotify : Only Call.IsUnbound (svc.notify (.escalated a')) :=
      (svc.only_notify _).mono fun _ hc => hc.routine.unbound
    refine (follows_escalated hnotify ha').bind (fun _ m₂ ha₂ => ?_) fun _ _ _ => trivial
    exact fun _ _ => ha₂

theorem follows_maybeRemediate (hord : svc.Ordered) (result : RuleEvaluationResult)
    {a : AlertRecord} (ha : svc.SeenDue t m a) :
    Follows sighted m (svc.maybeRemediate nodeId result t a) fun _ _ => True := by
  unfold maybeRemediate
  rcases hdue : svc.shouldRemediate a t with e | due
  · trivial
  rw [lift_ok, pure_bind']
  cases due with
  | false => exact follows_pure trivial
  | true =>
    obtain ⟨hack, -, hage⟩ := shouldRemediate_eq_ok_true hdue
    cases hengine : svc.remediationEngine with
    | none => exact follows_pure trivial
    | some engine =>
      by_cases henabled : engine.enabled = true
      · have hseen : a.id ∈ m.escalated :=
          ha hack (Double.le_trans (hord engine hengine henabled) hage)
        refine (follows_escalated (engine.unbound_decide a.id result.ruleKey) hseen).bind
          (fun decision m₁ hseen₁ => ?_) fun _ _ _ => trivial
        cases decision with
        | none => exact follows_pure trivial
        | some decision =>
          have hmark : Follows sighted m₁ (Call.markRemediated a.id t).perform fun _ _ => True :=
            follows_perform hseen₁ fun _ => trivial
          exact hmark.bind (fun _ _ _ => follows_pure trivial) fun _ _ _ => trivial
      · -- without its opt-in the engine decides nothing
        have hnone : engine.decide nodeId a.id result.ruleKey t = .pure none := by
          unfold RemediationEngine.decide
          rw [if_neg henabled]
          rfl
        dsimp only
        rw [hnone]
        exact follows_pure trivial

theorem follows_apply (hord : svc.Ordered) (result : RuleEvaluationResult) :
    Follows sighted m (svc.apply nodeId result t) fun _ _ => True := by
  have hfind : Follows sighted m (Call.findOpenAlert nodeId result.ruleKey).perform
      fun _ _ => True := follows_perform trivial fun _ => trivial
  refine hfind.bind (fun current m₁ _ => ?_) fun _ _ _ => trivial
  split_ifs
  · have hopen : Follows sighted m₁ (svc.openOrAdvance nodeId result t current)
        fun _ _ => True := by
      cases current with
      | none =>
        have hnew : Only Call.IsUnbound (svc.openAlert nodeId result t) :=
          (svc.routine_openAlert result).mono fun _ hc => hc.unbound
        exact (follows_unbound hnew).bind (fun _ _ _ => follows_pure trivial) fun _ _ _ => trivial
      | some a =>
        have hadvance : Follows sighted m₁ (Call.updateLastFired a.id result.value t).perform
            (Ends (fun a' m' => a'.escalatedAt.isSome → a'.id ∈ m'.escalated)
              fun _ _ => True) := by
          refine follows_perform trivial fun r => ?_
          cases r with
          | error e => trivial
          | ok a' => exact fun hescalated => .inr ⟨hescalated, rfl⟩
        refine hadvance.bind (fun a₁ m₂ ha₁ => ?_) fun _ _ _ => trivial
        refine (follows_maybeEscalate ha₁).bind (fun a₂ m₃ ha₂ => ?_) fun _ _ _ => trivial
        exact follows_maybeRemediate hord result ha₂
    exact hopen.bind (fun _ _ _ => follows_pure trivial) fun _ _ _ => trivial
  · cases current with
    | none => exact follows_pure trivial
    | some a =>
      have hresolve : Only Call.IsUnbound (svc.resolve t a) :=
        (svc.routine_resolve a).mono fun _ hc => hc.unbound
      exact (follows_unbound hresolve).bind (fun _ _ _ => follows_pure trivial) fun _ _ _ => trivial

theorem follows_evaluateAndApply (hord : svc.Ordered) (samples : List MetricSample) :
    Follows sighted m (svc.evaluateAndApply nodeId samples t) fun _ _ => True := by
  have hevaluate : Only Call.IsUnbound (svc.ruleEngine.evaluate nodeId samples t) :=
    svc.ruleEngine.only_evaluate (fun _ _ => trivial) samples
  refine (follows_unbound hevaluate).bind (fun results m₁ _ => ?_) fun _ _ _ => trivial
  have hall : Follows sighted m₁ (svc.applyAll nodeId t results)
      (Ends (fun _ _ => True) fun _ _ => True) := by
    refine Follows.foldlM (fun outcome result m₂ _ => ?_) results _ m₁ trivial
    exact (follows_apply hord result).bind (fun _ _ _ => follows_pure trivial) fun _ _ _ => trivial
  exact hall.mono fun _ _ _ => trivial

end AlertEvaluationService

/-- A report ends the action that it has read as dispatched. -/
theorem RemediationActionService.follows_reportResult (actionId : ℕ) (result : ActionResult)
    (now : Instant) : Follows sighted m (reportResult actionId result now) fun _ _ => True := by
  unfold reportResult getAction
  rw [bind_assoc]
  have hget : Follows sighted m (Call.getAction actionId).perform (Ends
      (fun record m' => ∀ r ∈ record, r.status = .dispatched → actionId ∈ m'.dispatched)
      fun _ _ => True) := by
    refine follows_perform trivial fun r => ?_
    cases r with
    | error e => trivial
    | ok record => exact fun r hr hstatus => .inr ⟨rfl, r, hr, hstatus⟩
  refine hget.bind (fun record m₁ hseen => ?_) fun _ _ _ => trivial
  cases record with
  | none => trivial
  | some r =>
    simp only [pure_eq, pure_bind']
    split_ifs with hstatus
    · refine follows_perform ⟨hseen r rfl hstatus, ?_⟩ fun _ => trivial
      cases result.status with
      | executed => exact .inl rfl
      | failed => exact .inr rfl
    · trivial

/-- A sweep ends the actions that it has listed. -/
theorem ReconciliationJob.follows_run (settings : CollectorSettings) (now : Datetime) :
    Follows sighted m (run settings now) fun _ _ => True := by
  unfold run
  rcases cutoff settings.remediationDispatchTimeoutSeconds now with e | c
  · trivial
  rw [lift_ok, pure_bind']
  have hlist : Follows sighted m (Call.listDispatchedBefore c.instant).perform (Ends
      (fun actions m' => ∀ a ∈ actions, a.id ∈ m'.dispatched) fun _ _ => True) := by
    refine follows_perform trivial fun r => ?_
    cases r with
    | error e => trivial
    | ok actions => exact fun a ha => .inr ⟨a, ha, rfl⟩
  refine hlist.bind (fun actions m₁ hseen => ?_) fun _ _ _ => trivial
  have hmarks : ∀ actions : List RemediationActionRecord, (∀ a ∈ actions, a.id ∈ m₁.dispatched) →
      ∀ timedOut, Follows sighted m₁ (actions.foldlM (timeOut now) timedOut) fun _ _ => True := by
    intro actions
    induction actions with
    | nil => exact fun _ _ => follows_pure trivial
    | cons a actions ih =>
      intro hseen timedOut
      obtain ⟨ha, hrest⟩ := List.forall_mem_cons.1 hseen
      rw [List.foldlM_cons]
      have hmark : Follows sighted m₁ (timeOut now timedOut a) fun _ m' => m' = m₁ := by
        have hcall : Follows sighted m₁ (Call.markResult a.id .failed (some timedOutReason)
            now.instant).perform fun _ m' => m' = m₁ := by
          refine follows_perform ⟨ha, .inr rfl⟩ fun r => ?_
          cases r <;> rfl
        exact hcall.bind (fun _ _ h => h) fun _ _ h => h
      exact hmark.bind (fun timedOut' m₂ hm₂ => hm₂ ▸ ih hrest timedOut') fun _ _ _ => trivial
  exact hmarks actions hseen 0

/-- Every operation goes by what it has seen. -/
theorem Operation.follows_program {op : Operation} (hop : op.Ordered) :
    Follows sighted m op.program fun _ _ => True := by
  have hunbound : ∀ op' : Operation, (∀ c, op'.Makes c → c.IsUnbound) →
      Follows sighted m op'.program fun _ _ => True := fun op' h =>
    follows_unbound (op'.only_program.mono h)
  cases op with
  | evaluateAndApply svc nodeId samples t =>
    exact (AlertEvaluationService.follows_evaluateAndApply (hop svc rfl) samples).map
      fun _ _ _ => trivial
  | ingest svc payload receivedAt =>
    have hpersist : Only Call.IsUnbound (MetricsIngestionService.persist payload receivedAt) :=
      (MetricsIngestionService.routine_persist payload receivedAt).mono fun _ hc => hc.unbound
    have hingest : Follows sighted m (MetricsIngestionService.ingest svc payload receivedAt)
        fun _ _ => True := by
      refine (follows_unbound hpersist).bind (fun _ m₁ _ => ?_) fun _ _ _ => trivial
      have hevaluate : Follows sighted m₁ (svc.evaluateAndApply payload.nodeId payload.samples
          payload.collectedAt) fun _ _ => True :=
        AlertEvaluationService.follows_evaluateAndApply (hop svc rfl) payload.samples
      have hactions : Follows sighted m₁ (svc.evaluateAndApply payload.nodeId payload.samples
          payload.collectedAt >>= fun evaluated : EvaluationOutcome =>
            .pure (evaluated.dispatchedActions.map MetricsIngestionService.pendingAction))
          fun _ _ => True := hevaluate.bind (fun _ _ _ => follows_pure trivial) fun _ _ _ => trivial
      have hbody : Follows sighted m₁ (MetricsIngestionService.evaluateRulesBestEffort svc payload)
          fun _ _ => True :=
        hactions.tryCatch (fun _ _ _ => trivial) fun _ _ _ => follows_pure trivial
      exact hbody.bind (fun _ _ _ => follows_pure trivial) fun _ _ _ => trivial
    exact hingest.map fun _ _ _ => trivial
  | acknowledge alertId acknowledgedBy now =>
    refine hunbound _ fun c hc => ?_
    rcases hc with rfl | rfl <;> trivial
  | reportResult actionId result now =>
    exact (RemediationActionService.follows_reportResult actionId result now).map
      fun _ _ _ => trivial
  | reconciliation settings now =>
    exact (ReconciliationJob.follows_run settings now).map fun _ _ _ => trivial
  | retention settings now passes =>
    refine hunbound _ fun c hc => ?_
    rcases hc with ⟨_, _, rfl⟩ | ⟨_, _, rfl⟩ | ⟨_, _, rfl⟩ <;> trivial
  | staleness settings firstRunDone now =>
    refine hunbound _ fun c hc => ?_
    rcases hc with rfl | hc
    · trivial
    · exact hc.unbound

end Programs

/-! ## Every interleaving -/

/-- In every interleaving of any operations, whichever calls fail: from any moment to any later one
the rows only go on, and what is open at the later one is there after any next call. -/
theorem lives_interleaved (env : Environment) (ops : List Operation)
    (hops : ∀ op ∈ ops, op.Ordered) (w : World) (before after : List ℕ) (i : ℕ) :
    let P := Pool.run (handle env) before (Operation.pool ops w)
    let P' := Pool.run (handle env) after P
    P.state.store.GoesOn P'.state.store ∧
      P'.state.store.KeepsOpen (P'.step (handle env) i).state.store := by
  intro P P'
  have hfollows : (Operation.pool ops w).Follows sighted (fun _ _ _ => True) fun _ => .none := by
    intro j p hp
    obtain ⟨op, hop, rfl⟩ := List.mem_map.1 (List.mem_of_getElem? hp)
    exact Operation.follows_program (hops op hop)
  obtain ⟨modes, hP, hK, -⟩ := (tolerates_sighted env).run hfollows
    (fun _ => Seen.holdsOf_none _) before
  obtain ⟨modes', hP', hK', hsteps⟩ := (tolerates_sighted env).run hP hK after
  refine ⟨?_, ?_⟩
  · generalize P'.state = w' at hsteps
    induction hsteps with
    | refl => exact .refl _
    | tail _ hstep ih => exact ih.trans hstep
  · rcases hc : P'.nextCall i with _ | c
    · rw [Pool.step_of_ended hc]
      exact ⟨.refl _ _, .refl _ _⟩
    · obtain ⟨k, hk⟩ := Pool.nextCall_eq_some_iff.1 hc
      rw [Pool.step_of_call hk]
      exact keepsOpen_handle env c _

namespace Scenario

/-- A payload is served twice at once, and its alert is due for remediation. -/
def servedTwice : List Operation := [push 2000 97, push 2000 97]

theorem lives_interleaved_servedTwice :
    let P := Pool.run (handle .calm) [0, 0, 0, 1, 1, 1] (Operation.pool servedTwice dueWorld)
    let P' := Pool.run (handle .calm) [0, 1, 0, 1, 0, 1] P
    P.state.store.GoesOn P'.state.store ∧
      P'.state.store.KeepsOpen (P'.step (handle .calm) 0).state.store := by
  refine lives_interleaved .calm servedTwice (fun op hop => ?_) dueWorld _ _ 0
  obtain rfl : op = push 2000 97 := by simpa [servedTwice] using hop
  rintro svc ⟨⟩
  exact deployment.ordered

end Scenario

end ClusterPulse
