import ClusterPulse.Proof.GuardedCalls

/-!
# The integrity of the audit log

Six writers share the alerts and the audit log.  A call is `Proper` if it files a decision under an
alert of the node and the rule key, or ends an action that is still dispatched; every call of every
operation is proper, whichever calls fail and wherever a retention run is interrupted.  Proper calls
keep the log sound, delete no firing alert and no dispatched action, and leave every row that is not
dispatched as it is for as long as it is there.
-/

namespace ClusterPulse

open AlertRepository RemediationActionRepository Prog

/-! ## The log and the alerts it refers to -/

/-- The rows of the audit log are well formed and refer to their alerts. -/
structure Sound (alerts : AlertTable) (actions : ActionTable) : Prop where
  alert : ∀ r ∈ actions.rows, IsAlertOf alerts r.alertId r.nodeId r.ruleKey
  completed : ∀ r ∈ actions.rows,
    r.completedAt.isSome ↔ r.status = .executed ∨ r.status = .failed
  reason : ∀ r ∈ actions.rows, r.status = .blockedBySafetyLimit → r.reason.isSome

theorem sound_empty : Sound .empty .empty := ⟨nofun, nofun, nofun⟩

/-- What may become of a row: a dispatched one is ended, any other one stays as it is. -/
def RemediationActionRecord.LeadsTo (r r' : RemediationActionRecord) : Prop :=
  if r.status = .dispatched then r'.identity = r.identity ∧ r'.status ≠ .blockedBySafetyLimit
  else r' = r

/-- What may become of the log: rows are added, ended or deleted, and a deleted one never returns. -/
structure LogLeadsTo (t t' : ActionTable) : Prop where
  next_le : t.next ≤ t'.next
  row : ∀ i r', t'.get? i = some r' → i < t.next → ∃ r, t.get? i = some r ∧ r.LeadsTo r'

section LeadsTo

variable {r r' r'' : RemediationActionRecord} {t t' t'' : ActionTable}

theorem RemediationActionRecord.LeadsTo.refl (r : RemediationActionRecord) : r.LeadsTo r := by
  unfold LeadsTo
  split_ifs with hr
  · exact ⟨rfl, hr ▸ nofun⟩
  · rfl

theorem RemediationActionRecord.LeadsTo.trans (h : r.LeadsTo r') (h' : r'.LeadsTo r'') :
    r.LeadsTo r'' := by
  unfold LeadsTo at h
  split_ifs at h with hr
  · unfold LeadsTo at h' ⊢
    rw [if_pos hr]
    split_ifs at h' with hr'
    · exact ⟨h'.1.trans h.1, h'.2⟩
    · exact h' ▸ h
  · exact h ▸ h'

theorem LogLeadsTo.refl (t : ActionTable) : LogLeadsTo t t :=
  ⟨le_rfl, fun _ r' hr' _ => ⟨r', hr', .refl r'⟩⟩

theorem LogLeadsTo.trans (h : LogLeadsTo t t') (h' : LogLeadsTo t' t'') : LogLeadsTo t t'' := by
  refine ⟨h.next_le.trans h'.next_le, fun i r'' hr'' hi => ?_⟩
  obtain ⟨r', hr', hlead'⟩ := h'.row i r'' hr'' (Nat.lt_of_lt_of_le hi h.next_le)
  obtain ⟨r, hr, hlead⟩ := h.row i r' hr' hi
  exact ⟨r, hr, hlead.trans hlead'⟩

/-- A row that is not dispatched is the same for as long as it is there. -/
theorem LogLeadsTo.eq_of_ne_dispatched (h : LogLeadsTo t t') {i : ℕ} (hr : t.get? i = some r)
    (hstatus : r.status ≠ .dispatched) (hr' : t'.get? i = some r') : r' = r := by
  obtain ⟨r₀, hr₀, hlead⟩ := h.row i r' hr' (Table.lt_next_of_get? hr)
  obtain rfl : r₀ = r := Option.some.inj (hr₀.symm.trans hr)
  unfold RemediationActionRecord.LeadsTo at hlead
  rwa [if_neg hstatus] at hlead

end LeadsTo

/-! ## Proper calls -/

/-- What a call that writes the audit log requires of the tables. -/
def Call.Proper (σ : Store) : Call → Prop
  | .createAction nodeId alertId ruleKey _ _ _ status reason _ =>
    IsAlertOf σ.alerts alertId nodeId ruleKey ∧ status = RemediationEngine.statusFor reason
  | .markResult actionId status _ _ =>
    (∃ r, σ.remediationActions.get? actionId = some r ∧ r.status = .dispatched) ∧
      (status = .executed ∨ status = .failed)
  | _ => True

variable {scan : Scan} {σ : Store} {c : Call}

/-- A batch of actions holds none that is dispatched. -/
theorem RemediationActionRepository.of_pruned {cutoff : Instant} {batchSize : ℕ}
    {r : RemediationActionRecord} (hr : r ∈ σ.remediationActions.rows)
    (hgone : r ∉ (pruneTerminalBefore scan σ cutoff batchSize).2.remediationActions.rows) :
    r.status ≠ .dispatched := by
  have hdoomed : ((((reorder scan σ.remediationActions.rows).filter fun a =>
      a.status != .dispatched && decide (a.createdAt < cutoff)).take batchSize).map
        RemediationActionRecord.id).contains r.id = true := by
    by_contra hkept
    exact hgone (Table.mem_delete.2 ⟨hr, by simpa using hkept⟩)
  obtain ⟨b, hb, hid⟩ := List.mem_map.1 (List.contains_iff_mem.1 hdoomed)
  have hmem := List.mem_of_mem_take hb
  rw [List.mem_filter, mem_reorder] at hmem
  obtain rfl : b = r := List.inj_on_of_nodup_map σ.remediationActions.nodup hmem.1 hr hid
  have htest := hmem.2
  simp only [Bool.and_eq_true, bne_iff_ne] at htest
  exact htest.1

/-- What a call that did not fail does to the log. -/
inductive LogChange (σ : Store) : ActionTable → Prop where
  | keep : LogChange σ σ.remediationActions
  | insert (mk : ℕ → RemediationActionRecord) (hmk : ∀ n, (mk n).id = n)
    (halert : ∀ n, IsAlertOf σ.alerts (mk n).alertId (mk n).nodeId (mk n).ruleKey)
    (hopen : ∀ n, (mk n).completedAt = none)
    (hstatus : ∀ n, (mk n).status = RemediationEngine.statusFor (mk n).reason) :
    LogChange σ (σ.remediationActions.insert mk hmk)
  | mark (i : ℕ) (status : RemediationActionStatus) (reason : Option String) (completedAt : Instant)
    (hdispatched : ∃ r, σ.remediationActions.get? i = some r ∧ r.status = .dispatched)
    (hstatus : status = .executed ∨ status = .failed) :
    LogChange σ (σ.remediationActions.modify i (marked status reason completedAt)
      (id_marked status reason completedAt))
  | delete (p : RemediationActionRecord → Bool)
    (hp : ∀ r ∈ σ.remediationActions.rows, p r = true → r.status ≠ .dispatched) :
    LogChange σ (σ.remediationActions.delete p)

theorem Call.Proper.logChange (hc : c.Proper σ) : LogChange σ (c.actions scan σ) := by
  cases c with
  | createAction =>
    exact .insert _ (fun _ => id_newAction ..) (fun _ => hc.1) (fun _ => rfl) fun _ => hc.2
  | markResult actionId status reason completedAt => exact .mark actionId status reason _ hc.1 hc.2
  | pruneTerminalBefore cutoff batchSize =>
    refine .delete _ fun r hr hdoomed => ?_
    have hgone : r ∉
        (RemediationActionRepository.pruneTerminalBefore scan σ cutoff
          batchSize).2.remediationActions.rows := fun hthere =>
      Bool.false_ne_true ((Table.mem_delete.1 hthere).2.symm.trans hdoomed)
    exact RemediationActionRepository.of_pruned hr hgone
  | _ => exact .keep

namespace LogChange

variable {t : ActionTable}

theorem logLeadsTo (h : LogChange σ t) : LogLeadsTo σ.remediationActions t := by
  cases h with
  | keep => exact .refl _
  | insert mk hmk =>
    refine ⟨Nat.le_succ _, fun i r' hr' hi => ⟨r', ?_, .refl r'⟩⟩
    rwa [Table.get?_insert, if_neg hi.ne] at hr'
  | mark i status reason completedAt hdispatched hstatus =>
    refine ⟨le_rfl, fun j r' hr' _ => ?_⟩
    obtain ⟨r, hr, hd⟩ := hdispatched
    by_cases hj : j = i
    · subst hj
      rw [Table.get?_modify_self, hr, Option.map_some, Option.some.injEq] at hr'
      refine ⟨r, hr, ?_⟩
      unfold RemediationActionRecord.LeadsTo
      rw [if_pos hd, ← hr']
      refine ⟨rfl, ?_⟩
      rcases hstatus with rfl | rfl
      · exact nofun
      · exact nofun
    · rw [Table.get?_modify_of_ne hj] at hr'
      exact ⟨r', hr', .refl r'⟩
  | delete p hp =>
    refine ⟨le_rfl, fun i r' hr' _ => ⟨r', ?_, .refl r'⟩⟩
    rw [Table.get?_delete, Option.filter_eq_some_iff] at hr'
    exact hr'.1

theorem dispatched_kept (h : LogChange σ t) {i : ℕ} {r : RemediationActionRecord}
    (hr : σ.remediationActions.get? i = some r) (hstatus : r.status = .dispatched) :
    (t.get? i).isSome := by
  cases h with
  | keep => rw [hr]; rfl
  | insert mk hmk =>
    have hsame : (σ.remediationActions.insert mk hmk).get? i = some r := Table.get?_insert_of_get? hr
    rw [hsame]
    rfl
  | mark j =>
    by_cases hi : i = j
    · subst hi
      rw [Table.get?_modify_self, hr]
      rfl
    · rw [Table.get?_modify_of_ne hi, hr]
      rfl
  | delete p hp =>
    rw [Table.get?_delete, hr, Option.filter_some_pos]
    · rfl
    · have hkept := fun hgone => hp r (Table.mem_of_get? hr) hgone hstatus
      simpa using hkept

theorem sound (h : LogChange σ t) (hσ : Sound σ.alerts σ.remediationActions) :
    Sound σ.alerts t := by
  cases h with
  | keep => exact hσ
  | insert mk hmk halert hopen hstatus =>
    refine ⟨fun r hr => ?_, fun r hr => ?_, fun r hr => ?_⟩
    · rcases Table.mem_insert.1 hr with hr | rfl
      · exact hσ.alert r hr
      · exact halert _
    · rcases Table.mem_insert.1 hr with hr | rfl
      · exact hσ.completed r hr
      · rw [hopen, hstatus]
        cases (mk σ.remediationActions.next).reason <;> simp [RemediationEngine.statusFor]
    · rcases Table.mem_insert.1 hr with hr | rfl
      · exact hσ.reason r hr
      · rw [hstatus]
        cases (mk σ.remediationActions.next).reason <;> simp [RemediationEngine.statusFor]
  | mark i status reason completedAt hdispatched hstatus =>
    refine ⟨fun r hr => ?_, fun r hr => ?_, fun r hr => ?_⟩
    all_goals
      obtain ⟨r₀, hr₀, rfl⟩ := Table.mem_modify.1 hr
      split_ifs
    · exact hσ.alert r₀ hr₀
    · exact hσ.alert r₀ hr₀
    · exact iff_of_true rfl hstatus
    · exact hσ.completed r₀ hr₀
    · rintro rfl
      simp at hstatus
    · exact hσ.reason r₀ hr₀
  | delete p hp =>
    exact ⟨fun r hr => hσ.alert r (Table.mem_delete.1 hr).1,
      fun r hr => hσ.completed r (Table.mem_delete.1 hr).1,
      fun r hr => hσ.reason r (Table.mem_delete.1 hr).1⟩

end LogChange

/-! ## One proper call -/

/-- No call deletes a firing alert. -/
theorem Call.firing_kept {i : ℕ} {a : AlertRecord} (ha : σ.alerts.get? i = some a)
    (hfiring : a.status = .firing) : ((c.alerts scan σ).get? i).isSome := by
  have hrows : ∀ t : AlertTable, IsAlertOf t i a.nodeId a.ruleKey → (t.get? i).isSome := by
    rintro t ⟨b, hb, -, -⟩
    rw [hb]
    rfl
  by_cases hprune : ∃ cutoff batchSize, c = .pruneResolvedBefore cutoff batchSize
  · obtain ⟨cutoff, batchSize, rfl⟩ := hprune
    have hthere : a ∈ (AlertRepository.pruneResolvedBefore scan σ cutoff batchSize).2.alerts.rows := by
      by_contra hgone
      have hresolved := (AlertRepository.of_pruned (Table.mem_of_get? ha) hgone).1
      rw [hfiring] at hresolved
      cases hresolved
    exact hrows _ ⟨a, Table.get?_eq_some_iff.2 ⟨hthere, Table.key_of_get? ha⟩, rfl, rfl⟩
  · refine hrows _ (IsAlertOf.alerts ⟨a, ha, rfl, rfl⟩ fun cutoff batchSize hc => ?_)
    exact absurd ⟨cutoff, batchSize, hc⟩ hprune

/-- What the audit log and the alerts go through in one call. -/
structure AuditStep (w w' : World) : Prop where
  sound : Sound w.store.alerts w.store.remediationActions →
    Sound w'.store.alerts w'.store.remediationActions
  leadsTo : LogLeadsTo w.store.remediationActions w'.store.remediationActions
  dispatched_kept : ∀ i r, w.store.remediationActions.get? i = some r → r.status = .dispatched →
    (w'.store.remediationActions.get? i).isSome
  firing_kept : ∀ i a, w.store.alerts.get? i = some a → a.status = .firing →
    (w'.store.alerts.get? i).isSome

theorem Call.Proper.auditStep (env : Environment) {w : World} (hc : c.Proper w.store) :
    AuditStep w (handle env c w).2 := by
  rcases handle_cases env c w with ⟨e, -, h⟩ | ⟨-, h⟩ <;> rw [h]
  · exact ⟨id, .refl _, fun i r hr _ => by rw [hr]; rfl, fun i a ha _ => by rw [ha]; rfl⟩
  · have hlog : LogChange w.store (w.after (env.scan w.calls) c).store.remediationActions :=
      World.after_actions .. ▸ hc.logChange
    refine ⟨fun hsound => ?_, hlog.logLeadsTo, fun i r hr => hlog.dispatched_kept hr,
      fun i a ha hfiring => World.after_alerts .. ▸ Call.firing_kept ha hfiring⟩
    have hnew := hlog.sound hsound
    refine ⟨fun r hr => ?_, hnew.completed, hnew.reason⟩
    rw [World.after_alerts]
    refine (hnew.alert r hr).alerts fun cutoff batchSize hc' => ⟨r, ?_, rfl⟩
    subst hc'
    rwa [World.after_actions] at hr

/-! ## Every call is proper -/

section Operations

variable {env : Environment} {w : World}

theorem auditStep_of_callStep {w' : World} (h : CallStep env Call.Proper w w') : AuditStep w w' := by
  obtain ⟨c, hc, rfl⟩ := h
  exact hc.auditStep env

theorem Call.IsEvaluationOf.proper {nodeId : String} {c : Call} (hc : c.IsEvaluationOf nodeId σ) :
    c.Proper σ := by
  cases c with
  | createAction =>
    obtain ⟨rfl, halert, hstatus⟩ := hc
    exact ⟨halert, hstatus⟩
  | markResult => exact hc.elim
  | _ => trivial

theorem Call.IsRoutine.proper {c : Call} (hc : c.IsRoutine) (σ : Store) : c.Proper σ := by
  cases c with
  | createAction | markResult => exact hc.elim
  | _ => trivial

/-- A report ends its action only if it is dispatched, and returns the row it leaves. -/
theorem RemediationActionService.runs_reportResult_proper (actionId : ℕ) (result : ActionResult)
    (now : Instant) :
    Runs (handle env) (CallStep env Call.Proper) (reportResult actionId result now) w (Ends
      (fun r w' => w'.store.remediationActions.get? actionId = some r ∧ r.status ≠ .dispatched)
      fun _ _ => True) := by
  unfold reportResult getAction
  rw [bind_assoc]
  have hget : Runs (handle env) (CallStep env Call.Proper) (Call.getAction actionId).perform w (Ends
      (fun record w₁ => w₁.store.remediationActions.get? actionId = record) fun _ _ => True) := by
    refine Prog.runs_perform ⟨.getAction actionId, trivial, rfl⟩ ?_
    rcases handle_cases env (.getAction actionId) w with ⟨e, -, heq⟩ | ⟨-, heq⟩
    · rw [heq]
      trivial
    · rw [heq]
      rfl
  refine hget.andThen fun record w₁ hrecord => ?_
  cases record with
  | none => trivial
  | some r =>
    simp only [pure_eq, pure_bind']
    split_ifs with hstatus
    · let mark : Call := .markResult actionId (actionStatus result.status) result.message now
      have hended : actionStatus result.status = .executed ∨
          actionStatus result.status = .failed := by
        cases result.status with
        | executed => exact .inl rfl
        | failed => exact .inr rfl
      have hproper : mark.Proper w₁.store := ⟨⟨r, hrecord, hstatus⟩, hended⟩
      refine Call.runs_perform (fun e he => ⟨⟨mark, hproper, ?_⟩, trivial⟩)
        fun hok => ⟨⟨mark, hproper, ?_⟩, ?_⟩
      · rw [handle_of_fault he]
      · rw [handle_of_ok hok]
      · rw [show (exec (env.scan w₁.calls) mark w₁.store).1 = .ok _ from
          markResult_of_get? hrecord _ _ _]
        refine ⟨?_, fun hdispatched => ?_⟩
        · simp only [World.after_actions, Call.actions, Table.get?_modify_self, hrecord,
            Option.map_some]
        · rcases hended with h | h
          · cases h.symm.trans hdispatched
          · cases h.symm.trans hdispatched
    · trivial

namespace ReconciliationJob

/-- The actions are in the log and still dispatched. -/
def Pending (w : World) (actions : List RemediationActionRecord) : Prop :=
  ∀ a ∈ actions, ∃ r, w.store.remediationActions.get? a.id = some r ∧ r.status = .dispatched

/-- The listed actions are dispatched until their turn comes. -/
theorem allCalls_timeOut {now : Datetime} {timedOut : ℕ}
    {actions : List RemediationActionRecord}
    (hnodup : (actions.map RemediationActionRecord.id).Nodup) (hpending : Pending w actions) :
    AllCalls env Call.Proper (actions.foldlM (timeOut now) timedOut) w := by
  induction actions generalizing w timedOut with
  | nil => trivial
  | cons a actions ih =>
    rw [List.map_cons, List.nodup_cons] at hnodup
    have hrest : Pending w actions := fun b hb => hpending b (List.mem_cons_of_mem _ hb)
    let mark : Call := .markResult a.id .failed (some timedOutReason) now.instant
    have hproper : mark.Proper w.store := ⟨hpending a List.mem_cons_self, .inr rfl⟩
    have hmark : Runs (handle env) (CallStep env Call.Proper) mark.perform w
        fun _ w₁ => Pending w₁ actions := by
      refine Call.runs_perform (fun e he => ⟨⟨mark, hproper, ?_⟩, hrest⟩)
        fun hok => ⟨⟨mark, hproper, ?_⟩, fun b hb => ?_⟩
      · rw [handle_of_fault he]
      · rw [handle_of_ok hok]
      · obtain ⟨r, hr, hstatus⟩ := hrest b hb
        have hne : b.id ≠ a.id := fun hid => hnodup.1 (List.mem_map.2 ⟨b, hb, hid⟩)
        refine ⟨r, ?_, hstatus⟩
        simp only [World.after_actions, mark, Call.actions]
        rw [Table.get?_modify_of_ne hne, hr]
    have hstep : Runs (handle env) (CallStep env Call.Proper) (timeOut now timedOut a) w
        fun _ w₁ => Pending w₁ actions := hmark.bind (fun _ _ h => h) fun _ _ h => h
    rw [List.foldlM_cons]
    exact allCalls_bind hstep fun _ _ h => ih hnodup.2 h

theorem allCalls_run (settings : CollectorSettings) (now : Datetime) :
    AllCalls env Call.Proper (run settings now) w := by
  unfold run
  rcases cutoff settings.remediationDispatchTimeoutSeconds now with e | c
  · trivial
  rw [lift_ok, pure_bind']
  have hlist : Runs (handle env) (CallStep env Call.Proper)
      (Call.listDispatchedBefore c.instant).perform w (Ends
        (fun actions w₁ => (actions.map RemediationActionRecord.id).Nodup ∧ Pending w₁ actions)
        fun _ _ => True) := by
    refine Prog.runs_perform ⟨.listDispatchedBefore c.instant, trivial, rfl⟩ ?_
    rcases handle_cases env (.listDispatchedBefore c.instant) w with ⟨e, -, heq⟩ | ⟨-, heq⟩
    · rw [heq]
      trivial
    · rw [heq]
      refine ⟨?_, fun a ha => ?_⟩
      · have hnodup := ((reorder_perm (env.scan w.calls) w.store.remediationActions.rows).map
          RemediationActionRecord.id).nodup_iff.2 w.store.remediationActions.nodup
        exact hnodup.sublist (List.filter_sublist.map _)
      · obtain ⟨hmem, htest⟩ := List.mem_filter.1 ha
        simp only [Bool.and_eq_true, beq_iff_eq] at htest
        exact ⟨a, Table.get?_of_mem (mem_reorder.1 hmem), htest.1⟩
  exact allCalls_bind hlist fun actions w₁ h => allCalls_timeOut h.1 h.2

end ReconciliationJob

/-- Every call of every operation is proper, from any world. -/
theorem Operation.allCalls_program (op : Operation) : AllCalls env Call.Proper op.program w := by
  have hquiet : ∀ (op' : Operation), (∀ c, op'.Makes c → ∀ σ, c.Proper σ) →
      AllCalls env Call.Proper op'.program w := fun op' h =>
    allCalls_of_only op'.only_program fun c σ hc => h c hc σ
  cases op with
  | evaluateAndApply svc nodeId samples t =>
    exact ((AlertEvaluationService.allCalls_evaluateAndApply samples).mono
      fun _ _ => Call.IsEvaluationOf.proper).map _
  | ingest svc payload receivedAt =>
    have hpersist := MetricsIngestionService.routine_persist payload receivedAt
    have hingest : AllCalls env Call.Proper
        (MetricsIngestionService.ingest svc payload receivedAt) w :=
      allCalls_bind (allCalls_of_only hpersist fun _ σ hc => hc.proper σ) fun _ w₁ _ =>
        ((MetricsIngestionService.allCalls_evaluateRulesBestEffort payload).mono
          fun _ _ => Call.IsEvaluationOf.proper).map _
    exact hingest.map _
  | acknowledge alertId acknowledgedBy now =>
    refine hquiet _ fun c hc σ => ?_
    rcases hc with rfl | rfl
    · trivial
    · trivial
  | reportResult actionId result now =>
    exact AllCalls.map ((RemediationActionService.runs_reportResult_proper actionId result now).post
      fun _ _ _ => trivial) _
  | reconciliation settings now => exact (ReconciliationJob.allCalls_run settings now).map _
  | retention settings now passes =>
    refine hquiet _ fun c hc σ => ?_
    rcases hc with ⟨_, _, rfl⟩ | ⟨_, _, rfl⟩ | ⟨_, _, rfl⟩
    · trivial
    · trivial
    · trivial
  | staleness settings firstRunDone now =>
    refine hquiet _ fun c hc σ => ?_
    rcases hc with rfl | hc
    · trivial
    · exact hc.proper σ

end Operations

/-! ## Serial runs -/

/-- The integrity of the audit log over a serial run: every state is sound, no call deletes a
firing alert or a dispatched action, a row goes only where `LogLeadsTo` lets it go, and the row of an
accepted report is the same for as long as it is there. -/
structure AuditIntegrity (env : Environment) (ops : List Operation) (w : World) : Prop where
  sound : ∀ x ∈ Operation.timeline env ops w,
    Sound x.before.store.alerts x.before.store.remediationActions ∧
      Sound x.after.store.alerts x.after.store.remediationActions
  dispatched_kept : ∀ x ∈ Operation.timeline env ops w, ∀ i r,
    x.before.store.remediationActions.get? i = some r → r.status = .dispatched →
      (x.after.store.remediationActions.get? i).isSome
  firing_kept : ∀ x ∈ Operation.timeline env ops w, ∀ i a,
    x.before.store.alerts.get? i = some a → a.status = .firing → (x.after.store.alerts.get? i).isSome
  leadsTo : ∀ (i j : ℕ) x y, i ≤ j → (Operation.timeline env ops w)[i]? = some x →
    (Operation.timeline env ops w)[j]? = some y →
      LogLeadsTo x.before.store.remediationActions y.after.store.remediationActions
  accepted_kept : ∀ pre post actionId result now r,
    ops = pre ++ .reportResult actionId result now :: post →
      ((RemediationActionService.reportResult actionId result now).run (handle env)
        (Operation.runAll env pre w)).1 = .ok r →
          ∀ y ∈ Operation.timeline env post
            (Operation.runAll env (pre ++ [.reportResult actionId result now]) w),
              ∀ r', y.after.store.remediationActions.get? actionId = some r' → r' = r

theorem linked_timeline (env : Environment) (ops : List Operation) (w : World) :
    Linked (fun _ => AuditStep) w (Operation.timeline env ops w) := by
  refine timeline_linked (I := fun _ => True) (fun op _ w' _ => ?_) trivial
  exact Runs.mono op.allCalls_program (fun _ _ => auditStep_of_callStep) fun _ _ _ => trivial

/-- From a fresh deployment, whichever calls fail and in whatever order the tables are scanned. -/
theorem auditIntegrity (env : Environment) (ops : List Operation) :
    AuditIntegrity env ops .fresh where
  sound := (linked_timeline env ops .fresh).invariant
    (fun w => Sound w.store.alerts w.store.remediationActions) (fun _ _ _ h => h.sound) sound_empty
  dispatched_kept x hx := ((linked_timeline env ops .fresh).mem x hx).dispatched_kept
  firing_kept x hx := ((linked_timeline env ops .fresh).mem x hx).firing_kept
  leadsTo i j x y hij hx hy := (linked_timeline env ops .fresh).pairwise
    (fun w w' => LogLeadsTo w.store.remediationActions w'.store.remediationActions)
    (fun _ => .refl _) (fun _ _ _ => .trans) (fun _ _ _ h => h.leadsTo) hij hx hy
  accepted_kept pre post actionId result now r _ haccepted y hy r' hr' := by
    have hruns : Runs (handle env) (CallStep env Call.Proper)
        (RemediationActionService.reportResult actionId result now)
        (Operation.runAll env pre .fresh) (Ends (fun r w' =>
          w'.store.remediationActions.get? actionId = some r ∧ r.status ≠ .dispatched)
          fun _ _ => True) :=
      RemediationActionService.runs_reportResult_proper actionId result now
    have hreport := hruns.run
    rw [haccepted] at hreport
    have hw : Operation.runAll env (pre ++ [.reportResult actionId result now]) .fresh =
        ((RemediationActionService.reportResult actionId result now).run (handle env)
          (Operation.runAll env pre .fresh)).2 := by
      rw [Operation.runAll_append, Operation.runAll_cons, Operation.runAll_nil]
      exact congrArg Prod.snd (run_map Reply.action _ _)
    have hlog := (linked_timeline env post _).le_after
      (fun w w' : World => LogLeadsTo w.store.remediationActions w'.store.remediationActions)
      (fun _ _ _ => .trans) (fun _ _ _ h => h.leadsTo) (.refl _) y hy
    rw [hw] at hlog
    exact hlog.eq_of_ne_dispatched hreport.1 hreport.2 hr'

end ClusterPulse
