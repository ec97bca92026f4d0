import ClusterPulse.Proof.SameTables

/-!
# Applying a rule result again

A rule result that has been applied finds nothing left to do: the open alert of its key says what
the result says, it has escalated or is too young to, and a decision about it has been made or is
not due.  Where applying the result raised, it raises again before it writes.
-/

namespace ClusterPulse

open AlertRepository Prog

/-- The alert that is open for a key. -/
def openRow (t : AlertTable) (nodeId ruleKey : String) : Option AlertRecord :=
  t.rows.find? (isOpen nodeId ruleKey)

/-- The engine makes no decision for the key: it is disabled, or no playbook is mapped to it. -/
def RemediationEngine.Idle (e : RemediationEngine) (ruleKey : String) : Prop :=
  e.enabled = false ∨ e.byRuleKey? ruleKey = none

/-- No decision about the alert is left to be made. -/
def AlertEvaluationService.Decided (svc : AlertEvaluationService) (ruleKey : String) (t : Datetime)
    (a : AlertRecord) : Prop :=
  svc.shouldRemediate a t = .ok true → ∀ e ∈ svc.remediationEngine, e.Idle ruleKey

/-- The alert says what the result says, and it need not escalate. -/
structure Written (svc : AlertEvaluationService) (result : RuleEvaluationResult) (t : Datetime)
    (a : AlertRecord) : Prop where
  advanced : advanced result.value t a = a
  calm : svc.shouldEscalate a t ≠ .ok true

/-- The result has been applied to the open alert of its key. -/
def Applied (svc : AlertEvaluationService) (result : RuleEvaluationResult) (t : Datetime) :
    Option AlertRecord → Prop
  | none => result.breached = false
  | some a => result.breached = true ∧ Written svc result t a ∧ svc.Decided result.ruleKey t a

section Reads

variable {env : Environment} {w : World} {svc : AlertEvaluationService} {nodeId ruleKey : String}
  {t : Datetime} {a : AlertRecord}

/-- An alert that has just been opened has no age. -/
theorem ageReaches_opened {threshold : Double} (hthreshold : 0 < threshold)
    (ha : a.firstFiredAt = t.instant) :
    AlertEvaluationService.ageReaches a t threshold ≠ .ok true := by
  unfold AlertEvaluationService.ageReaches
  cases hsince : t.since a.firstFiredAt with
  | error e => exact nofun
  | ok age =>
    have hage : age = 0 := by
      rw [Datetime.since_of_ok hsince, ha, sub_self]
    have hzero : Timedelta.totalSeconds 0 = 0 := by decide +kernel
    intro hreaches
    rw [Except.map, hage, hzero, Except.ok.injEq, decide_eq_true_eq] at hreaches
    have hnan : threshold ≠ .nan := Double.ne_nan_of_le_left hreaches
    exact (Double.not_lt_iff_le (by decide) hnan).2 hreaches hthreshold

/-- Queries leave everything as it is. -/
theorem untouched_of_only {α : Type} {p : Repo α} (hp : Only Call.IsRead p) :
    Runs (handle env) (fun _ _ => True) p w fun _ w' => Untouched w w' :=
  hp.runs (Untouched w) (fun _ w' hc hw' => hw'.trans (untouched_handle env hc w')) (.refl w)

/-- The open alert is found. -/
theorem returns_findOpenAlert (henv : env.Faultless) (hone : OneFiring w.store.alerts) :
    Returns env (Call.findOpenAlert nodeId ruleKey).perform w fun current w' =>
      current = openRow w.store.alerts nodeId ruleKey ∧ Untouched w w' := by
  refine Call.runs_perform (fun e he => ?_) fun hok => ⟨trivial, ?_, ?_⟩
  · rw [henv] at he
    cases he
  · exact findOpenAlert_eq hone rfl (env.scan w.calls) nodeId ruleKey
  · have huntouched := untouched_handle env (c := .findOpenAlert nodeId ruleKey) trivial w
    rwa [handle_of_ok hok] at huntouched

/-- A decision is made unless the engine is idle, and nothing is written before an exception. -/
theorem RemediationEngine.runs_decide_again (henv : env.Faultless) (e : RemediationEngine)
    (alertId : ℕ) :
    Runs (handle env) (fun _ _ => True) (e.decide nodeId alertId ruleKey t) w (Ends
      (fun decision w' => w'.store.alerts = w.store.alerts ∧ (decision = none → e.Idle ruleKey))
      fun _ w' => Untouched w w') := by
  unfold RemediationEngine.decide
  split_ifs with henabled
  swap
  · exact ⟨rfl, fun _ => .inl (Bool.eq_false_iff.2 henabled)⟩
  cases hplaybook : e.byRuleKey? ruleKey with
  | none => exact ⟨rfl, fun _ => .inr hplaybook⟩
  | some playbook =>
    have hlimits : Runs (handle env) (fun _ _ => True) (e.checkSafetyLimits nodeId playbook t) w
        fun _ w' => Untouched w w' := untouched_of_only (e.only_checkSafetyLimits playbook)
    refine hlimits.bind (fun reason w₁ hw₁ => ?_) fun _ _ hw₁ => hw₁
    let c : Call := .createAction nodeId alertId ruleKey playbook.playbookName playbook.actionType
      playbook.parameters (RemediationEngine.statusFor reason) reason t
    have hcreate := Call.returns_same (w := w₁) henv c (fun _ => ⟨_, rfl⟩) fun _ => rfl
    refine hcreate.bind (fun action w₂ hw₂ => ⟨?_, nofun⟩) fun _ _ hw₂ => hw₂.elim
    exact Eq.trans hw₂ (congrArg Store.alerts hw₁.store)

theorem RemediationEngine.Idle.decide_eq {e : RemediationEngine} (he : e.Idle ruleKey)
    (alertId : ℕ) : e.decide nodeId alertId ruleKey t = .pure none := by
  unfold RemediationEngine.decide
  obtain hdisabled | hnone := he
  · rw [hdisabled, if_neg Bool.false_ne_true]
    rfl
  · rw [hnone, ite_self]
    rfl

end Reads

/-! ## The open alert -/

section Advance

variable {env : Environment} {w : World} {svc : AlertEvaluationService} {nodeId : String}
  {result : RuleEvaluationResult} {t : Datetime} {a : AlertRecord}

/-- A write to an alert, which answers with what it wrote. -/
theorem returns_update (henv : env.Faultless) (c : Call) {f : AlertRecord → AlertRecord}
    (hf : ∀ a, (f a).id = a.id) (answer : c.Res → AlertRecord)
    (hanswer : ∀ scan σ, σ.alerts.get? a.id = some a →
      ∃ r, (exec scan c σ).1 = .ok r ∧ answer r = f a)
    (halerts : ∀ scan σ, c.alerts scan σ = σ.alerts.modify a.id f hf)
    (ha : a ∈ w.store.alerts.rows) :
    Returns env c.perform w fun r w' => answer r = f a ∧
      w.store.alerts.Replaces w'.store.alerts a (f a) := by
  have hget := Table.get?_of_mem ha
  have hok := fun scan => hanswer scan w.store hget
  refine (Call.returns henv c fun scan => (hok scan).imp fun _ hr => hr.1).post ?_
  rintro (e | r) w' hQ
  · exact hQ
  · obtain ⟨scan, hr, hw'⟩ := hQ
    obtain ⟨r', hr', hrow⟩ := hok scan
    obtain rfl : r' = r := Except.ok.inj (hr'.symm.trans hr)
    refine ⟨hrow, ?_⟩
    rw [hw', halerts]
    exact Table.replaces_modify ha

/-- Afterwards the alert need not escalate. -/
theorem runs_maybeEscalate_again (henv : env.Faultless) (ha : a ∈ w.store.alerts.rows) :
    Runs (handle env) (fun _ _ => True) (svc.maybeEscalate t a) w (Ends
      (fun a' w' => w.store.alerts.Replaces w'.store.alerts a a' ∧
        (a' = a ∨ a' = escalated t a) ∧ svc.shouldEscalate a' t = .ok false ∧
        ∃ due, svc.shouldEscalate a t = .ok due)
      fun e w' => w' = w ∧ svc.shouldEscalate a t = .error e) := by
  unfold AlertEvaluationService.maybeEscalate
  cases hdue : svc.shouldEscalate a t with
  | error e => exact ⟨rfl, rfl⟩
  | ok due =>
    rw [lift_ok, pure_bind']
    cases due with
    | false => exact ⟨.refl ha, .inl rfl, hdue, false, rfl⟩
    | true =>
      have hwrite := returns_update henv (.escalateAlert a.id t) (id_escalated · t) id
        (fun _ _ hget => ⟨_, update_of_get? hget, rfl⟩) (fun _ _ => rfl) ha
      refine hwrite.bind (fun a' w₁ hQ => ?_) fun _ _ hQ => hQ.elim
      obtain ⟨rfl, hreplaces⟩ := hQ
      refine (returns_notify henv _).bind (fun _ w₂ hw₂ => ⟨?_, .inr rfl, ?_, true, rfl⟩)
        fun _ _ hQ => hQ.elim
      · have halerts : w₂.store.alerts = w₁.store.alerts := hw₂
        rw [halerts]
        exact hreplaces
      · unfold AlertEvaluationService.shouldEscalate
        exact if_pos (by simp [escalated])

/-- Afterwards no decision is left to be made. -/
theorem runs_maybeRemediate_again (henv : env.Faultless) (ha : a ∈ w.store.alerts.rows) :
    Runs (handle env) (fun _ _ => True) (svc.maybeRemediate nodeId result t a) w (Ends
      (fun _ w' => ∃ a', w.store.alerts.Replaces w'.store.alerts a a' ∧
        (a' = a ∨ a' = remediated t a) ∧ svc.Decided result.ruleKey t a')
      fun _ w' => Untouched w w') := by
  unfold AlertEvaluationService.maybeRemediate
  have hkept : svc.Decided result.ruleKey t a → ∃ a', w.store.alerts.Replaces w.store.alerts a a' ∧
      (a' = a ∨ a' = remediated t a) ∧ svc.Decided result.ruleKey t a' :=
    fun hdecided => ⟨a, .refl ha, .inl rfl, hdecided⟩
  cases hdue : svc.shouldRemediate a t with
  | error e => exact Untouched.refl w
  | ok due =>
    rw [lift_ok, pure_bind']
    cases due with
    | false =>
      refine hkept fun htrue => ?_
      rw [hdue] at htrue
      cases htrue
    | true =>
      cases hengine : svc.remediationEngine with
      | none =>
        refine hkept fun _ e he => ?_
        rw [hengine] at he
        cases he
      | some engine =>
        refine (engine.runs_decide_again henv a.id).bind ?_ fun _ _ hw₁ => hw₁
        rintro decision w₁ ⟨hw₁, hnone⟩
        cases decision with
        | none =>
          refine ⟨a, ?_, .inl rfl, fun _ e he => ?_⟩
          · show w.store.alerts.Replaces w₁.store.alerts a a
            rw [hw₁]
            exact .refl ha
          · rw [hengine] at he
            obtain rfl := Option.some.inj he
            exact hnone rfl
        | some decision =>
          have hwrite := returns_update (w := w₁) henv (.markRemediated a.id t) (id_remediated · t)
            id (fun _ _ hget => ⟨_, update_of_get? hget, rfl⟩) (fun _ _ => rfl) (hw₁ ▸ ha)
          refine hwrite.bind (fun a' w₂ hQ => ⟨remediated t a, ?_, .inr rfl, fun htrue => ?_⟩)
            fun _ _ hQ => hQ.elim
          · rw [← hw₁]
            exact hQ.2
          · unfold AlertEvaluationService.shouldRemediate at htrue
            have hmarked : ((remediated t a).acknowledgedAt.isSome ||
                (remediated t a).remediatedAt.isSome) = true := by simp [remediated]
            rw [hengine, if_neg nofun, if_pos hmarked] at htrue
            cases htrue

end Advance

/-! ## One result -/

/-- The two worlds agree up to their samples. -/
abbrev AgreeElsewhere (w w' : World) : Prop := Agree (fun _ _ => True) w w'

/-- Wherever the tables are the same, applying the result raises and writes nothing. -/
def Refused (env : Environment) (svc : AlertEvaluationService) (nodeId : String)
    (result : RuleEvaluationResult) (t : Datetime) (w : World) : Prop :=
  ∀ w', AgreeElsewhere w w' → Runs (handle env) (fun _ _ => True) (svc.apply nodeId result t) w'
    (Ends (fun _ _ => False) fun _ w'' => Untouched w' w'')

/-- The other keys of the node have the alerts open that they had. -/
def OthersKept (nodeId ruleKey : String) (t t' : AlertTable) : Prop :=
  ∀ k, k ≠ ruleKey → openRow t' nodeId k = openRow t nodeId k

section Apply

variable {env : Environment} {w : World} {svc : AlertEvaluationService} {nodeId : String}
  {result : RuleEvaluationResult} {t : Datetime} {a a' : AlertRecord} {u u' : AlertTable}

theorem isOpen_of_openRow {ruleKey : String} (h : openRow u nodeId ruleKey = some a) :
    isOpen nodeId ruleKey a = true := List.find?_some h

theorem isOpen_of_ne {ruleKey k : String} (h : isOpen nodeId ruleKey a = true) (hk : k ≠ ruleKey) :
    isOpen nodeId k a = false := by
  refine Bool.eq_false_iff.2 fun hopen => hk ?_
  exact (isOpen_eq_true_iff.1 hopen).2.1.symm.trans (isOpen_eq_true_iff.1 h).2.1

/-- A write to the open alert that leaves it open. -/
theorem openRow_of_replaces {ruleKey : String} (h : u.Replaces u' a a')
    (hopen : openRow u nodeId ruleKey = some a) (hopen' : isOpen nodeId ruleKey a' = true) :
    openRow u' nodeId ruleKey = some a' ∧ OthersKept nodeId ruleKey u u' :=
  ⟨h.find?_of_found hopen hopen', fun _ hk =>
    h.find?_of_not (isOpen_of_ne (isOpen_of_openRow hopen) hk) (isOpen_of_ne hopen' hk)⟩

/-- A write that resolves the open alert. -/
theorem openRow_of_resolved {ruleKey : String} (hone : OneFiring u)
    (h : u.Replaces u' a (resolved t a)) (hopen : openRow u nodeId ruleKey = some a) :
    openRow u' nodeId ruleKey = none ∧ OthersKept nodeId ruleKey u u' := by
  have hclosed : ∀ k, isOpen nodeId k (resolved t a) = false := fun k =>
    Bool.eq_false_iff.2 fun hk => nomatch (isOpen_eq_true_iff.1 hk).2.2
  refine ⟨h.find?_of_ended (fun b hb hb' => ?_) (hclosed _), fun k hk =>
    h.find?_of_not (isOpen_of_ne (isOpen_of_openRow hopen) hk) (hclosed k)⟩
  obtain ⟨hnode, hkey, hfiring⟩ := isOpen_eq_true_iff.1 hb'
  obtain ⟨hnode', hkey', hfiring'⟩ := isOpen_eq_true_iff.1 (isOpen_of_openRow hopen)
  exact Table.eq_of_key_eq h.mem hb
    (hone b hb a h.mem hfiring hfiring' (hnode.trans hnode'.symm) (hkey.trans hkey'.symm))

/-- An alert opened where none was open. -/
theorem openRow_insert {ruleKey : String} {mk : ℕ → AlertRecord} {hmk : ∀ n, (mk n).id = n}
    (hnone : openRow u nodeId ruleKey = none) (hopen : isOpen nodeId ruleKey (mk u.next) = true) :
    openRow (u.insert mk hmk) nodeId ruleKey = some (mk u.next) ∧
      OthersKept nodeId ruleKey u (u.insert mk hmk) := by
  unfold openRow at hnone
  refine ⟨?_, fun k hk => ?_⟩
  · unfold openRow
    rw [Table.rows_insert, List.find?_append, hnone, List.find?_singleton, if_pos hopen]
    rfl
  · unfold openRow
    rw [Table.rows_insert, List.find?_append, List.find?_singleton, isOpen_of_ne hopen hk]
    exact Option.or_none

/-- Applying a breach to an alert that says it already. -/
theorem runs_apply_of_written {P : World → Prop} (henv : env.Faultless)
    (hone : OneFiring w.store.alerts) (hopen : openRow w.store.alerts nodeId result.ruleKey = some a)
    (hbreached : result.breached = true) (hwritten : Written svc result t a)
    (hmaybe : svc.shouldEscalate a t = .ok false → ∀ w₁, Untouched w w₁ →
      Runs (handle env) (fun _ _ => True) (svc.maybeRemediate nodeId result t a) w₁
        (Ends (fun _ w₂ => P w₂) fun _ w₂ => Untouched w w₂)) :
    Runs (handle env) (fun _ _ => True) (svc.apply nodeId result t) w
      (Ends (fun _ w₂ => P w₂) fun _ w₂ => Untouched w w₂) := by
  refine (returns_findOpenAlert henv hone).bind ?_ fun _ _ hQ => hQ.elim
  rintro current w₁ ⟨hcurrent, hw₁⟩
  rw [hopen] at hcurrent
  subst hcurrent
  rw [if_pos hbreached]
  refine Runs.andThen (P := fun _ w₂ => P w₂) ?_ fun _ _ h => h
  -- the row is written as it is
  have ha : w₁.store.alerts.get? a.id = some a := by
    rw [hw₁.store]
    exact Table.get?_of_mem (List.mem_of_find?_eq_some hopen)
  have hwrite : Runs (handle env) (fun _ _ => True) (Call.updateLastFired a.id result.value t).perform
      w₁ (Ends (fun r w₂ => r = a ∧ Untouched w w₂) fun _ _ => False) := by
    refine Call.runs_perform (fun e he => ?_) fun _ => ⟨trivial, ?_⟩
    · rw [henv] at he
      cases he
    · have hrow : (exec (env.scan w₁.calls) (.updateLastFired a.id result.value t) w₁.store).1 =
          .ok (advanced result.value t a) := update_of_get? ha
      rw [hrow, hwritten.advanced]
      refine ⟨rfl, hw₁.trans ?_⟩
      have hstore : (exec (env.scan w₁.calls) (.updateLastFired a.id result.value t) w₁.store).2 =
          w₁.store := by
        refine (update_alerts ..).trans ?_
        rw [Table.modify_of_eq_self ha hwritten.advanced]
      unfold Untouched World.after
      simp only [hstore, Call.message, Call.audit, Option.toList_none, List.append_nil]
  refine hwrite.bind ?_ fun _ _ hQ => hQ.elim
  rintro a₁ w₂ ⟨ha₁, hw₂⟩
  rw [ha₁]
  unfold AlertEvaluationService.maybeEscalate
  cases hdue : svc.shouldEscalate a t with
  | error e => exact hw₂
  | ok due =>
    cases due with
    | true => exact absurd hdue hwritten.calm
    | false => exact hmaybe hdue w₂ hw₂

/-- A result that has been applied is applied again without effect. -/
theorem untouched_apply (henv : env.Faultless) (hone : OneFiring w.store.alerts)
    (happlied : Applied svc result t (openRow w.store.alerts nodeId result.ruleKey)) :
    Runs (handle env) (fun _ _ => True) (svc.apply nodeId result t) w fun _ w' => Untouched w w' := by
  cases hopen : openRow w.store.alerts nodeId result.ruleKey with
  | none =>
    rw [hopen] at happlied
    have hbreached : ¬ result.breached = true := Bool.eq_false_iff.1 happlied
    refine (returns_findOpenAlert henv hone).bind ?_ fun _ _ hQ => hQ.elim
    rintro current w₁ ⟨hcurrent, hw₁⟩
    rw [hopen] at hcurrent
    subst hcurrent
    rw [if_neg hbreached]
    exact hw₁
  | some a =>
    rw [hopen] at happlied
    obtain ⟨hbreached, hwritten, hdecided⟩ := happlied
    refine (runs_apply_of_written (P := Untouched w) henv hone hopen hbreached hwritten ?_).post ?_
    · intro _ w₁ hw₁
      unfold AlertEvaluationService.maybeRemediate
      cases hdue : svc.shouldRemediate a t with
      | error e => exact hw₁
      | ok due =>
        rcases due, hengine : svc.remediationEngine with ⟨_ | _, _ | engine⟩
        · exact hw₁
        · exact hw₁
        · exact hw₁
        · rw [lift_ok, pure_bind']
          dsimp only
          rw [(hdecided hdue engine (Option.mem_def.2 hengine)).decide_eq]
          exact hw₁
    · rintro (e | r) w' hQ
      · exact hQ
      · exact hQ

/-- If a decision about the alert raises, it raises wherever the tables are the same. -/
theorem runs_maybeRemediate_refused (henv : env.Faultless) {w' : World} (h : AgreeElsewhere w w')
    (ha : a ∈ w.store.alerts.rows) {e : PyError}
    (hraised : ((svc.maybeRemediate nodeId result t a).run (handle env) w).1 = .error e) :
    Runs (handle env) (fun _ _ => True) (svc.maybeRemediate nodeId result t a) w'
      (Ends (fun _ _ => False) fun _ w'' => Untouched w' w'') := by
  have hsame : Same (fun _ _ => True) env env (svc.maybeRemediate nodeId result t a) w w' :=
    AlertEvaluationService.same_maybeRemediate henv henv h result a
  have hraised' := hsame.error hraised
  have ha' : a ∈ w'.store.alerts.rows := h.alerts ▸ ha
  have hagain := Runs.run (p := svc.maybeRemediate nodeId result t a)
    (runs_maybeRemediate_again henv ha')
  refine runs_of_run ?_
  rw [hraised'] at hagain ⊢
  exact hagain

/-- The age of the alert cannot be computed. -/
theorem refused_of_escalation (henv : env.Faultless)
    (hopen : openRow w.store.alerts nodeId result.ruleKey = some a)
    (hbreached : result.breached = true) (hsaid : advanced result.value t a = a) {e : PyError}
    (hraised : svc.shouldEscalate a t = .error e) : Refused env svc nodeId result t w := by
  intro w' h
  have hone' : OneFiring w'.store.alerts := h.alerts ▸ h.oneFiring
  have hwritten : Written svc result t a := ⟨hsaid, by rw [hraised]; exact nofun⟩
  refine runs_apply_of_written henv hone' (h.alerts ▸ hopen) hbreached hwritten fun hdue => ?_
  rw [hraised] at hdue
  cases hdue

/-- The decision about the alert cannot be made. -/
theorem refused_of_decision (henv : env.Faultless)
    (hopen : openRow w.store.alerts nodeId result.ruleKey = some a)
    (hbreached : result.breached = true) (hwritten : Written svc result t a) {w₁ : World}
    (hw₁ : Untouched w w₁) {e : PyError}
    (hraised : ((svc.maybeRemediate nodeId result t a).run (handle env) w).1 = .error e) :
    Refused env svc nodeId result t w₁ := by
  intro w' h
  have hagree : AgreeElsewhere w w' := h.untouched hw₁.symm (.refl w')
  have hone' : OneFiring w'.store.alerts := h.alerts ▸ h.oneFiring
  refine runs_apply_of_written henv hone' (hagree.alerts ▸ hopen) hbreached hwritten ?_
  intro _ w₁' hw₁'
  refine (runs_maybeRemediate_refused henv (hagree.untouched (.refl w) hw₁')
    (List.mem_of_find?_eq_some hopen) hraised).post ?_
  rintro (e' | r) w₂' hQ
  · exact hw₁'.trans hQ
  · exact hQ

/-- What one result leaves: it has been applied, or it is refused from now on. -/
abbrev AppliedOrRefused {α : Type} (env : Environment) (svc : AlertEvaluationService)
    (nodeId : String) (result : RuleEvaluationResult) (t : Datetime) (p : Repo α) (w : World) :
    Prop :=
  Runs (handle env) (fun _ _ => True) p w (Ends
    (fun _ w' => Applied svc result t (openRow w'.store.alerts nodeId result.ruleKey) ∧
      OthersKept nodeId result.ruleKey w.store.alerts w'.store.alerts)
    fun _ w' => Refused env svc nodeId result t w' ∧
      OthersKept nodeId result.ruleKey w.store.alerts w'.store.alerts)

/-- A breach, applied to the open alert. -/
theorem appliedOrRefused_advance (henv : env.Faultless)
    (hopen : openRow w.store.alerts nodeId result.ruleKey = some a)
    (hbreached : result.breached = true) :
    AppliedOrRefused env svc nodeId result t (svc.openOrAdvance nodeId result t (some a)) w := by
  have hisOpen : isOpen nodeId result.ruleKey a = true := isOpen_of_openRow hopen
  have hwrite := returns_update (w := w) henv (.updateLastFired a.id result.value t)
    (id_advanced · result.value t) id (fun _ _ hget => ⟨_, update_of_get? hget, rfl⟩)
    (fun _ _ => rfl) (List.mem_of_find?_eq_some hopen)
  refine hwrite.bind (fun a₁ w₁ hQ => ?_) fun _ _ hQ => hQ.elim
  obtain ⟨rfl, h₁⟩ := hQ
  refine (runs_maybeEscalate_again henv h₁.mem_after).bind ?_ ?_
  · rintro a₂ w₂ ⟨h₂, ha₂, hcalm, -⟩
    have hisOpen₂ : isOpen nodeId result.ruleKey a₂ = true := by
      obtain rfl | rfl := ha₂ <;> exact hisOpen
    have hwritten₂ : Written svc result t a₂ := by
      refine ⟨?_, by rw [hcalm]; exact nofun⟩
      obtain rfl | rfl := ha₂ <;> rfl
    have hmaybe := Runs.run (p := svc.maybeRemediate nodeId result t a₂)
      (runs_maybeRemediate_again henv h₂.mem_after)
    refine runs_of_run ?_
    cases hend : ((svc.maybeRemediate nodeId result t a₂).run (handle env) w₂).1 with
    | error e =>
      rw [hend] at hmaybe
      have hw₃ : Untouched w₂ _ := hmaybe
      obtain ⟨hopen₂, hothers⟩ := openRow_of_replaces (h₁.trans h₂) hopen hisOpen₂
      refine ⟨refused_of_decision henv hopen₂ hbreached hwritten₂ hw₃ hend, ?_⟩
      rw [hw₃.store]
      exact hothers
    | ok r =>
      rw [hend] at hmaybe
      obtain ⟨a₃, h₃, ha₃, hdecided⟩ := hmaybe
      have hisOpen₃ : isOpen nodeId result.ruleKey a₃ = true := by
        obtain rfl | rfl := ha₃ <;> exact hisOpen₂
      have hwritten₃ : Written svc result t a₃ := by
        obtain rfl | rfl := ha₃
        · exact hwritten₂
        · exact ⟨congrArg (remediated t) hwritten₂.advanced, hwritten₂.calm⟩
      obtain ⟨hopen₃, hothers⟩ := openRow_of_replaces ((h₁.trans h₂).trans h₃) hopen hisOpen₃
      refine ⟨?_, hothers⟩
      rw [hopen₃]
      exact ⟨hbreached, hwritten₃, hdecided⟩
  · rintro e _ ⟨rfl, hraised⟩
    obtain ⟨hopen₁, hothers⟩ := openRow_of_replaces h₁ hopen hisOpen
    exact ⟨refused_of_escalation henv hopen₁ hbreached rfl hraised, hothers⟩

/-- A breach that opens an alert. -/
theorem appliedOrRefused_open (henv : env.Faultless)
    (hescalation : 0 < svc.escalationAfterSeconds)
    (hremediation : 0 < svc.remediationAfterSeconds)
    (hnone : openRow w.store.alerts nodeId result.ruleKey = none)
    (hbreached : result.breached = true) :
    AppliedOrRefused env svc nodeId result t (svc.openOrAdvance nodeId result t none) w := by
  let row := newAlert nodeId result.ruleKey result.ruleKind result.severity result.description
    result.value result.bound t
  have hopen : isOpen nodeId result.ruleKey (row w.store.alerts.next) = true :=
    isOpen_eq_true_iff.2 ⟨rfl, rfl, rfl⟩
  have hrow : ∀ n, (row n).id = n := fun _ => id_newAlert ..
  obtain ⟨hopen₁, hothers⟩ : openRow (w.store.alerts.insert row hrow) nodeId result.ruleKey =
      some (row w.store.alerts.next) ∧
        OthersKept nodeId result.ruleKey w.store.alerts (w.store.alerts.insert row hrow) :=
    openRow_insert hnone hopen
  unfold AlertEvaluationService.openOrAdvance
  refine (returns_openAlert_insert henv result).bind (fun a w₂ hw₂ => ?_) fun _ _ hQ => hQ.elim
  have halerts : w₂.store.alerts = w.store.alerts.insert row hrow := hw₂
  show Applied svc result t (openRow w₂.store.alerts nodeId result.ruleKey) ∧ _
  rw [halerts, hopen₁]
  refine ⟨⟨hbreached, ⟨rfl, ?_⟩, fun hdue => ?_⟩, hothers⟩
  · exact ageReaches_opened hescalation rfl
  · unfold AlertEvaluationService.shouldRemediate at hdue
    split_ifs at hdue
    · cases hdue
    · cases hdue
    · exact absurd hdue (ageReaches_opened hremediation rfl)

/-- Any result. -/
theorem appliedOrRefused_apply (henv : env.Faultless) (hone : OneFiring w.store.alerts)
    (hescalation : 0 < svc.escalationAfterSeconds)
    (hremediation : 0 < svc.remediationAfterSeconds) :
    AppliedOrRefused env svc nodeId result t (svc.apply nodeId result t) w := by
  refine (returns_findOpenAlert henv hone).bind ?_ fun _ _ hQ => hQ.elim
  rintro current w₁ ⟨hcurrent, hw₁⟩
  rw [← hw₁.store] at hcurrent ⊢
  split_ifs with hbreached
  · refine Runs.andThen ?_ fun _ _ h => h
    cases current with
    | none => exact appliedOrRefused_open henv hescalation hremediation hcurrent.symm hbreached
    | some a => exact appliedOrRefused_advance henv hcurrent.symm hbreached
  · have hhealthy : result.breached = false := Bool.eq_false_iff.2 hbreached
    cases current with
    | none =>
      refine ⟨?_, fun _ _ => rfl⟩
      rw [← hcurrent]
      exact hhealthy
    | some a =>
      refine Runs.andThen ?_ fun _ _ h => h
      have hwrite := returns_update (w := w₁) henv (.resolveAlert a.id t) (id_resolved · t) id
        (fun _ _ hget => ⟨_, update_of_get? hget, rfl⟩) (fun _ _ => rfl)
        (List.mem_of_find?_eq_some hcurrent.symm)
      refine hwrite.bind (fun a' w₂ hQ => ?_) fun _ _ hQ => hQ.elim
      refine (returns_notify henv _).bind (fun _ w₃ hw₃ => ?_) fun _ _ hQ => hQ.elim
      have halerts : w₃.store.alerts = w₂.store.alerts := hw₃
      have hone₁ : OneFiring w₁.store.alerts := hw₁.store ▸ hone
      obtain ⟨hopen, hothers⟩ := openRow_of_resolved hone₁ hQ.2 hcurrent.symm
      show Applied svc result t (openRow w₃.store.alerts nodeId result.ruleKey) ∧ _
      rw [halerts, hopen]
      exact ⟨hhealthy, hothers⟩

end Apply

/-! ## A list of results -/

/-- The results up to the first that is refused have been applied. -/
def Spent (env : Environment) (svc : AlertEvaluationService) (nodeId : String) (t : Datetime)
    (w : World) : List RuleEvaluationResult → Prop
  | [] => True
  | result :: results => Refused env svc nodeId result t w ∨
    Applied svc result t (openRow w.store.alerts nodeId result.ruleKey) ∧
      Spent env svc nodeId t w results

section Results

variable {env : Environment} {svc : AlertEvaluationService} {nodeId : String} {t : Datetime}

theorem oneFiring_apply (henv : env.Faultless) {w : World} (hone : OneFiring w.store.alerts)
    (result : RuleEvaluationResult) :
    OneFiring ((svc.apply nodeId result t).run (handle env) w).2.store.alerts :=
  (AlertEvaluationService.same_apply (S := fun _ _ => True) henv henv (.refl hone trivial)
    result).oneFiring

theorem runs_applyNext (henv : env.Faultless) (hescalation : 0 < svc.escalationAfterSeconds)
    (hremediation : 0 < svc.remediationAfterSeconds) {w : World} (hone : OneFiring w.store.alerts)
    (outcome : EvaluationOutcome) (result : RuleEvaluationResult) :
    Runs (handle env) (fun _ _ => True) (svc.applyNext nodeId t outcome result) w (Ends
      (fun _ w₁ => OneFiring w₁.store.alerts ∧
        Applied svc result t (openRow w₁.store.alerts nodeId result.ruleKey) ∧
        OthersKept nodeId result.ruleKey w.store.alerts w₁.store.alerts)
      fun _ w₁ => Refused env svc nodeId result t w₁ ∧
        OthersKept nodeId result.ruleKey w.store.alerts w₁.store.alerts) := by
  have happly := Runs.run (p := svc.apply nodeId result t)
    (appliedOrRefused_apply henv hone hescalation hremediation)
  have hone₁ : OneFiring ((svc.apply nodeId result t).run (handle env) w).2.store.alerts :=
    oneFiring_apply henv hone result
  refine Runs.andThen (runs_of_run ?_) fun _ _ h => h
  cases hend : ((svc.apply nodeId result t).run (handle env) w).1 with
  | ok r =>
    rw [hend] at happly
    exact ⟨hone₁, happly⟩
  | error e =>
    rw [hend] at happly
    exact happly

/-- Results with different keys are spent once they have been applied. -/
theorem spent_applyAll (henv : env.Faultless) (hescalation : 0 < svc.escalationAfterSeconds)
    (hremediation : 0 < svc.remediationAfterSeconds) :
    ∀ (results : List RuleEvaluationResult) (outcome : EvaluationOutcome) (w : World),
      (results.map RuleEvaluationResult.ruleKey).Nodup → OneFiring w.store.alerts →
      Runs (handle env) (fun _ _ => True) (results.foldlM (svc.applyNext nodeId t) outcome) w
        fun _ w' => Spent env svc nodeId t w' results ∧
          ∀ k, k ∉ results.map RuleEvaluationResult.ruleKey →
            openRow w'.store.alerts nodeId k = openRow w.store.alerts nodeId k
  | [], _, _, _, _ => ⟨trivial, fun _ _ => rfl⟩
  | result :: results, outcome, w, hkeys, hone => by
    rw [List.map_cons, List.nodup_cons] at hkeys
    rw [List.foldlM_cons]
    refine (runs_applyNext henv hescalation hremediation hone outcome result).bind ?_ ?_
    · rintro outcome₁ w₁ ⟨hone₁, happlied, hothers⟩
      refine (spent_applyAll henv hescalation hremediation results outcome₁ w₁ hkeys.2 hone₁).post ?_
      rintro r w' ⟨hspent, hkept⟩
      refine ⟨.inr ⟨?_, hspent⟩, fun k hk => ?_⟩
      · rw [hkept _ hkeys.1]
        exact happlied
      · rw [List.map_cons, List.mem_cons, not_or] at hk
        exact (hkept k hk.2).trans (hothers k hk.1)
    · rintro e w₁ ⟨hrefused, hothers⟩
      refine ⟨.inl hrefused, fun k hk => hothers k fun heq => hk ?_⟩
      rw [heq, List.map_cons]
      exact List.mem_cons_self

/-- Spent results have no effect. -/
theorem untouched_applyAll (henv : env.Faultless) {w : World} :
    ∀ (results : List RuleEvaluationResult) (outcome : EvaluationOutcome) (w' : World),
      Spent env svc nodeId t w results → AgreeElsewhere w w' →
      Runs (handle env) (fun _ _ => True) (results.foldlM (svc.applyNext nodeId t) outcome) w'
        fun _ w'' => Untouched w' w''
  | [], _, w', _, _ => Untouched.refl w'
  | result :: results, outcome, w', hspent, h => by
    rw [List.foldlM_cons]
    obtain hrefused | ⟨happlied, hspent⟩ := hspent
    · have hnext : Runs (handle env) (fun _ _ => True) (svc.applyNext nodeId t outcome result) w'
          (Ends (fun _ _ => False) fun _ w'' => Untouched w' w'') :=
        (hrefused w' h).andThen fun _ _ hQ => hQ.elim
      exact hnext.bind (fun _ _ hQ => hQ.elim) fun _ _ hQ => hQ
    · have hone' : OneFiring w'.store.alerts := h.alerts ▸ h.oneFiring
      have hnext : Runs (handle env) (fun _ _ => True) (svc.applyNext nodeId t outcome result) w'
          fun _ w₁ => Untouched w' w₁ :=
        (untouched_apply henv hone' (h.alerts ▸ happlied)).bind (fun _ _ hQ => hQ) fun _ _ hQ => hQ
      refine hnext.bind (fun outcome₁ w₁ hw₁ => ?_) fun _ _ hQ => hQ
      refine (untouched_applyAll henv results outcome₁ w₁ hspent
        (h.untouched (.refl w) hw₁)).post ?_
      exact fun _ _ hw₂ => Untouched.trans hw₁ hw₂

end Results

end ClusterPulse
