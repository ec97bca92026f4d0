import ClusterPulse.Proof.Reapplied

/-!
# Where applying a result raises

With a database that does not fail, applying a rule result raises in one place only: at an open alert
that a breach advances.  There the age checks subtract a stored instant from `collected_at`, which a
naive `collected_at` does not allow, and a decision that gets to the rate limit subtracts an hour,
which a `collected_at` in the first hour of the year 1 does not allow.  `Raising` is the condition on
the row of the alert and on the audit log, and `runs_apply` says what becomes of it.
-/

namespace ClusterPulse

open AlertRepository Prog

/-- A decision for the playbook is blocked by the cooldown. -/
def RemediationEngine.Cooling (e : RemediationEngine) (nodeId playbookName : String) (t : Datetime)
    (u : ActionTable) : Prop :=
  ∃ x ∈ u.rows, x.nodeId = nodeId ∧ x.playbookName = playbookName ∧
    Timedelta.totalSeconds (t.instant - x.createdAt) < e.cooldownSeconds

/-- A decision for the rule key gets to the rate limit. -/
def RemediationEngine.ReachesRateLimit (e : RemediationEngine) (nodeId ruleKey : String)
    (t : Datetime) (u : ActionTable) : Prop :=
  e.enabled = true ∧ ∃ playbook, e.byRuleKey? ruleKey = some playbook ∧
    ¬ e.Cooling nodeId playbook.playbookName t u

/-- The hour before is out of range. -/
def HourOverflows (t : Datetime) : Prop := ∃ e, t.minus Timedelta.hour = .error e

/-- A breach that finds the alert open raises. -/
inductive Raising (svc : AlertEvaluationService) (nodeId ruleKey : String) (t : Datetime)
    (u : ActionTable) (a : AlertRecord) : Prop
  | escalation (e : PyError) (h : svc.shouldEscalate a t = .error e)
  | remediation (e : PyError) (h : svc.shouldRemediate a t = .error e)
  | rateLimit (engine : RemediationEngine) (hdue : svc.shouldRemediate a t = .ok true)
    (hengine : svc.remediationEngine = some engine)
    (hreaches : engine.ReachesRateLimit nodeId ruleKey t u) (hoverflows : HourOverflows t)

/-- Nothing raises at a timely `collected_at`. -/
theorem Timely.not_raising {svc : AlertEvaluationService} {nodeId ruleKey : String} {t : Datetime}
    {u : ActionTable} {a : AlertRecord} (ht : Timely t) : ¬ Raising svc nodeId ruleKey t u a := by
  rintro (⟨e, h⟩ | ⟨e, h⟩ | ⟨engine, -, -, -, e, h⟩)
  · obtain ⟨b, hb⟩ := ht.shouldEscalate svc a
    cases hb.symm.trans h
  · obtain ⟨b, hb⟩ := ht.shouldRemediate svc a
    cases hb.symm.trans h
  · obtain ⟨since, hsince⟩ := ht.hour
    cases hsince.symm.trans h

/-! ## Decisions -/

section Decisions

variable {env : Environment} {w : World} {svc : AlertEvaluationService} {nodeId ruleKey : String}
  {t : Datetime} {u u' : ActionTable} {a : AlertRecord}

/-- What the last action for the playbook tells of the cooldown. -/
theorem RemediationEngine.cooling_iff (e : RemediationEngine) {scan : Scan} {σ : Store}
    {playbookName : String} {last : Option RemediationActionRecord}
    (hlast : RemediationActionRepository.findLastAction scan σ nodeId playbookName = last) :
    e.Cooling nodeId playbookName t σ.remediationActions ↔
      ∃ x ∈ last, Timedelta.totalSeconds (t.instant - x.createdAt) < e.cooldownSeconds := by
  have hmem : ∀ x, x ∈ (reorder scan σ.remediationActions.rows).filter
      (fun a => a.nodeId == nodeId && a.playbookName == playbookName) ↔
      x ∈ σ.remediationActions.rows ∧ x.nodeId = nodeId ∧ x.playbookName = playbookName := by
    intro x
    rw [List.mem_filter, mem_reorder, Bool.and_eq_true, beq_iff_eq, beq_iff_eq]
  cases last with
  | none =>
    have hempty := latest_eq_none_iff.1 hlast
    refine iff_of_false ?_ fun ⟨_, hx, _⟩ => absurd hx (Option.not_mem_none _)
    rintro ⟨x, hx, hnode, hname, -⟩
    have hx' := (hmem x).2 ⟨hx, hnode, hname⟩
    rw [hempty] at hx'
    cases hx'
  | some last =>
    obtain ⟨hrow, hnode, hname⟩ := (hmem last).1 (mem_of_latest hlast)
    constructor
    · rintro ⟨x, hx, hxnode, hxname, helapsed⟩
      refine ⟨last, rfl, Double.lt_of_le_of_lt (Timedelta.totalSeconds_mono ?_) helapsed⟩
      have hle : x.createdAt ≤ last.createdAt := le_of_latest hlast ((hmem x).2 ⟨hx, hxnode, hxname⟩)
      exact sub_le_sub_left hle _
    · rintro ⟨x, hx, helapsed⟩
      obtain rfl := Option.some.inj hx
      exact ⟨_, hrow, hnode, hname, helapsed⟩

/-- A decision that the cooldown blocks leaves the cooldown as it is. -/
theorem RemediationEngine.cooling_insert {e : RemediationEngine} {playbookName : String}
    (hcooling : e.Cooling nodeId playbookName t u) {action : RemediationActionRecord}
    (hrows : u'.rows = u.rows ++ [action]) (hname : action.playbookName = playbookName)
    (name : String) : e.Cooling nodeId name t u' ↔ e.Cooling nodeId name t u := by
  unfold Cooling
  rw [hrows]
  constructor
  · rintro ⟨x, hx, hxnode, hxname, helapsed⟩
    obtain hx | hx := List.mem_append.1 hx
    · exact ⟨x, hx, hxnode, hxname, helapsed⟩
    · obtain rfl := List.mem_singleton.1 hx
      obtain rfl : playbookName = name := hname.symm.trans hxname
      exact hcooling
  · rintro ⟨x, hx, hrest⟩
    exact ⟨x, List.mem_append_left _ hx, hrest⟩

/-- A query. -/
theorem Call.returns_read (henv : env.Faultless) {c : Call} (hc : c.IsRead) {r : c.Res}
    (hr : (exec (env.scan w.calls) c w.store).1 = .ok r) :
    Returns env c.perform w fun r' w' => r' = r ∧ Untouched w w' := by
  refine Call.runs_perform (fun e he => ?_) fun hok => ⟨trivial, ?_⟩
  · rw [henv] at he
    cases he
  · have huntouched := untouched_handle env hc w
    rw [handle_of_ok hok] at huntouched
    rw [hr]
    exact ⟨rfl, huntouched⟩

/-- Checking the safety limits raises exactly if it gets to a rate limit that overflows. -/
theorem RemediationEngine.runs_checkSafetyLimits_raising (henv : env.Faultless)
    (haware : t.utcoffset.isSome) (e : RemediationEngine) (playbook : PlaybookDefinition) :
    Runs (handle env) (fun _ _ => True) (e.checkSafetyLimits nodeId playbook t) w (Ends
      (fun _ w' => Untouched w w' ∧ (HourOverflows t →
        e.Cooling nodeId playbook.playbookName t w.store.remediationActions))
      fun _ w' => Untouched w w' ∧ HourOverflows t ∧
        ¬ e.Cooling nodeId playbook.playbookName t w.store.remediationActions) := by
  have hrate : ∀ w₁, Untouched w w₁ →
      ¬ e.Cooling nodeId playbook.playbookName t w.store.remediationActions →
      Runs (handle env) (fun _ _ => True) (e.checkRateLimit nodeId t) w₁ (Ends
        (fun _ w' => Untouched w w' ∧ (HourOverflows t →
          e.Cooling nodeId playbook.playbookName t w.store.remediationActions))
        fun _ w' => Untouched w w' ∧ HourOverflows t ∧
          ¬ e.Cooling nodeId playbook.playbookName t w.store.remediationActions) := by
    intro w₁ hw₁ hcool
    unfold RemediationEngine.checkRateLimit
    cases hhour : t.minus Timedelta.hour with
    | error err => exact ⟨hw₁, ⟨err, hhour⟩, hcool⟩
    | ok since =>
      have hfits : ¬ HourOverflows t := fun ⟨err, herr⟩ => by cases hhour.symm.trans herr
      rw [lift_ok, pure_bind']
      refine (Call.returns_read henv (c := .countRecentActions nodeId since) trivial rfl).bind ?_
        fun _ _ h => h.elim
      rintro count w₂ ⟨-, hw₂⟩
      split_ifs
      · exact ⟨hw₁.trans hw₂, fun h => absurd h hfits⟩
      · exact ⟨hw₁.trans hw₂, fun h => absurd h hfits⟩
  unfold RemediationEngine.checkSafetyLimits
  refine (Call.returns_read henv (c := .findLastAction nodeId playbook.playbookName) trivial
    rfl).bind ?_ fun _ _ h => h.elim
  rintro last w₁ ⟨hlast, hw₁⟩
  have hcooling := e.cooling_iff (t := t) hlast.symm
  cases last with
  | none => exact hrate w₁ hw₁ fun h => absurd (hcooling.1 h) (by simp)
  | some last =>
    have helapsed : elapsedSince t (some last) =
        .ok (some (Timedelta.totalSeconds (t.instant - last.createdAt))) := by
      obtain ⟨o, ho⟩ := Option.isSome_iff_exists.1 haware
      simp only [elapsedSince, Datetime.since, ho]
      rfl
    rw [helapsed, lift_ok, pure_bind']
    dsimp only
    split_ifs with hcool
    · exact ⟨hw₁, fun _ => hcooling.2 ⟨last, rfl, hcool⟩⟩
    · refine hrate w₁ hw₁ fun h => hcool ?_
      obtain ⟨x, hx, hx'⟩ := hcooling.1 h
      obtain rfl := Option.some.inj hx
      exact hx'

/-- A decision raises exactly if it gets to a rate limit that overflows.  If it overflows and the
decision does not raise, then the cooldown blocks what it blocked. -/
theorem RemediationEngine.runs_decide_raising (henv : env.Faultless) (haware : t.utcoffset.isSome)
    (e : RemediationEngine) (alertId : ℕ) :
    Runs (handle env) (fun _ _ => True) (e.decide nodeId alertId ruleKey t) w (Ends
      (fun decision w' => w'.store.alerts = w.store.alerts ∧ (decision = none → e.Idle ruleKey) ∧
        ¬ (HourOverflows t ∧ e.ReachesRateLimit nodeId ruleKey t w.store.remediationActions) ∧
        (HourOverflows t → ∀ name, e.Cooling nodeId name t w'.store.remediationActions ↔
          e.Cooling nodeId name t w.store.remediationActions))
      fun _ w' => w'.store.alerts = w.store.alerts ∧
        w'.store.remediationActions = w.store.remediationActions ∧
        HourOverflows t ∧ e.ReachesRateLimit nodeId ruleKey t w.store.remediationActions) := by
  unfold RemediationEngine.decide
  split_ifs with henabled
  swap
  · exact ⟨rfl, fun _ => .inl (Bool.eq_false_iff.2 henabled), fun h => henabled h.2.1,
      fun _ _ => Iff.rfl⟩
  cases hplaybook : e.byRuleKey? ruleKey with
  | none =>
    refine ⟨rfl, fun _ => .inr hplaybook, ?_, fun _ _ => Iff.rfl⟩
    rintro ⟨-, -, playbook, h, -⟩
    cases hplaybook.symm.trans h
  | some playbook =>
    refine (e.runs_checkSafetyLimits_raising henv haware playbook).bind ?_ ?_
    · rintro reason w₁ ⟨hw₁, hcooling⟩
      let c : Call := .createAction nodeId alertId ruleKey playbook.playbookName playbook.actionType
        playbook.parameters (statusFor reason) reason t
      refine (Call.returns_exec (w := w₁) henv c fun _ => ⟨_, rfl⟩).bind ?_ fun _ _ h => h.elim
      rintro action w₂ ⟨scan, -, hw₂⟩
      refine ⟨?_, nofun, ?_, fun hoverflows name => ?_⟩
      · rw [hw₂, ← hw₁.store]
        rfl
      · rintro ⟨hoverflows, -, playbook', hplaybook', hcool⟩
        obtain rfl := Option.some.inj (hplaybook.symm.trans hplaybook')
        exact hcool (hcooling hoverflows)
      · have hcooling₁ := hcooling hoverflows
        rw [← hw₁.store] at hcooling₁
        have hrows : w₂.store.remediationActions.rows = w₁.store.remediationActions.rows ++
            [RemediationActionRepository.newAction nodeId alertId ruleKey playbook.playbookName
              playbook.actionType playbook.parameters (statusFor reason) reason t
              w₁.store.remediationActions.next] := by
          rw [hw₂]
          rfl
        rw [← hw₁.store]
        exact cooling_insert hcooling₁ hrows rfl name
    · rintro err w₁ ⟨hw₁, hoverflows, hcool⟩
      exact ⟨congrArg Store.alerts hw₁.store, congrArg Store.remediationActions hw₁.store,
        hoverflows, henabled, playbook, hplaybook, hcool⟩

end Decisions

/-! ## One alert -/

/-- The call leaves the audit log alone. -/
def Call.KeepsActions (c : Call) : Prop := ∀ scan σ, c.actions scan σ = σ.remediationActions

theorem Call.IsLifecycle.keepsActions {c : Call} (hc : c.IsLifecycle) : c.KeepsActions := by
  intro scan σ
  cases c with
  | createAction | markResult | pruneTerminalBefore => exact hc.elim
  | _ => rfl

theorem runs_keepsActions {α : Type} {env : Environment} {p : Repo α}
    (hp : Only Call.KeepsActions p) (w : World) : Runs (handle env) (fun _ _ => True) p w
      fun _ w' => w'.store.remediationActions = w.store.remediationActions := by
  refine hp.runs (fun w' : World => w'.store.remediationActions = w.store.remediationActions)
    (fun c w' hc hw' => ?_) rfl
  rcases handle_cases env c w' with ⟨e, -, heq⟩ | ⟨-, heq⟩ <;> rw [heq]
  · exact hw'
  · rw [World.after_actions, hc]
    exact hw'

/-- What the loop over the results does, if it goes on. -/
inductive Applies (svc : AlertEvaluationService) (nodeId : String) (t : Datetime)
    (result : RuleEvaluationResult) (σ σ' : Store) : Option AlertRecord → Prop
  | opened (hbreached : result.breached = true)
    (halerts : σ'.alerts = σ.alerts.insert (newAlert nodeId result.ruleKey result.ruleKind
      result.severity result.description result.value result.bound t) fun _ => id_newAlert ..)
    (hactions : σ'.remediationActions = σ.remediationActions) : Applies svc nodeId t result σ σ' none
  | idle (hbreached : result.breached = false) (halerts : σ'.alerts = σ.alerts)
    (hactions : σ'.remediationActions = σ.remediationActions) : Applies svc nodeId t result σ σ' none
  | resolved (a : AlertRecord) (hbreached : result.breached = false)
    (halerts : σ.alerts.Replaces σ'.alerts a (resolved t a))
    (hactions : σ'.remediationActions = σ.remediationActions) :
    Applies svc nodeId t result σ σ' (some a)
  | advanced (a a' : AlertRecord) (hbreached : result.breached = true)
    (halerts : σ.alerts.Replaces σ'.alerts a a')
    (hmasked : a'.masked = (advanced result.value t a).masked)
    (hquiet : ¬ Raising svc nodeId result.ruleKey t σ.remediationActions a)
    (hquiet' : ¬ Raising svc nodeId result.ruleKey t σ'.remediationActions a')
    (hactions : ∀ ruleKey b, Raising svc nodeId ruleKey t σ'.remediationActions b ↔
      Raising svc nodeId ruleKey t σ.remediationActions b) : Applies svc nodeId t result σ σ' (some a)

/-- What it does, if it ends here. -/
inductive Interrupts (svc : AlertEvaluationService) (nodeId : String) (t : Datetime)
    (result : RuleEvaluationResult) (σ σ' : Store) : Option AlertRecord → Prop
  | raised (a a' : AlertRecord) (hbreached : result.breached = true)
    (halerts : σ.alerts.Replaces σ'.alerts a a')
    (hmasked : a'.masked = (AlertRepository.advanced result.value t a).masked)
    (hraising : Raising svc nodeId result.ruleKey t σ.remediationActions a) :
    Interrupts svc nodeId t result σ σ' (some a)

section Apply

variable {env : Environment} {w : World} {svc : AlertEvaluationService} {nodeId ruleKey : String}
  {t : Datetime} {u u' : ActionTable} {a a' : AlertRecord} {result : RuleEvaluationResult}

/-- Only the columns that the age checks read count. -/
theorem Raising.congr (hescalate : svc.shouldEscalate a' t = svc.shouldEscalate a t)
    (hremediate : svc.shouldRemediate a' t = svc.shouldRemediate a t)
    (hcooling : HourOverflows t → ∀ e ∈ svc.remediationEngine, ∀ name,
      e.Cooling nodeId name t u' ↔ e.Cooling nodeId name t u) :
    Raising svc nodeId ruleKey t u' a' ↔ Raising svc nodeId ruleKey t u a := by
  constructor
  · rintro (⟨e, h⟩ | ⟨e, h⟩ | ⟨engine, hdue, hengine, ⟨henabled, playbook, hplaybook, hcool⟩, hover⟩)
    · exact .escalation e (hescalate ▸ h)
    · exact .remediation e (hremediate ▸ h)
    · refine .rateLimit engine (hremediate ▸ hdue) hengine ⟨henabled, playbook, hplaybook, ?_⟩ hover
      rwa [hcooling hover engine hengine] at hcool
  · rintro (⟨e, h⟩ | ⟨e, h⟩ | ⟨engine, hdue, hengine, ⟨henabled, playbook, hplaybook, hcool⟩, hover⟩)
    · exact .escalation e (hescalate ▸ h)
    · exact .remediation e (hremediate ▸ h)
    · refine .rateLimit engine (hremediate ▸ hdue) hengine ⟨henabled, playbook, hplaybook, ?_⟩ hover
      rwa [hcooling hover engine hengine]

theorem runs_maybeEscalate_raising (henv : env.Faultless) (ha : a ∈ w.store.alerts.rows) :
    Runs (handle env) (fun _ _ => True) (svc.maybeEscalate t a) w (Ends
      (fun a' w' => w.store.alerts.Replaces w'.store.alerts a a' ∧ a'.masked = a.masked ∧
        svc.shouldEscalate a' t = .ok false ∧ svc.shouldRemediate a' t = svc.shouldRemediate a t ∧
        (∃ due, svc.shouldEscalate a t = .ok due) ∧
        w'.store.remediationActions = w.store.remediationActions)
      fun e w' => w' = w ∧ svc.shouldEscalate a t = .error e) := by
  refine ((runs_maybeEscalate_again henv ha).and
    (runs_keepsActions ((svc.lifecycle_maybeEscalate a).mono fun _ => Call.IsLifecycle.keepsActions)
      w)).post ?_
  rintro (e | a') w' ⟨hQ, hactions⟩
  · exact hQ
  · obtain ⟨hreplaces, rfl | rfl, hcalm, hdue⟩ := hQ
    · exact ⟨hreplaces, rfl, hcalm, rfl, hdue, hactions⟩
    · exact ⟨hreplaces, rfl, hcalm, rfl, hdue, hactions⟩

/-- The alert whose decision is not due, or is not made. -/
theorem not_raising_of_decided (hcalm : svc.shouldEscalate a t = .ok false) {due : Bool}
    (hdue : svc.shouldRemediate a t = .ok due)
    (hidle : due = true → HourOverflows t → ∀ e, svc.remediationEngine = some e →
      ¬ e.ReachesRateLimit nodeId ruleKey t u) : ¬ Raising svc nodeId ruleKey t u a := by
  rintro (⟨e, h⟩ | ⟨e, h⟩ | ⟨engine, h, hengine, hreaches, hoverflows⟩)
  · cases hcalm.symm.trans h
  · cases hdue.symm.trans h
  · obtain rfl := Except.ok.inj (hdue.symm.trans h)
    exact hidle rfl hoverflows engine hengine hreaches

/-- Once a decision is marked, nothing is due any more. -/
theorem not_raising_remediated {engine : RemediationEngine}
    (hengine : svc.remediationEngine = some engine) (hcalm : svc.shouldEscalate a t = .ok false) :
    ¬ Raising svc nodeId ruleKey t u (remediated t a) := by
  have hdone : svc.shouldRemediate (remediated t a) t = .ok false := by
    unfold AlertEvaluationService.shouldRemediate
    rw [hengine, if_neg (fun h => by cases h), if_pos (by simp [remediated])]
  have hcalm' : svc.shouldEscalate (remediated t a) t = .ok false := hcalm
  exact not_raising_of_decided hcalm' hdone fun h => by cases h

theorem returns_markRemediated (henv : env.Faultless) (ha : a ∈ w.store.alerts.rows) :
    Returns env (Call.markRemediated a.id t).perform w fun _ w' =>
      w.store.alerts.Replaces w'.store.alerts a (remediated t a) ∧
        w'.store.remediationActions = w.store.remediationActions := by
  have hwrite := returns_update (w := w) henv (.markRemediated a.id t) (id_remediated · t) id
    (fun _ _ hget => ⟨_, update_of_get? hget, rfl⟩) (fun _ _ => rfl) ha
  have hactions : Runs (handle env) (fun _ _ => True) (Call.markRemediated a.id t).perform w
      fun _ w' => w'.store.remediationActions = w.store.remediationActions :=
    runs_keepsActions (only_perform fun _ _ => rfl) w
  refine (hwrite.and hactions).post ?_
  rintro (e | a') w' ⟨hQ, hkept⟩
  · exact hQ
  · exact ⟨hQ.2, hkept⟩

/-- What a decision about the alert `a` leaves, if it does not raise: the alert raised nowhere and
raises nowhere now, and whether any other raises is as before. -/
def QuietDecision (svc : AlertEvaluationService) (nodeId ruleKey : String) (t : Datetime)
    (a : AlertRecord) (σ σ' : Store) : Prop :=
  ∃ a', σ.alerts.Replaces σ'.alerts a a' ∧ a'.masked = a.masked ∧
    ¬ Raising svc nodeId ruleKey t σ.remediationActions a ∧
    ¬ Raising svc nodeId ruleKey t σ'.remediationActions a' ∧
    ∀ k b, Raising svc nodeId k t σ'.remediationActions b ↔
      Raising svc nodeId k t σ.remediationActions b

/-- No decision is due, or there is no engine. -/
theorem quietDecision_refl {ruleKey : String} {σ : Store} (ha : a ∈ σ.alerts.rows)
    (hquiet : ¬ Raising svc nodeId ruleKey t σ.remediationActions a) :
    QuietDecision svc nodeId ruleKey t a σ σ :=
  ⟨a, .refl ha, rfl, hquiet, hquiet, fun _ _ => Iff.rfl⟩

/-- A decision about the alert. -/
theorem runs_maybeRemediate_raising (henv : env.Faultless) (ha : a ∈ w.store.alerts.rows)
    (hcalm : svc.shouldEscalate a t = .ok false) :
    Runs (handle env) (fun _ _ => True) (svc.maybeRemediate nodeId result t a) w (Ends
      (fun _ w' => QuietDecision svc nodeId result.ruleKey t a w.store w'.store)
      fun _ w' => w'.store.alerts = w.store.alerts ∧
        Raising svc nodeId result.ruleKey t w.store.remediationActions a) := by
  unfold AlertEvaluationService.maybeRemediate
  cases hdue : svc.shouldRemediate a t with
  | error e => exact ⟨rfl, .remediation e hdue⟩
  | ok due =>
    rw [lift_ok, pure_bind']
    cases due with
    | false => exact quietDecision_refl ha (not_raising_of_decided hcalm hdue fun h => by cases h)
    | true =>
      cases hengine : svc.remediationEngine with
      | none =>
        refine quietDecision_refl ha (not_raising_of_decided hcalm hdue fun _ _ e he => ?_)
        rw [hengine] at he
        cases he
      | some engine =>
        have haware := AlertEvaluationService.aware_of_shouldRemediate hdue
        refine (engine.runs_decide_raising henv haware a.id).bind ?_ ?_
        · rintro decision w₁ ⟨halerts, hnone, hquiet, hcooling⟩
          have hnot : ¬ Raising svc nodeId result.ruleKey t w.store.remediationActions a := by
            refine not_raising_of_decided hcalm hdue fun _ hoverflows e he hreaches => ?_
            obtain rfl := Option.some.inj (hengine.symm.trans he)
            exact hquiet ⟨hoverflows, hreaches⟩
          have hkept₁ : ∀ k b, Raising svc nodeId k t w₁.store.remediationActions b ↔
              Raising svc nodeId k t w.store.remediationActions b := by
            refine fun k b => Raising.congr rfl rfl fun hoverflows e he => ?_
            obtain rfl := Option.some.inj (hengine.symm.trans he)
            exact hcooling hoverflows
          cases decision with
          | none =>
            refine ⟨a, ?_, rfl, hnot, (not_congr (hkept₁ _ _)).2 hnot, hkept₁⟩
            show w.store.alerts.Replaces w₁.store.alerts a a
            rw [halerts]
            exact .refl ha
          | some decision =>
            refine (returns_markRemediated henv (halerts ▸ ha)).bind ?_ fun _ _ hQ => hQ.elim
            rintro a' w₂ ⟨hreplaces, hactions⟩
            rw [halerts] at hreplaces
            have hkept₂ : ∀ k b, Raising svc nodeId k t w₂.store.remediationActions b ↔
                Raising svc nodeId k t w.store.remediationActions b := by
              rw [hactions]
              exact hkept₁
            exact ⟨remediated t a, hreplaces, rfl, hnot, not_raising_remediated hengine hcalm, hkept₂⟩
        · rintro e w₁ ⟨halerts, -, hoverflows, hreaches⟩
          exact ⟨halerts, .rateLimit engine hdue hengine hreaches hoverflows⟩

/-- A breach at an open alert. -/
theorem runs_advance_raising (henv : env.Faultless) (hbreached : result.breached = true)
    (ha : a ∈ w.store.alerts.rows) :
    Runs (handle env) (fun _ _ => True) (svc.openOrAdvance nodeId result t (some a)) w (Ends
      (fun _ w' => Applies svc nodeId t result w.store w'.store (some a))
      fun _ w' => Interrupts svc nodeId t result w.store w'.store (some a)) := by
  have hwrite := returns_update (w := w) henv (.updateLastFired a.id result.value t)
    (id_advanced · result.value t) id (fun _ _ hget => ⟨_, update_of_get? hget, rfl⟩)
    (fun _ _ => rfl) ha
  have hkept : Runs (handle env) (fun _ _ => True)
      (Call.updateLastFired a.id result.value t).perform w
      fun _ w' => w'.store.remediationActions = w.store.remediationActions :=
    runs_keepsActions (only_perform fun _ _ => rfl) w
  refine (hwrite.and hkept).bind ?_ fun _ _ hQ => hQ.1.elim
  rintro a₁ w₁ ⟨⟨rfl, h₁⟩, hactions₁⟩
  refine (runs_maybeEscalate_raising henv h₁.mem_after).bind ?_ ?_
  · rintro a₂ w₂ ⟨h₂, hmasked₂, hcalm, hremediate, ⟨due, hdue⟩, hactions₂⟩
    have hactions : w₂.store.remediationActions = w.store.remediationActions :=
      hactions₂.trans hactions₁
    -- The alert that may have escalated raises where the open one does.
    have hraising : Raising svc nodeId result.ruleKey t w₂.store.remediationActions a₂ ↔
        Raising svc nodeId result.ruleKey t w.store.remediationActions a := by
      rw [hactions]
      constructor
      · rintro (⟨e, h⟩ | ⟨e, h⟩ | ⟨engine, h, hengine, hreaches, hoverflows⟩)
        · cases hcalm.symm.trans h
        · exact .remediation e (hremediate.symm.trans h)
        · exact .rateLimit engine (hremediate.symm.trans h) hengine hreaches hoverflows
      · rintro (⟨e, h⟩ | ⟨e, h⟩ | ⟨engine, h, hengine, hreaches, hoverflows⟩)
        · cases hdue.symm.trans h
        · exact .remediation e (hremediate.trans h)
        · exact .rateLimit engine (hremediate.trans h) hengine hreaches hoverflows
    have hreplaces : w.store.alerts.Replaces w₂.store.alerts a a₂ := h₁.trans h₂
    refine (runs_maybeRemediate_raising henv h₂.mem_after hcalm).post ?_
    rintro (e | r) w₃ hQ
    · obtain ⟨halerts, hraised⟩ := hQ
      exact .raised a a₂ hbreached (halerts ▸ hreplaces) hmasked₂ (hraising.1 hraised)
    · obtain ⟨a₃, h₃, hmasked₃, hquiet, hquiet₃, hkept₃⟩ := hQ
      rw [hactions] at hkept₃
      exact .advanced a a₃ hbreached (hreplaces.trans h₃) (hmasked₃.trans hmasked₂)
        (fun h => hquiet (hraising.2 h)) hquiet₃ hkept₃
  · rintro e _ ⟨rfl, hraised⟩
    exact .raised a _ hbreached h₁ rfl (.escalation e hraised)

/-- What one result does, whatever its `collected_at`. -/
theorem runs_apply_raising (henv : env.Faultless) (result : RuleEvaluationResult) :
    Runs (handle env) (fun _ _ => True) (svc.apply nodeId result t) w (Ends
      (fun _ w' => Applies svc nodeId t result w.store w'.store
        (findOpenAlert (env.scan w.calls) w.store nodeId result.ruleKey))
      fun _ w' => Interrupts svc nodeId t result w.store w'.store
        (findOpenAlert (env.scan w.calls) w.store nodeId result.ruleKey)) := by
  unfold AlertEvaluationService.apply
  refine (Call.returns_read henv (c := .findOpenAlert nodeId result.ruleKey) trivial rfl).bind ?_
    fun _ _ hQ => hQ.elim
  rintro current w₁ ⟨rfl, hw₁⟩
  rw [← hw₁.store]
  cases hfound : findOpenAlert (env.scan w.calls) w₁.store nodeId result.ruleKey with
  | none =>
    cases hbreached : result.breached with
    | true =>
      rw [if_pos rfl]
      have hkept : Runs (handle env) (fun _ _ => True) (svc.openAlert nodeId result t) w₁
          fun _ w' => w'.store.remediationActions = w₁.store.remediationActions :=
        runs_keepsActions ((svc.lifecycle_openAlert result).mono
          fun _ => Call.IsLifecycle.keepsActions) w₁
      have hopened : Runs (handle env) (fun _ _ => True) (svc.openOrAdvance nodeId result t none) w₁
          (Ends (fun _ w' => Applies svc nodeId t result w₁.store w'.store none)
            fun _ w' => Interrupts svc nodeId t result w₁.store w'.store none) := by
        refine ((returns_openAlert_insert henv result).and hkept).bind ?_ fun _ _ hQ => hQ.1.elim
        rintro record w₂ ⟨halerts, hactions⟩
        exact .opened hbreached halerts hactions
      exact hopened.bind (fun _ _ hQ => hQ) fun _ _ hQ => hQ
    | false =>
      rw [if_neg Bool.false_ne_true]
      exact .idle hbreached rfl rfl
  | some a =>
    have ha : a ∈ w₁.store.alerts.rows := mem_reorder.1 (List.mem_of_find?_eq_some hfound)
    cases hbreached : result.breached with
    | true =>
      rw [if_pos rfl]
      exact (runs_advance_raising henv hbreached ha).bind (fun _ _ hQ => hQ) fun _ _ hQ => hQ
    | false =>
      rw [if_neg Bool.false_ne_true]
      have hsome : (w₁.store.alerts.get? a.id).isSome := by
        rw [Table.get?_of_mem ha]
        rfl
      have hkept : Runs (handle env) (fun _ _ => True) (svc.resolve t a) w₁
          fun _ w' => w'.store.remediationActions = w₁.store.remediationActions :=
        runs_keepsActions ((svc.lifecycle_resolve a).mono fun _ => Call.IsLifecycle.keepsActions) w₁
      refine ((returns_resolve henv hsome).and hkept).bind ?_ fun _ _ hQ => hQ.1.elim
      rintro record w₂ ⟨halerts, hactions⟩
      refine .resolved a hbreached ?_ hactions
      rw [show w₂.store.alerts = _ from halerts]
      exact Table.replaces_modify ha

end Apply

end ClusterPulse
