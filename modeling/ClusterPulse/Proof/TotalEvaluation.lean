import ClusterPulse.Proof.EvaluationRuns
import ClusterPulse.Proof.SameTables

/-!
# When an evaluation returns

An evaluation of a payload returns, whatever the database finds where it may choose, exactly if every
window of a rate-of-change rule fits between the year 1 and `collected_at` and no breach comes upon an
alert at which it raises.
-/

namespace ClusterPulse

open AlertRepository Prog

/-! ## What the database finds -/

/-- The same calls fail, and the same orders are scanned, in the first `n` calls. -/
def Environment.AgreeBefore (n : ℕ) (env env' : Environment) : Prop :=
  ∀ i < n, env'.fault i = env.fault i ∧ env'.scan i = env.scan i

/-- Scan in this order from the `n`-th call on. -/
def Environment.rescan (env : Environment) (n : ℕ) (scan : Scan) : Environment where
  fault := env.fault
  scan i := if i < n then env.scan i else scan

theorem Environment.agreeBefore_rescan (env : Environment) (n : ℕ) (scan : Scan) :
    env.AgreeBefore n (env.rescan n scan) := fun _ hi => ⟨rfl, if_pos hi⟩

theorem Environment.Faultless.rescan {env : Environment} (henv : env.Faultless) (n : ℕ)
    (scan : Scan) : (env.rescan n scan).Faultless := henv

@[simp] theorem Environment.rescan_scan (env : Environment) (n : ℕ) (scan : Scan) :
    (env.rescan n scan).scan n = scan := if_neg (lt_irrefl n)

theorem Environment.AgreeBefore.refl (n : ℕ) (env : Environment) : env.AgreeBefore n env :=
  fun _ _ => ⟨rfl, rfl⟩

theorem Environment.AgreeBefore.trans {n m : ℕ} {env env' env'' : Environment}
    (h : env.AgreeBefore n env') (h' : env'.AgreeBefore m env'') (hnm : n ≤ m) :
    env.AgreeBefore n env'' := fun i hi =>
  ⟨(h' i (hi.trans_le hnm)).1.trans (h i hi).1, (h' i (hi.trans_le hnm)).2.trans (h i hi).2⟩

section Agreement

variable {env env' : Environment} {α : Type} {w : World} {n : ℕ}

theorem calls_le_run (env : Environment) (p : Repo α) (w : World) :
    w.calls ≤ (p.run (handle env) w).2.calls := by
  induction p generalizing w with
  | pure a => exact le_rfl
  | throw e => exact le_rfl
  | call c k ih =>
    rw [run_call]
    refine le_trans ?_ (ih _ _)
    rw [handle_calls]
    exact Nat.le_succ _

theorem handle_congr (h : env.AgreeBefore n env') (hw : w.calls < n) (c : Call) :
    handle env' c w = handle env c w := by
  obtain ⟨hfault, hscan⟩ := h w.calls hw
  unfold handle
  rw [hfault, hscan]

/-- A run that is over after `n` calls. -/
theorem run_congr {p : Repo α} (h : env.AgreeBefore n env')
    (hn : (p.run (handle env) w).2.calls ≤ n) : p.run (handle env') w = p.run (handle env) w := by
  induction p generalizing w with
  | pure a => rfl
  | throw e => rfl
  | call c k ih =>
    have hcalls := calls_le_run env (k (handle env c w).1) (handle env c w).2
    rw [handle_calls] at hcalls
    rw [run_call] at hn
    rw [run_call, run_call, handle_congr h (by omega) c]
    exact ih _ hn

end Agreement

/-! ## Rule results -/

namespace RuleEngine

/-- What the rules can give for a sample, depending on the order in which the stored samples are
scanned. -/
def Gives (e : RuleEngine) (σ : Store) (nodeId : String) (t : Datetime) (sample : MetricSample)
    (results : List RuleEvaluationResult) : Prop :=
  match e.rateOfChangeRule? sample.metricType with
  | none => results = e.thresholdResults sample
  | some rule => ∃ scan previous, MetricsRepository.findPreviousSample scan σ nodeId
      sample.metricType t rule.windowSeconds = .ok previous ∧
        results = e.thresholdResults sample ++ (previous.map (rateOfChangeResult rule sample)).toList

/-- What they can give for the samples of a payload. -/
inductive Emits (e : RuleEngine) (σ : Store) (nodeId : String) (t : Datetime) :
    List MetricSample → List RuleEvaluationResult → Prop
  | nil : Emits e σ nodeId t [] []
  | cons {sample : MetricSample} {samples : List MetricSample}
    {results results' : List RuleEvaluationResult} (hgives : e.Gives σ nodeId t sample results)
    (hrest : Emits e σ nodeId t samples results') :
    Emits e σ nodeId t (sample :: samples) (results ++ results')

/-- The window of the rate-of-change rule for the sample, if there is one, begins in range. -/
def WindowFits (e : RuleEngine) (t : Datetime) (sample : MetricSample) : Prop :=
  ∀ rule ∈ e.rateOfChangeRule? sample.metricType,
    ∃ since, (Timedelta.ofSeconds rule.windowSeconds >>= t.minus) = .ok since

variable {e : RuleEngine} {env : Environment} {w : World} {nodeId : String} {t : Datetime}
  {sample : MetricSample} {samples : List MetricSample} {results : List RuleEvaluationResult}

theorem Gives.windowFits {σ : Store} (h : e.Gives σ nodeId t sample results) :
    e.WindowFits t sample := by
  intro rule hrule
  unfold Gives at h
  rw [Option.mem_def.1 hrule] at h
  obtain ⟨scan, previous, hprevious, -⟩ := h
  rw [findPreviousSample_eq] at hprevious
  cases hsince : Timedelta.ofSeconds rule.windowSeconds >>= t.minus with
  | error err =>
    rw [hsince] at hprevious
    cases hprevious
  | ok since => exact ⟨since, rfl⟩

theorem Emits.windowFits {σ : Store} (h : e.Emits σ nodeId t samples results) :
    ∀ sample ∈ samples, e.WindowFits t sample := by
  induction h with
  | nil => exact fun _ hsample => absurd hsample List.not_mem_nil
  | cons hgives hrest ih =>
    intro sample hsample
    obtain rfl | hsample := List.mem_cons.1 hsample
    · exact hgives.windowFits
    · exact ih sample hsample

/-- One sample: the rules give some results, or the window does not fit. -/
theorem runs_evaluateSample_gives (henv : env.Faultless) (before : List RuleEvaluationResult)
    (sample : MetricSample) : Runs (handle env) (fun _ _ => True)
      (e.evaluateSample nodeId t before sample) w (Ends
        (fun results w' => Untouched w w' ∧ ∃ given, e.Gives w.store nodeId t sample given ∧
          results = before ++ given)
        fun _ _ => ¬ e.WindowFits t sample) := by
  unfold evaluateSample
  cases hrule : e.rateOfChangeRule? sample.metricType with
  | none =>
    refine ⟨.refl w, e.thresholdResults sample, ?_, rfl⟩
    unfold Gives
    rw [hrule]
  | some rule =>
    let c : Call := .findPreviousSample nodeId sample.metricType t rule.windowSeconds
    show Runs (handle env) (fun _ _ => True) (evaluateRateOfChange nodeId rule sample t >>= _) w _
    unfold evaluateRateOfChange
    rw [bind_assoc]
    cases hprevious : MetricsRepository.findPreviousSample (env.scan w.calls) w.store nodeId
        sample.metricType t rule.windowSeconds with
    | error err =>
      have hraises : Runs (handle env) (fun _ _ => True) c.perform w
          (Ends (fun _ _ => False) fun _ _ => True) := by
        refine runs_of_run ?_
        rw [run_perform, handle_of_ok (henv _ _)]
        show Ends _ _ (MetricsRepository.findPreviousSample _ _ _ _ _ _) _
        rw [hprevious]
        trivial
      refine hraises.bind (fun _ _ hQ => hQ.elim) fun _ _ _ hfits => ?_
      obtain ⟨since, hsince⟩ := hfits rule hrule
      rw [findPreviousSample_eq, hsince] at hprevious
      cases hprevious
    | ok previous =>
      refine (Call.returns_read henv (c := c) trivial hprevious).bind ?_ fun _ _ hQ => hQ.elim
      rintro previous' w₁ ⟨rfl, hw₁⟩
      refine ⟨hw₁, _, ?_, List.append_assoc ..⟩
      unfold Gives
      rw [hrule]
      exact ⟨_, _, hprevious, rfl⟩

/-- An evaluation of the rules. -/
theorem runs_evaluate_emits (henv : env.Faultless) (before : List RuleEvaluationResult) :
    Runs (handle env) (fun _ _ => True) (samples.foldlM (e.evaluateSample nodeId t) before) w (Ends
      (fun results w' => Untouched w w' ∧ ∃ given, e.Emits w.store nodeId t samples given ∧
        results = before ++ given)
      fun _ _ => ¬ ∀ sample ∈ samples, e.WindowFits t sample) := by
  induction samples generalizing before w with
  | nil => exact ⟨.refl w, [], .nil, (List.append_nil _).symm⟩
  | cons sample samples ih =>
    rw [List.foldlM_cons]
    refine (runs_evaluateSample_gives henv before sample).bind ?_ fun _ _ hfits hall =>
      hfits (hall sample List.mem_cons_self)
    rintro _ w₁ ⟨hw₁, given, hgives, rfl⟩
    refine (ih (before ++ given)).post ?_
    rintro (err | results) w₂ hQ
    · exact fun hall => hQ fun sample hsample => hall sample (List.mem_cons_of_mem _ hsample)
    · obtain ⟨hw₂, given', hemits, rfl⟩ := hQ
      rw [hw₁.store] at hemits
      exact ⟨hw₁.trans hw₂, _, .cons hgives hemits, List.append_assoc ..⟩

/-- Some order lets the rules give these results. -/
theorem exists_run_evaluateSample (henv : env.Faultless)
    (hgives : e.Gives w.store nodeId t sample results) :
    ∃ env', env'.Faultless ∧ env.AgreeBefore w.calls env' ∧ ∃ w', Untouched w w' ∧ ∀ before,
      (e.evaluateSample nodeId t before sample).run (handle env') w = (.ok (before ++ results), w') := by
  unfold Gives at hgives
  unfold evaluateSample
  cases hrule : e.rateOfChangeRule? sample.metricType with
  | none =>
    rw [hrule] at hgives
    obtain rfl : results = e.thresholdResults sample := hgives
    exact ⟨env, henv, .refl _ env, w, .refl w, fun before => rfl⟩
  | some rule =>
    rw [hrule] at hgives
    obtain ⟨scan, previous, hprevious, rfl⟩ := hgives
    let c : Call := .findPreviousSample nodeId sample.metricType t rule.windowSeconds
    have henv' := henv.rescan w.calls scan
    have hanswer : (exec ((env.rescan w.calls scan).scan w.calls) c w.store).1 = .ok previous := by
      rw [Environment.rescan_scan]
      exact hprevious
    have huntouched := untouched_handle (env.rescan w.calls scan) (c := c) trivial w
    rw [handle_of_ok (henv' _ _)] at huntouched
    refine ⟨_, henv', env.agreeBefore_rescan _ scan, _, huntouched, fun before => ?_⟩
    show (evaluateRateOfChange nodeId rule sample t >>= _).run _ w = _
    unfold evaluateRateOfChange
    rw [bind_assoc, run_perform_bind (henv' _ _) hanswer, ← List.append_assoc]
    rfl

theorem exists_run_evaluate (henv : env.Faultless)
    (hemits : e.Emits w.store nodeId t samples results) :
    ∃ env', env'.Faultless ∧ env.AgreeBefore w.calls env' ∧ ∃ w', Untouched w w' ∧ ∀ before,
      (samples.foldlM (e.evaluateSample nodeId t) before).run (handle env') w =
        (.ok (before ++ results), w') := by
  induction samples generalizing env w results with
  | nil =>
    cases hemits
    exact ⟨env, henv, .refl _ env, w, .refl w, fun before => by rw [List.append_nil]; rfl⟩
  | cons sample samples ih =>
    cases hemits with
    | @cons _ _ given _ hgives hrest =>
      obtain ⟨env₁, henv₁, hagree₁, w₁, hw₁, hrun₁⟩ := exists_run_evaluateSample henv hgives
      rw [← hw₁.store] at hrest
      obtain ⟨env₂, henv₂, hagree₂, w₂, hw₂, hrun₂⟩ := ih henv₁ hrest
      have hcalls : w.calls ≤ w₁.calls := by
        have h := calls_le_run env₁ (e.evaluateSample nodeId t [] sample) w
        rwa [hrun₁] at h
      refine ⟨env₂, henv₂, hagree₁.trans hagree₂ hcalls, w₂, hw₁.trans hw₂, fun before => ?_⟩
      have hfirst : (e.evaluateSample nodeId t before sample).run (handle env₂) w =
          (.ok (before ++ given), w₁) := by
        rw [run_congr hagree₂ (by rw [hrun₁]), hrun₁]
      rw [List.foldlM_cons, run_bind, hfirst]
      dsimp only
      rw [hrun₂, List.append_assoc]

end RuleEngine

/-! ## The alert that is found -/

section Choice

variable {svc : AlertEvaluationService} {nodeId : String} {t : Datetime} {σ₀ σ σ' : Store}
  {slots : String → Slot} {result : RuleEvaluationResult}

/-- As long as alerts from before are open, the ones at which a breach raises are among them. -/
def Kept (svc : AlertEvaluationService) (nodeId : String) (t : Datetime) (σ₀ σ : Store)
    (slots : String → Slot) : Prop :=
  ∀ ruleKey n, slots ruleKey = .held n → OpenRaising svc nodeId ruleKey t σ₀ →
    OpenRaising svc nodeId ruleKey t σ

/-- An alert that the database has not found is as it was. -/
theorem OpenRaising.applies {found : Option AlertRecord} {key : String}
    (happlies : Applies svc nodeId t result σ σ' found)
    (h : ∃ a ∈ σ.alerts.rows, isOpen nodeId key a = true ∧
      Raising svc nodeId key t σ.remediationActions a ∧ some a ≠ found) :
    OpenRaising svc nodeId key t σ' := by
  obtain ⟨a, ha, hopen, hraising, hne⟩ := h
  exact ⟨a, happlies.mem_of_ne ha hne, hopen, (happlies.raising_iff key a).2 hraising⟩

/-- A breach that raises at no alert leaves none from before at which it would. -/
theorem not_openRaising (hquiet : ¬ RaisesAt svc nodeId t σ₀ slots result)
    (hbreached : result.breached = true) {n : ℕ} (hslot : (slots result.ruleKey).next true = .held n) :
    ¬ OpenRaising svc nodeId result.ruleKey t σ₀ := by
  intro hraising
  cases hbefore : slots result.ruleKey with
  | held m => exact hquiet ⟨hbreached, .inl ⟨m, hbefore, hraising⟩⟩
  | empty =>
    rw [hbefore] at hslot
    cases hslot
  | filled =>
    rw [hbefore] at hslot
    cases hslot

/-- The other keys keep their alerts in any order. -/
theorem Kept.applies_of_ne (hkept : Kept svc nodeId t σ₀ σ slots) {scan : Scan} {σ' : Store}
    (happlies : Applies svc nodeId t result σ σ' (findOpenAlert scan σ nodeId result.ruleKey))
    {key : String} (hkey : key ≠ result.ruleKey) {n : ℕ}
    (hslot : nextSlots slots result key = .held n) (hraising : OpenRaising svc nodeId key t σ₀) :
    OpenRaising svc nodeId key t σ' := by
  rw [nextSlots_of_ne hkey] at hslot
  obtain ⟨a, ha, hopen, hraising⟩ := hkept key n hslot hraising
  refine .applies happlies ⟨a, ha, hopen, hraising, fun hfound => hkey ?_⟩
  have hown := List.find?_some hfound.symm
  exact ((isOpen_iff_of_isOpen hopen nodeId result.ruleKey).1 hown).2.symm

/-- Some order lets the database resolve no alert at which a breach raises, as long as it can resolve
another one. -/
theorem Kept.exists_scan (hkept : Kept svc nodeId t σ₀ σ slots)
    (htell : SlotsTell svc nodeId t σ₀ σ slots) (hquiet : ¬ RaisesAt svc nodeId t σ₀ slots result) :
    ∃ scan, ∀ σ', Applies svc nodeId t result σ σ' (findOpenAlert scan σ nodeId result.ruleKey) →
      Kept svc nodeId t σ₀ σ' (nextSlots slots result) := by
  by_cases hcase : ∃ n, nextSlots slots result result.ruleKey = .held n ∧
      OpenRaising svc nodeId result.ruleKey t σ₀
  · obtain ⟨n, hslot, hraising⟩ := hcase
    rw [nextSlots_self] at hslot
    have hbreached : result.breached = false := Bool.eq_false_iff.2 fun hbreached =>
      not_openRaising hquiet hbreached (hbreached ▸ hslot) hraising
    obtain ⟨m, hbefore⟩ := Slot.exists_held_of_next hslot
    obtain ⟨a, ha, hopen, hraising'⟩ := hkept _ m hbefore hraising
    -- two alerts are open, so there is another one to find
    have hcount := Slot.count_next (slots result.ruleKey) result.breached
    rw [hslot, hbreached, if_neg Bool.false_ne_true, ← htell.count, openCount_eq] at hcount
    have htwo : 1 < σ.alerts.rows.countP (isOpen nodeId result.ruleKey) := by
      simp only [Slot.count] at hcount
      omega
    obtain ⟨b, hb, hopenB, hne⟩ := Table.exists_ne_of_countP htwo a
    obtain ⟨scan, hfound⟩ := exists_scan_finds hb hopenB
    refine ⟨scan, fun σ' happlies key n hslot hraises => ?_⟩
    by_cases hkey : key = result.ruleKey
    · subst hkey
      refine .applies happlies ⟨a, ha, hopen, hraising', fun h => hne ?_⟩
      exact (Option.some.inj (h.trans hfound)).symm
    · exact hkept.applies_of_ne happlies hkey hslot hraises
  · refine ⟨id, fun σ' happlies key n hslot hraises => ?_⟩
    by_cases hkey : key = result.ruleKey
    · subst hkey
      exact absurd ⟨n, hslot, hraises⟩ hcase
    · exact hkept.applies_of_ne happlies hkey hslot hraises

/-- Some order lets a breach raise that may. -/
theorem Kept.exists_scan_raises (hkept : Kept svc nodeId t σ₀ σ slots)
    (htell : SlotsTell svc nodeId t σ₀ σ slots) (hraises : RaisesAt svc nodeId t σ₀ slots result) :
    ∃ scan, ∀ σ', ¬ Applies svc nodeId t result σ σ'
      (findOpenAlert scan σ nodeId result.ruleKey) := by
  obtain ⟨hbreached, hraises⟩ := hraises
  have hopen : OpenRaising svc nodeId result.ruleKey t σ := by
    obtain ⟨n, hslot, hraising⟩ | ⟨hslot, hanew⟩ := hraises
    · exact hkept _ n hslot hraising
    · have hpos : 0 < openCount nodeId result.ruleKey σ.alerts := by
        rw [htell.count, hslot]
        exact Nat.one_pos
      rw [openCount_eq, List.countP_pos_iff] at hpos
      obtain ⟨a, ha, hopen⟩ := hpos
      refine ⟨a, ha, hopen, (htell.raising _ a).2 ?_⟩
      exact (htell.filled _ hslot a ha hopen).2 hanew
  obtain ⟨a, ha, hopen, hraising⟩ := hopen
  obtain ⟨scan, hfound⟩ := exists_scan_finds ha hopen
  refine ⟨scan, fun σ' happlies => ?_⟩
  rw [hfound] at happlies
  cases happlies with
  | resolved _ hhealthy => cases hbreached.symm.trans hhealthy
  | advanced _ _ _ _ _ hquiet => exact hquiet hraising

end Choice

/-! ## Which alerts raise -/

section Raises

variable {svc : AlertEvaluationService} {nodeId ruleKey : String} {t : Datetime} {σ₀ : Store}
  {slots : String → Slot} {u : ActionTable} {a : AlertRecord}

/-- A naive `collected_at` raises at each alert whose age is still asked for. -/
theorem raising_naive_iff (ht : t.utcoffset = none) : Raising svc nodeId ruleKey t u a ↔
    a.acknowledgedAt = none ∧
      (a.escalatedAt = none ∨ svc.remediationEngine.isSome ∧ a.remediatedAt = none) := by
  have hage : ∀ threshold, AlertEvaluationService.ageReaches a t threshold =
      .error (.typeError "can't subtract offset-naive and offset-aware datetimes") := by
    intro threshold
    unfold AlertEvaluationService.ageReaches Datetime.since
    rw [ht]
    rfl
  constructor
  · rintro (⟨e, h⟩ | ⟨e, h⟩ | ⟨engine, hdue, -⟩)
    · unfold AlertEvaluationService.shouldEscalate at h
      split_ifs at h with hdone
      simp only [Bool.or_eq_true, not_or, Bool.not_eq_true, Option.isSome_eq_false_iff,
        Option.isNone_iff_eq_none] at hdone
      exact ⟨hdone.1, .inl hdone.2⟩
    · unfold AlertEvaluationService.shouldRemediate at h
      split_ifs at h with hengine hdone
      simp only [Bool.or_eq_true, not_or, Bool.not_eq_true, Option.isSome_eq_false_iff,
        Option.isNone_iff_eq_none] at hdone
      exact ⟨hdone.1, .inr ⟨Option.isSome_iff_ne_none.2 (by simpa using hengine), hdone.2⟩⟩
    · have haware := AlertEvaluationService.aware_of_shouldRemediate hdue
      rw [ht] at haware
      cases haware
  · rintro ⟨hack, hescalated | ⟨hengine, hremediated⟩⟩
    · refine .escalation (.typeError "can't subtract offset-naive and offset-aware datetimes") ?_
      unfold AlertEvaluationService.shouldEscalate
      rw [hack, hescalated, if_neg (by simp), hage]
    · refine .remediation (.typeError "can't subtract offset-naive and offset-aware datetimes") ?_
      unfold AlertEvaluationService.shouldRemediate
      rw [hack, hremediated, if_neg (by simp [Option.isSome_iff_ne_none.1 hengine]), if_neg (by simp),
        hage]

theorem hourOverflows_iff : HourOverflows t ↔ t.wall < Timedelta.hour := by
  have hle := t.wall_le
  have hhour : (0 : ℤ) ≤ Timedelta.hour := by decide
  unfold HourOverflows Datetime.minus
  constructor
  · rintro ⟨e, h⟩
    split_ifs at h with hin
    omega
  · intro hlt
    rw [dif_neg (by omega)]
    exact ⟨_, rfl⟩

/-- An aware one raises only in the first hour of the year 1 of its own clock, where a decision gets to
the rate limit: at an alert that is due, for a playbook that is not cooling down. -/
theorem raising_aware_iff (ht : t.utcoffset.isSome) : Raising svc nodeId ruleKey t u a ↔
    t.wall < Timedelta.hour ∧ a.acknowledgedAt = none ∧ a.remediatedAt = none ∧
      svc.remediationAfterSeconds ≤ Timedelta.totalSeconds (t.instant - a.firstFiredAt) ∧
      ∃ engine, svc.remediationEngine = some engine ∧ engine.enabled = true ∧
        ∃ playbook, engine.byRuleKey? ruleKey = some playbook ∧
          ¬ engine.Cooling nodeId playbook.playbookName t u := by
  obtain ⟨o, ho⟩ := Option.isSome_iff_exists.1 ht
  have hage : ∀ threshold, AlertEvaluationService.ageReaches a t threshold =
      .ok (decide (threshold ≤ Timedelta.totalSeconds (t.instant - a.firstFiredAt))) := by
    intro threshold
    unfold AlertEvaluationService.ageReaches Datetime.since
    rw [ho]
    rfl
  constructor
  · rintro (⟨e, h⟩ | ⟨e, h⟩ | ⟨engine, hdue, hengine, ⟨henabled, hplaybook⟩, hoverflows⟩)
    · unfold AlertEvaluationService.shouldEscalate at h
      rw [hage] at h
      split_ifs at h
    · unfold AlertEvaluationService.shouldRemediate at h
      rw [hage] at h
      split_ifs at h
    · obtain ⟨hack, hremediated, hreached⟩ :=
        AlertEvaluationService.shouldRemediate_eq_ok_true hdue
      exact ⟨hourOverflows_iff.1 hoverflows, hack, hremediated, hreached, engine, hengine, henabled,
        hplaybook⟩
  · rintro ⟨hwall, hack, hremediated, hreached, engine, hengine, henabled, hplaybook⟩
    refine .rateLimit engine ?_ hengine ⟨henabled, hplaybook⟩ (hourOverflows_iff.2 hwall)
    unfold AlertEvaluationService.shouldRemediate
    rw [hengine, hack, hremediated, hage, decide_eq_true hreached]
    rfl

theorem Timely.not_raisesAt (ht : Timely t) (result : RuleEvaluationResult) :
    ¬ RaisesAt svc nodeId t σ₀ slots result := by
  rintro ⟨-, ⟨n, -, a, -, -, hraising⟩ | ⟨-, hanew⟩⟩
  · exact ht.not_raising hraising
  · exact ht.not_raisesAnew hanew

end Raises

/-! ## Returning -/

/-- The program returns, whatever orders the database scans its tables in. -/
def AlwaysReturns {α : Type} (env : Environment) (p : Repo α) (w : World) : Prop :=
  ∀ env', env'.Faultless → env.AgreeBefore w.calls env' → ∃ a, (p.run (handle env') w).1 = .ok a

section Returning

variable {env : Environment} {svc : AlertEvaluationService} {nodeId : String} {t : Datetime}
  {samples : List MetricSample} {results : List RuleEvaluationResult} {σ₀ : Store} {w : World}
  {slots : String → Slot}

/-- What follows a first part that is over. -/
theorem AlwaysReturns.rest {α β : Type} {p : Repo α} {f : α → Repo β} {a : α} {w' : World}
    (h : AlwaysReturns env (p >>= f) w) {env' : Environment} (hagree : env.AgreeBefore w.calls env')
    (hrun : p.run (handle env') w = (.ok a, w')) : AlwaysReturns env' (f a) w' := by
  intro env'' henv'' hagree'
  have hcalls : w.calls ≤ w'.calls := by
    have hle := calls_le_run env' p w
    rwa [hrun] at hle
  obtain ⟨b, hb⟩ := h env'' henv'' (hagree.trans hagree' hcalls)
  rw [run_bind, run_congr hagree' (by rw [hrun]), hrun] at hb
  exact ⟨b, hb⟩

/-- The first part returns as well. -/
theorem AlwaysReturns.first {α β : Type} {p : Repo α} {f : α → Repo β}
    (h : AlwaysReturns env (p >>= f) w) : AlwaysReturns env p w := by
  intro env' henv' hagree
  obtain ⟨b, hb⟩ := h env' henv' hagree
  rw [run_bind] at hb
  rcases hrun : p.run (handle env') w with ⟨err | a, w'⟩
  · rw [hrun] at hb
    cases hb
  · exact ⟨a, rfl⟩

/-- A loop that always returns meets no breach that may raise. -/
theorem AlwaysReturns.meets (henv : env.Faultless) {outcome : EvaluationOutcome}
    (h : AlwaysReturns env (results.foldlM (svc.applyNext nodeId t) outcome) w)
    (htell : SlotsTell svc nodeId t σ₀ w.store slots) (hkept : Kept svc nodeId t σ₀ w.store slots) :
    Machine.Meets nextSlots (fun slots result => ¬ RaisesAt svc nodeId t σ₀ slots result) slots
      results := by
  induction results generalizing env outcome w slots with
  | nil => trivial
  | cons result results ih =>
    rw [List.foldlM_cons] at h
    -- a result is applied, in whatever order the alerts are scanned
    have hstep : ∀ scan, ∃ outcome' w', (svc.applyNext nodeId t outcome result).run
        (handle (env.rescan w.calls scan)) w = (.ok outcome', w') ∧
        Applies svc nodeId t result w.store w'.store
          (findOpenAlert scan w.store nodeId result.ruleKey) := by
      intro scan
      obtain ⟨outcome', houtcome⟩ := h.first _ (henv.rescan w.calls scan)
        (env.agreeBefore_rescan _ scan)
      have happlies :=
        (runs_applyNext_raising svc nodeId t (henv.rescan w.calls scan) outcome result w).run
      rw [houtcome, Environment.rescan_scan] at happlies
      exact ⟨outcome', _, Prod.ext houtcome rfl, happlies⟩
    have hquiet : ¬ RaisesAt svc nodeId t σ₀ slots result := by
      intro hraises
      obtain ⟨scan, hends⟩ := hkept.exists_scan_raises htell hraises
      obtain ⟨-, w', -, happlies⟩ := hstep scan
      exact hends _ happlies
    obtain ⟨scan, hchoice⟩ := hkept.exists_scan htell hquiet
    obtain ⟨outcome', w', hrun, happlies⟩ := hstep scan
    have hrest := h.rest (env.agreeBefore_rescan _ scan) hrun
    refine ⟨hquiet, ih (henv.rescan w.calls scan) hrest ?_ (hchoice _ happlies)⟩
    exact htell.applies (finds_findOpenAlert scan w.store nodeId result.ruleKey) happlies

/-- An evaluation whose windows fit and whose breaches raise at no alert. -/
theorem returns_of_meets (hwindow : ∀ sample ∈ samples, svc.ruleEngine.WindowFits t sample)
    (hmeets : ∀ results, svc.ruleEngine.Emits w.store nodeId t samples results →
      Machine.Meets nextSlots (fun slots result => ¬ RaisesAt svc nodeId t w.store slots result)
        (slotsOf nodeId w.store.alerts) results)
    (henv : env.Faultless) : Returns env (svc.evaluateAndApply nodeId samples t) w fun _ _ => True := by
  refine (RuleEngine.runs_evaluate_emits henv []).bind ?_ fun _ _ hfits => hfits hwindow
  rintro _ w' ⟨hw', results, hemits, rfl⟩
  refine (runs_applyAll henv ⟨[], []⟩ w').post ?_
  rintro (err | outcome) w'' hrun
  · have htell := slotsTell_start svc nodeId t w.store
    rw [← hw'.store] at htell hmeets hemits
    exact htell.not_interrupted (hmeets _ hemits) hrun
  · trivial

/-- At a timely `collected_at` only the windows count. -/
theorem Timely.evaluation_total (ht : Timely t) (w : World)
    (hwindow : ∀ sample ∈ samples, svc.ruleEngine.WindowFits t sample)
    (henv : env.Faultless) :
    Returns env (svc.evaluateAndApply nodeId samples t) w fun _ _ => True := by
  refine returns_of_meets hwindow (fun results _ => ?_) henv
  exact Machine.meets_of_invariant (fun _ => True) (fun _ _ _ => trivial)
    (fun _ _ _ => ht.not_raisesAt _) trivial

/-- The evaluation of a payload returns exactly if the windows fit and no breach comes upon an alert
at which it raises. -/
theorem evaluation_total_iff (svc : AlertEvaluationService) (nodeId : String)
    (samples : List MetricSample) (t : Datetime) (w : World) :
    (∀ env, env.Faultless → ∃ outcome,
      ((svc.evaluateAndApply nodeId samples t).run (handle env) w).1 = .ok outcome) ↔
    (∀ sample ∈ samples, svc.ruleEngine.WindowFits t sample) ∧
      ∀ results, svc.ruleEngine.Emits w.store nodeId t samples results →
        Machine.Meets nextSlots (fun slots result => ¬ RaisesAt svc nodeId t w.store slots result)
          (slotsOf nodeId w.store.alerts) results := by
  constructor
  · intro h
    have halways : AlwaysReturns .calm (svc.evaluateAndApply nodeId samples t) w :=
      fun env henv _ => h env henv
    constructor
    · obtain ⟨results, hresults⟩ := halways.first _ Environment.calm_faultless (.refl _ _)
      have hrun : Ends _ _ ((svc.ruleEngine.evaluate nodeId samples t).run (handle .calm) w).1 _ :=
        (RuleEngine.runs_evaluate_emits Environment.calm_faultless []).run
      rw [hresults] at hrun
      obtain ⟨-, given, hemits, -⟩ := hrun
      exact hemits.windowFits
    · intro results hemits
      obtain ⟨env, henv, hagree, w', hw', hrun⟩ :=
        RuleEngine.exists_run_evaluate Environment.calm_faultless hemits
      have hrest := halways.rest hagree (hrun [])
      have htell := slotsTell_start svc nodeId t w.store
      refine hrest.meets henv ?_ ?_
      · rw [hw'.store]
        exact htell
      · rw [hw'.store]
        exact fun _ _ _ hraising => hraising
  · rintro ⟨hwindow, hmeets⟩ env henv
    obtain ⟨outcome, w', hrun, -⟩ := exists_run_of_returns (returns_of_meets hwindow hmeets henv)
    exact ⟨outcome, congrArg Prod.fst hrun⟩

end Returning

namespace Scenario

/-- A payload whose `collected_at` has no UTC offset. -/
def naivePayload (seconds : Fin 86400) (usage : Double) : NodeMetricsPayload :=
  { payload seconds usage with
    collectedAt := { clock seconds with utcoffset := none, utcoffset_lt := nofun } }

/-- The alert that the first payload opens makes the evaluation of the second one raise. -/
theorem not_total_naivePayload :
    ¬ ∀ (d : Deployment) (env : Environment) (ops : List Operation) (p : NodeMetricsPayload),
      env.Faultless → ∃ outcome,
        ((d.alertEvaluationService.evaluateAndApply p.nodeId p.samples p.collectedAt).run (handle env)
          (Operation.runAll env ops .fresh)).1 = .ok outcome := by
  intro h
  obtain ⟨outcome, houtcome⟩ := h deployment .calm [push 0 95] (naivePayload 60 95)
    Environment.calm_faultless
  have hraises : ((service.evaluateAndApply "node-1" (naivePayload 60 95).samples
      (naivePayload 60 95).collectedAt).run (handle .calm)
        (Operation.runAll .calm [push 0 95] .fresh)).1.isOk = false := by
    decide +kernel
  rw [show deployment.alertEvaluationService = service from rfl] at houtcome
  rw [show (naivePayload 60 95).nodeId = "node-1" from rfl] at houtcome
  rw [houtcome] at hraises
  cases hraises

end Scenario

end ClusterPulse
