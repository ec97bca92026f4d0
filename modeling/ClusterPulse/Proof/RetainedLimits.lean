import ClusterPulse.Proof.OperationCalls
import ClusterPulse.Proof.SafetyLimits

/-!
# Retention and the Safety Limits

Retention deletes rows of the audit log that the Safety Limits are computed from.  The rows of the
last hour always stay.  The last action for a playbook may go; that makes no difference as long as
nothing old enough to be pruned is still within the cooldown.
-/

namespace ClusterPulse

open RemediationActionRepository Prog

/-! ## What a retention sweep keeps -/

/-- `t'` is `t` without some rows, all of them dated before the cutoff. -/
def KeptFrom (cutoff : Instant) (t t' : ActionTable) : Prop :=
  ∃ p : RemediationActionRecord → Bool, t'.rows = t.rows.filter p ∧
    ∀ a ∈ t.rows, cutoff ≤ a.createdAt → p a = true

section Kept

variable {bound : Instant} {t t' t'' : ActionTable} {env : Environment} {w : World}
  {settings : CollectorSettings} {now : Datetime}

theorem KeptFrom.refl (bound : Instant) (t : ActionTable) : KeptFrom bound t t :=
  ⟨fun _ => true, (List.filter_true _).symm, fun _ _ _ => rfl⟩

theorem KeptFrom.trans (h : KeptFrom bound t t') (h' : KeptFrom bound t' t'') :
    KeptFrom bound t t'' := by
  obtain ⟨p, hrows, hp⟩ := h
  obtain ⟨q, hrows', hq⟩ := h'
  refine ⟨fun a => p a && q a, ?_, fun a ha hcutoff => ?_⟩
  · rw [hrows', hrows, List.filter_filter]
    exact List.filter_congr fun a _ => Bool.and_comm _ _
  · have hpa := hp a ha hcutoff
    have hmem : a ∈ t'.rows := hrows ▸ List.mem_filter.2 ⟨ha, hpa⟩
    exact (Bool.and_eq_true _ _).mpr ⟨hpa, hq a hmem hcutoff⟩

theorem KeptFrom.subset (h : KeptFrom bound t t') {a : RemediationActionRecord}
    (ha : a ∈ t'.rows) : a ∈ t.rows := by
  obtain ⟨p, hrows, -⟩ := h
  rw [hrows] at ha
  exact List.mem_of_mem_filter ha

theorem KeptFrom.mem (h : KeptFrom bound t t') {a : RemediationActionRecord} (ha : a ∈ t.rows)
    (hbound : bound ≤ a.createdAt) : a ∈ t'.rows := by
  obtain ⟨p, hrows, hp⟩ := h
  rw [hrows]
  exact List.mem_filter.2 ⟨ha, hp a ha hbound⟩

/-- One batch. -/
theorem keptFrom_pruneTerminalBefore (scan : Scan) (σ : Store) (cutoff : Instant) (batchSize : ℕ) :
    KeptFrom cutoff σ.remediationActions
      (pruneTerminalBefore scan σ cutoff batchSize).2.remediationActions := by
  refine ⟨_, rfl, fun a ha hcutoff => ?_⟩
  rw [Bool.not_eq_true']
  by_contra hdoomed
  rw [Bool.not_eq_false, List.contains_iff_mem] at hdoomed
  obtain ⟨b, hb, hid⟩ := List.mem_map.1 hdoomed
  have hmem := List.mem_of_mem_take hb
  rw [List.mem_filter, mem_reorder] at hmem
  obtain rfl : b = a := List.inj_on_of_nodup_map σ.remediationActions.nodup hmem.1 ha hid
  have hearly := hmem.2
  simp only [Bool.and_eq_true, decide_eq_true_eq] at hearly
  exact absurd hearly.2 (not_lt.2 hcutoff)

/-- A call of a retention sweep whose cutoff for actions is given. -/
def Call.IsPrune (cutoff : Instant) : Call → Prop
  | .pruneTerminalBefore cutoff' _ => cutoff' = cutoff
  | .pruneResolvedBefore .. => True
  | .pruneSamplesBefore .. => True
  | _ => False

theorem RetentionJob.only_prunes {c : Datetime}
    (hc : cutoff settings.remediationActionsRetentionDays now = .ok c) (passes : ℕ) :
    Only (Call.IsPrune c.instant) (run settings now passes) := by
  have hactions : Only (Call.IsPrune c.instant)
      (Call.pruneTerminalBefore c.instant settings.retentionBatchSize).perform :=
    only_perform (Eq.refl c.instant)
  unfold run
  rw [hc, lift_ok, pure_bind']
  refine (only_drain hactions passes 0).bind fun _ => ?_
  refine (only_lift _).bind fun c₂ => ?_
  refine (only_drain (only_perform trivial) passes 0).bind fun _ => ?_
  refine (only_lift _).bind fun c₃ => ?_
  exact (only_drain (only_perform trivial) passes 0).bind fun _ => only_pure _

theorem Call.IsPrune.keptFrom {c : Call} (hc : c.IsPrune bound) (env : Environment) (w : World) :
    KeptFrom bound w.store.remediationActions (handle env c w).2.store.remediationActions := by
  rcases handle_cases env c w with ⟨e, -, heq⟩ | ⟨-, heq⟩ <;> rw [heq]
  · exact .refl _ _
  · rw [World.after_actions]
    cases c with
    | pruneTerminalBefore cutoff' batchSize =>
      obtain rfl : cutoff' = bound := hc
      exact keptFrom_pruneTerminalBefore ..
    | pruneResolvedBefore | pruneSamplesBefore => exact .refl _ _
    | _ => exact hc.elim

/-- A sweep that cannot compute its cutoff prunes nothing. -/
theorem RetentionJob.run_of_error {e : PyError}
    (hc : cutoff settings.remediationActionsRetentionDays now = .error e) (passes : ℕ) :
    (run settings now passes).run (handle env) w = (.error e, w) := by
  unfold run
  rw [hc]
  rfl

theorem RetentionJob.keptFrom_run {c : Datetime}
    (hc : cutoff settings.remediationActionsRetentionDays now = .ok c) (passes : ℕ) :
    KeptFrom c.instant w.store.remediationActions
      ((run settings now passes).run (handle env) w).2.store.remediationActions :=
  ((only_prunes hc passes).runs
    (fun w' => KeptFrom c.instant w.store.remediationActions w'.store.remediationActions)
    (fun _ w' hcall h => h.trans (hcall.keptFrom env w')) (.refl _ _)).run

theorem RetentionJob.instant_of_cutoff {days : ℕ} {c : Datetime} (hc : cutoff days now = .ok c) :
    c.instant = now.instant - days * Timedelta.day := by
  unfold cutoff Timedelta.ofDays Timedelta.checked at hc
  split_ifs at hc
  · exact Datetime.instant_of_minus hc
  · cases hc

end Kept

/-! ## What the Safety Limits make of the tables -/

/-- Whether the hourly limit blocks. -/
def RemediationEngine.rateBlocks (e : RemediationEngine) (σ : Store) (nodeId : String)
    (now : Datetime) : Except PyError Bool :=
  (now.minus Timedelta.hour).map fun since =>
    Decidable.decide (e.maxActionsPerNodePerHour ≤ countRecentActions σ nodeId since)

/-- Whether a Safety Limit blocks. -/
def RemediationEngine.blocks (e : RemediationEngine) (scan : Scan) (σ : Store)
    (nodeId playbookName : String) (now : Datetime) : Except PyError Bool :=
  match elapsedSince now (findLastAction scan σ nodeId playbookName) with
  | .error err => .error err
  | .ok none => e.rateBlocks σ nodeId now
  | .ok (some elapsed) =>
    if elapsed < e.cooldownSeconds then .ok true else e.rateBlocks σ nodeId now

/-- The status that `decide` records, if it records a decision. -/
def RemediationEngine.choice (e : RemediationEngine) (env : Environment) (w : World)
    (nodeId : String) (alertId : ℕ) (ruleKey : String) (now : Datetime) :
    Except PyError (Option RemediationActionStatus) :=
  ((e.decide nodeId alertId ruleKey now).run (handle env) w).1.map
    (Option.map RemediationActionRecord.status)

section Choice

variable {e : RemediationEngine} {env : Environment} {w : World} {nodeId : String}
  {now : Datetime}

theorem run_checkRateLimit (henv : env.Faultless) :
    ((e.checkRateLimit nodeId now).run (handle env) w).1.map Option.isSome =
      e.rateBlocks w.store nodeId now := by
  unfold RemediationEngine.checkRateLimit RemediationEngine.rateBlocks
  rcases now.minus Timedelta.hour with err | since
  · rfl
  · rw [lift_ok, pure_bind', run_perform_bind (henv _ _) rfl]
    split_ifs with hmax
    · simp [hmax, Except.map]
    · simp [hmax, Except.map]

theorem run_checkSafetyLimits (henv : env.Faultless) (playbook : PlaybookDefinition) :
    ((e.checkSafetyLimits nodeId playbook now).run (handle env) w).1.map Option.isSome =
      e.blocks (env.scan w.calls) w.store nodeId playbook.playbookName now := by
  unfold RemediationEngine.checkSafetyLimits RemediationEngine.blocks
  rw [run_perform_bind (henv _ _) rfl]
  rcases RemediationEngine.elapsedSince now (findLastAction (env.scan w.calls) w.store nodeId
    playbook.playbookName) with err | _ | elapsed
  · rfl
  · exact run_checkRateLimit henv
  · simp only [lift_ok, pure_bind']
    split_ifs
    · rfl
    · exact run_checkRateLimit henv

/-- The choice is a function of the tables. -/
theorem choice_eq (henv : env.Faultless) (alertId : ℕ) (ruleKey : String) :
    e.choice env w nodeId alertId ruleKey now =
      if e.enabled then
        match e.byRuleKey? ruleKey with
        | none => .ok none
        | some playbook =>
          (e.blocks (env.scan w.calls) w.store nodeId playbook.playbookName now).map fun blocked =>
            some (if blocked then .blockedBySafetyLimit else .dispatched)
      else .ok none := by
  unfold RemediationEngine.choice RemediationEngine.decide
  split_ifs
  swap
  · rfl
  rcases e.byRuleKey? ruleKey with _ | playbook
  · rfl
  · dsimp only
    rw [← run_checkSafetyLimits henv playbook, run_bind]
    rcases (e.checkSafetyLimits nodeId playbook now).run (handle env) w with ⟨err | reason, w₁⟩
    · rfl
    · dsimp only
      rw [run_perform_bind (henv _ _) rfl]
      cases reason <;> rfl

end Choice

/-! ## With and without the sweep -/

section Compare

variable {e : RemediationEngine} {σ σ' : Store} {bound : Instant} {nodeId playbookName : String}
  {now : Datetime} {scan scan' : Scan}

/-- The last hour is kept. -/
theorem KeptFrom.rateBlocks (h : KeptFrom bound σ.remediationActions σ'.remediationActions)
    (hbound : bound ≤ now.instant - Timedelta.hour) :
    e.rateBlocks σ' nodeId now = e.rateBlocks σ nodeId now := by
  unfold RemediationEngine.rateBlocks
  rcases hsince : now.minus Timedelta.hour with err | since
  · rfl
  · have hle : bound ≤ since.instant := (Datetime.instant_of_minus hsince).symm ▸ hbound
    obtain ⟨p, hrows, hp⟩ := h
    have hcount : countRecentActions σ' nodeId since = countRecentActions σ nodeId since := by
      unfold countRecentActions
      rw [hrows, List.countP_filter]
      refine List.countP_congr fun a ha => ?_
      simp only [Bool.and_eq_true, decide_eq_true_eq]
      exact and_iff_left_of_imp fun hrecent => hp a ha (hle.trans hrecent.2)
    simp only [Except.map, hcount]

theorem of_findLastAction {last : RemediationActionRecord}
    (hlast : findLastAction scan σ nodeId playbookName = some last) :
    last ∈ σ.remediationActions.rows ∧ last.nodeId = nodeId ∧ last.playbookName = playbookName := by
  have hmem := List.mem_filter.1 (mem_of_latest hlast)
  have htest := hmem.2
  simp only [Bool.and_eq_true, beq_iff_eq] at htest
  exact ⟨mem_reorder.1 hmem.1, htest⟩

theorem le_findLastAction {last a : RemediationActionRecord}
    (hlast : findLastAction scan σ nodeId playbookName = some last)
    (ha : a ∈ σ.remediationActions.rows) (hnode : a.nodeId = nodeId)
    (hplaybook : a.playbookName = playbookName) : a.createdAt ≤ last.createdAt := by
  refine le_of_latest hlast (List.mem_filter.2 ⟨mem_reorder.2 ha, ?_⟩)
  simp [hnode, hplaybook]

theorem exists_findLastAction (scan : Scan) {a : RemediationActionRecord}
    (ha : a ∈ σ.remediationActions.rows) (hnode : a.nodeId = nodeId)
    (hplaybook : a.playbookName = playbookName) :
    ∃ last, findLastAction scan σ nodeId playbookName = some last := by
  refine Option.ne_none_iff_exists'.1 fun hnone => ?_
  have hempty := latest_eq_none_iff.1 hnone
  have hmem : a ∈ (reorder scan σ.remediationActions.rows).filter fun a =>
      a.nodeId == nodeId && a.playbookName == playbookName :=
    List.mem_filter.2 ⟨mem_reorder.2 ha, by simp [hnode, hplaybook]⟩
  rw [hempty] at hmem
  cases hmem

theorem findLastAction_of_nil (hrows : σ.remediationActions.rows = []) :
    findLastAction scan σ nodeId playbookName = none := by
  by_contra hsome
  obtain ⟨last, hlast⟩ := Option.ne_none_iff_exists'.1 hsome
  have hmem := (of_findLastAction hlast).1
  rw [hrows] at hmem
  cases hmem

/-- The hourly limit lets an action through when there is none. -/
theorem rateBlocks_of_nil (hrows : σ.remediationActions.rows = [])
    (hhour : Timedelta.hour ≤ now.wall) (hmax : 1 ≤ e.maxActionsPerNodePerHour) :
    e.rateBlocks σ nodeId now = .ok false := by
  have hle := now.wall_le
  have hpositive : 0 < Timedelta.hour := by decide
  unfold RemediationEngine.rateBlocks Datetime.minus countRecentActions
  rw [dif_pos ⟨by linarith, by linarith⟩, hrows]
  have hnot : ¬ e.maxActionsPerNodePerHour ≤ 0 := by omega
  simp [Except.map, hnot]

/-- The cooldown blocks. -/
theorem blocks_of_recent (hutc : now.IsUtc) {last : RemediationActionRecord}
    (hlast : findLastAction scan σ nodeId playbookName = some last)
    (hrecent : Timedelta.totalSeconds (now.instant - last.createdAt) < e.cooldownSeconds) :
    e.blocks scan σ nodeId playbookName now = .ok true := by
  unfold RemediationEngine.blocks
  rw [hlast, RemediationEngine.elapsedSince, Datetime.since_of_isUtc hutc]
  exact if_pos hrecent

/-- An action that is no longer within the cooldown leaves the hourly limit alone to decide. -/
theorem blocks_of_old (hutc : now.IsUtc) {last : RemediationActionRecord}
    (hlast : findLastAction scan σ nodeId playbookName = some last)
    (hold : e.cooldownSeconds ≤ Timedelta.totalSeconds (now.instant - last.createdAt)) :
    e.blocks scan σ nodeId playbookName now = e.rateBlocks σ nodeId now := by
  have hactive : ¬ Timedelta.totalSeconds (now.instant - last.createdAt) < e.cooldownSeconds :=
    (Double.not_lt_iff_le (Timedelta.totalSeconds_ne_nan _) (Double.ne_nan_of_le_left hold)).2 hold
  unfold RemediationEngine.blocks
  rw [hlast, RemediationEngine.elapsedSince, Datetime.since_of_isUtc hutc]
  exact if_neg hactive

theorem blocks_of_none (hnone : findLastAction scan σ nodeId playbookName = none) :
    e.blocks scan σ nodeId playbookName now = e.rateBlocks σ nodeId now := by
  unfold RemediationEngine.blocks
  rw [hnone]
  rfl

/-- What was pruned is not missed, if it was too old for both limits. -/
theorem KeptFrom.blocks (h : KeptFrom bound σ.remediationActions σ'.remediationActions)
    (hutc : now.IsUtc) (hbound : bound ≤ now.instant - Timedelta.hour)
    (hold : ∀ t < bound, e.cooldownSeconds ≤ Timedelta.totalSeconds (now.instant - t)) :
    e.blocks scan' σ' nodeId playbookName now = e.blocks scan σ nodeId playbookName now := by
  have hrate : e.rateBlocks σ' nodeId now = e.rateBlocks σ nodeId now := h.rateBlocks hbound
  rcases hlast : findLastAction scan σ nodeId playbookName with _ | last
  · have hnone : findLastAction scan' σ' nodeId playbookName = none := by
      by_contra hsome
      obtain ⟨last', hlast'⟩ := Option.ne_none_iff_exists'.1 hsome
      obtain ⟨hmem, hnode, hplaybook⟩ := of_findLastAction hlast'
      obtain ⟨last, hlast₁⟩ := exists_findLastAction scan (h.subset hmem) hnode hplaybook
      cases hlast.symm.trans hlast₁
    rw [blocks_of_none hlast, blocks_of_none hnone, hrate]
  · obtain ⟨hmem, hnode, hplaybook⟩ := of_findLastAction hlast
    by_cases hkept : bound ≤ last.createdAt
    · -- the last action is still there, and still the last
      have hmem' := h.mem hmem hkept
      obtain ⟨last', hlast'⟩ := exists_findLastAction scan' hmem' hnode hplaybook
      obtain ⟨hmem₁, hnode₁, hplaybook₁⟩ := of_findLastAction hlast'
      have hsame : last'.createdAt = last.createdAt :=
        le_antisymm (le_findLastAction hlast (h.subset hmem₁) hnode₁ hplaybook₁)
          (le_findLastAction hlast' hmem' hnode hplaybook)
      unfold RemediationEngine.blocks RemediationEngine.elapsedSince
      simp only [hlast, hlast', hsame, hrate]
    · have hearly := not_le.1 hkept
      rw [blocks_of_old hutc hlast (hold _ hearly)]
      rcases hlast' : findLastAction scan' σ' nodeId playbookName with _ | last'
      · rw [blocks_of_none hlast', hrate]
      · obtain ⟨hmem₁, hnode₁, hplaybook₁⟩ := of_findLastAction hlast'
        have hle := le_findLastAction hlast (h.subset hmem₁) hnode₁ hplaybook₁
        rw [blocks_of_old hutc hlast' (hold _ (hle.trans_lt hearly)), hrate]

end Compare

/-! ## Runs on the Collector's clock -/

/-- The time an operation works with. -/
def Operation.time : Operation → Instant
  | evaluateAndApply _ _ _ collectedAt => collectedAt.instant
  | ingest _ payload _ => payload.collectedAt.instant
  | acknowledge _ _ now => now
  | reportResult _ _ now => now
  | reconciliation _ now => now.instant
  | retention _ now _ => now.instant
  | staleness _ _ now => now.instant

/-- The time is a reading of the Collector's clock. -/
def Operation.OnClock : Operation → Prop
  | evaluateAndApply _ _ _ collectedAt => collectedAt.IsUtc
  | ingest _ payload receivedAt =>
    payload.collectedAt.IsUtc ∧ payload.collectedAt.instant = receivedAt
  | reconciliation _ now => now.IsUtc
  | retention _ now _ => now.IsUtc
  | staleness _ _ now => now.IsUtc
  | _ => True

/-- All timestamps of the run are taken from the Collector's clock, which reads `now` after it. -/
structure OnCollectorClock (ops : List Operation) (now : Datetime) : Prop where
  utc : now.IsUtc
  onClock : ∀ op ∈ ops, op.OnClock
  ordered : ops.Pairwise fun op op' => op.time ≤ op'.time
  past : ∀ op ∈ ops, op.time ≤ now.instant

/-- `get_remediation_engine`, which does not look at the rules. -/
def CollectorSettings.remediationEngine (settings : CollectorSettings) (policy : RemediationPolicy) :
    RemediationEngine :=
  Deployment.remediationEngine ⟨settings, ⟨[], [], List.nodup_nil, List.nodup_nil⟩, policy⟩

/-- Right after a retention sweep, a decision is the same as without it. -/
def SameChoice (settings : CollectorSettings) (policy : RemediationPolicy) (env : Environment)
    (w : World) (nodeId : String) (alertId : ℕ) (ruleKey : String) (now : Datetime) (passes : ℕ) :
    Prop :=
  let e := settings.remediationEngine policy
  e.choice env ((RetentionJob.run settings now passes).run (handle env) w).2 nodeId alertId ruleKey
    now = e.choice env w nodeId alertId ruleKey now

/-- Retention never weakens the Safety Limits, whatever has happened before. -/
def NeverWeakens (settings : CollectorSettings) : Prop :=
  ∀ (policy : RemediationPolicy) (env₀ env : Environment) (ops : List Operation) (nodeId : String)
    (alertId : ℕ) (ruleKey : String) (now : Datetime) (passes : ℕ), env.Faultless →
      OnCollectorClock ops now →
        SameChoice settings policy env (Operation.runAll env₀ ops .fresh) nodeId alertId ruleKey now
          passes

/-- No action old enough to be pruned is within the cooldown; or the retention goes back behind
the year 1, and nothing is ever pruned. -/
def CollectorSettings.CooldownIsRetained (settings : CollectorSettings) : Prop :=
  settings.remediationCooldownSeconds ≤
    Timedelta.totalSeconds (settings.remediationActionsRetentionDays * Timedelta.day + 1) ∨
  3652059 ≤ settings.remediationActionsRetentionDays

section Main

variable {settings : CollectorSettings} {env : Environment} {w : World} {now : Datetime}

theorem RetentionJob.exists_cutoff_iff {days : ℕ} :
    (∃ c, cutoff days now = .ok c) ↔ days * Timedelta.day ≤ now.wall :=
  now.exists_minus_checked_iff (mul_nonneg (Int.natCast_nonneg days) (by decide))

theorem RetentionJob.exists_cutoff {days : ℕ} (h : days * Timedelta.day ≤ now.wall) :
    ∃ c, cutoff days now = .ok c := exists_cutoff_iff.2 h

theorem RetentionJob.days_lt_of_cutoff {days : ℕ} {c : Datetime} (hc : cutoff days now = .ok c) :
    days < 3652059 := by
  have hwall : (days : ℤ) * Timedelta.day ≤ now.wall := exists_cutoff_iff.1 ⟨c, hc⟩
  have hle := now.wall_le
  simp only [maxWall, Timedelta.day, Timedelta.hour, Timedelta.second] at hwall hle
  omega

/-- If every action that may be pruned is too old, a sweep makes no difference. -/
theorem sameChoice_of_retained (hsettings : settings.CooldownIsRetained) (henv : env.Faultless)
    (hutc : now.IsUtc) (policy : RemediationPolicy) (nodeId : String) (alertId : ℕ)
    (ruleKey : String) (passes : ℕ) :
    SameChoice settings policy env w nodeId alertId ruleKey now passes := by
  unfold SameChoice
  rcases hc : RetentionJob.cutoff settings.remediationActionsRetentionDays now with err | c
  · rw [RetentionJob.run_of_error hc]
  · have hcutoff := RetentionJob.instant_of_cutoff hc
    have hcooldown := hsettings.resolve_right (not_le.2 (RetentionJob.days_lt_of_cutoff hc))
    have hdays : (1 : ℤ) ≤ settings.remediationActionsRetentionDays := by
      exact_mod_cast settings.remediationActionsRetentionDays_ge
    have hkept : KeptFrom c.instant w.store.remediationActions ((RetentionJob.run settings now
        passes).run (handle env) w).2.store.remediationActions := RetentionJob.keptFrom_run hc passes
    have hbound : c.instant ≤ now.instant - Timedelta.hour := by
      rw [hcutoff]
      unfold Timedelta.day Timedelta.hour Timedelta.second
      linarith
    have hold : ∀ t < c.instant, settings.remediationCooldownSeconds ≤
        Timedelta.totalSeconds (now.instant - t) := by
      intro t ht
      refine Double.le_trans hcooldown (Timedelta.totalSeconds_mono ?_)
      rw [hcutoff] at ht
      have hnext := Int.add_one_le_of_lt ht
      linarith
    simp only [choice_eq henv]
    rcases (settings.remediationEngine policy).byRuleKey? ruleKey with _ | playbook
    · rfl
    · dsimp only
      rw [hkept.blocks hutc hbound hold]

/-- A sweep empties a table with a single row that may be pruned. -/
theorem RetentionJob.rows_run_of_singleton (henv : env.Faultless) {c : Datetime}
    (hc : cutoff settings.remediationActionsRetentionDays now = .ok c) {a : RemediationActionRecord}
    (hrows : w.store.remediationActions.rows = [a]) (hterminal : a.status ≠ .dispatched)
    (hold : a.createdAt < c.instant) (passes : ℕ) :
    ((run settings now (passes + 1)).run (handle env) w).2.store.remediationActions.rows = [] := by
  have honly : Only (Call.IsPrune c.instant) (run settings now (passes + 1)) :=
    only_prunes hc (passes + 1)
  have hprogram : ∃ rest : ℕ → Repo RetentionRunStats, run settings now (passes + 1) =
      (Call.pruneTerminalBefore c.instant settings.retentionBatchSize).perform >>= rest := by
    unfold run
    rw [hc, lift_ok, pure_bind', drain, bind_assoc]
    exact ⟨_, rfl⟩
  obtain ⟨rest, hrest⟩ := hprogram
  rw [hrest] at honly ⊢
  rw [run_perform_bind (henv _ _) rfl]
  rw [perform_bind] at honly
  have hlater : ∀ deleted, Only (Call.IsPrune c.instant) (rest deleted) := fun deleted =>
    honly.2 (.ok deleted)
  have hfirst : (w.after (env.scan w.calls) (.pruneTerminalBefore c.instant
      settings.retentionBatchSize)).store.remediationActions.rows = [] := by
    have hscan : reorder (env.scan w.calls) [a] = [a] :=
      List.perm_singleton.1 (reorder_perm _ _)
    have hbatch : [a.id].take settings.retentionBatchSize = [a.id] :=
      List.take_of_length_le settings.retentionBatchSize_ge
    simp [World.after_actions, Call.actions, pruneTerminalBefore, hscan, hrows, hterminal, hold,
      hbatch]
  refine ((hlater _).runs (fun w' : World => w'.store.remediationActions.rows = [])
    (fun call w' hcall hempty => ?_) hfirst).run
  obtain ⟨p, hrows', -⟩ := hcall.keptFrom env w'
  rw [hrows', hempty]
  rfl

end Main

namespace Scenario

/-- A full hour of the first day of the year 1. -/
def firstDay (hour : Fin 24) : Datetime :=
  .utc (hour.val * Timedelta.hour) (by unfold Timedelta.hour Timedelta.second; positivity) (by
    have h := hour.isLt
    show (hour.val * 3600000000 : ℤ) ≤ 3652059 * 86400000000 - 1
    omega)

/-- A service that remediates an alert as soon as it fires again. -/
def eagerService : AlertEvaluationService :=
  { service with escalationAfterSeconds := 0, remediationAfterSeconds := 0 }

def firstPush (hour : Fin 24) : Operation :=
  .ingest eagerService ⟨"node-1", firstDay hour, [⟨.cpuUsagePercent, 95, "percent", []⟩], []⟩
    (firstDay hour).instant

/-- An action is dispatched and executed at two o'clock. -/
def executedEarly : List Operation :=
  [firstPush 1, firstPush 2, .reportResult 1 ⟨.executed, none⟩ (firstDay 2).instant]

def earlyAction : RemediationActionRecord where
  id := 1
  nodeId := "node-1"
  alertId := 1
  ruleKey := "threshold:cpu.usage_percent"
  playbookName := "relax"
  actionType := .noop
  parameters := []
  status := .executed
  reason := none
  createdAt := (firstDay 2).instant
  completedAt := some (firstDay 2).instant

theorem rows_executedEarly :
    (Operation.runAll .calm executedEarly .fresh).store.remediationActions.rows = [earlyAction] := by
  decide +kernel

theorem onCollectorClock_executedEarly {now : Datetime} (hutc : now.IsUtc)
    (hpast : 2 * Timedelta.hour ≤ now.instant) : OnCollectorClock executedEarly now where
  utc := hutc
  onClock op hop := by
    simp only [executedEarly, List.mem_cons, List.not_mem_nil, or_false] at hop
    obtain rfl | rfl | rfl := hop
    · exact ⟨rfl, rfl⟩
    · exact ⟨rfl, rfl⟩
    · trivial
  ordered := by decide +kernel
  past op hop := by
    refine le_trans ?_ hpast
    revert op
    decide +kernel

end Scenario

section Main

variable {settings : CollectorSettings}

open Scenario

theorem choice_deployment (hrem : settings.remediationEnabled = true) {now : Datetime}
    {w : World} : (settings.remediationEngine deployment.remediationPolicy).choice .calm w "node-1" 1
        "threshold:cpu.usage_percent" now =
      ((settings.remediationEngine deployment.remediationPolicy).blocks
        (Environment.calm.scan w.calls) w.store "node-1" "relax" now).map fun blocked =>
          some (if blocked then .blockedBySafetyLimit else .dispatched) := by
  have henabled : (settings.remediationEngine deployment.remediationPolicy).enabled = true := hrem
  rw [choice_eq Environment.calm_faultless, if_pos henabled]
  rfl

/-- With the early action in the log the cooldown blocks. -/
theorem choice_of_earlyAction (hrem : settings.remediationEnabled = true) {now : Datetime}
    (hutc : now.IsUtc) {w : World} (hrows : w.store.remediationActions.rows = [earlyAction])
    (hcooldown : ¬ settings.remediationCooldownSeconds ≤
      Timedelta.totalSeconds (now.instant - earlyAction.createdAt)) :
    (settings.remediationEngine deployment.remediationPolicy).choice .calm w "node-1" 1
      "threshold:cpu.usage_percent" now = .ok (some .blockedBySafetyLimit) := by
  have hmem : earlyAction ∈ w.store.remediationActions.rows := by
    rw [hrows]
    exact List.mem_singleton_self _
  obtain ⟨last, hlast⟩ : ∃ last, findLastAction (Environment.calm.scan w.calls) w.store "node-1"
      "relax" = some last := exists_findLastAction _ hmem rfl rfl
  obtain rfl : last = earlyAction := List.mem_singleton.1 (hrows ▸ (of_findLastAction hlast).1)
  have hnan : settings.remediationCooldownSeconds ≠ .nan :=
    Double.ne_nan_of_le_right settings.remediationCooldownSeconds_ge
  have hrecent : Timedelta.totalSeconds (now.instant - earlyAction.createdAt) <
      (settings.remediationEngine deployment.remediationPolicy).cooldownSeconds := by
    by_contra hnot
    exact hcooldown ((Double.not_lt_iff_le (Timedelta.totalSeconds_ne_nan _) hnan).1 hnot)
  rw [choice_deployment hrem, blocks_of_recent hutc hlast hrecent]
  rfl

/-- With an empty log nothing blocks. -/
theorem choice_of_no_actions (hrem : settings.remediationEnabled = true) {now : Datetime}
    (hhour : Timedelta.hour ≤ now.wall) {w : World}
    (hempty : w.store.remediationActions.rows = []) :
    (settings.remediationEngine deployment.remediationPolicy).choice .calm w "node-1" 1
      "threshold:cpu.usage_percent" now = .ok (some .dispatched) := by
  rw [choice_deployment hrem, blocks_of_none (findLastAction_of_nil hempty),
    rateBlocks_of_nil hempty hhour settings.maxRemediationsPerNodePerHour_ge]
  rfl

/-- If an action that may be pruned can still be within the cooldown, a sweep lifts it. -/
theorem not_neverWeakens (hrem : settings.remediationEnabled = true)
    (hsettings : ¬ settings.CooldownIsRetained) : ¬ NeverWeakens settings := by
  intro h
  obtain ⟨hcooldown, hdays⟩ := not_or.1 hsettings
  set days := settings.remediationActionsRetentionDays with hdays_eq
  have hdays : (days : ℤ) ≤ 3652058 := by omega
  have hspan : (0 : ℤ) ≤ days * Timedelta.day := mul_nonneg (Int.natCast_nonneg days) (by decide)
  have hhour : 0 < Timedelta.hour := by decide
  -- one microsecond too old to be kept
  have hnonneg : 0 ≤ 2 * Timedelta.hour + (days * Timedelta.day + 1) := by linarith
  have hle : 2 * Timedelta.hour + (days * Timedelta.day + 1) ≤ maxWall := by
    unfold maxWall Timedelta.day Timedelta.hour Timedelta.second
    linarith
  set now := Datetime.utc _ hnonneg hle with hnow
  have hwall : now.wall = 2 * Timedelta.hour + (days * Timedelta.day + 1) := rfl
  have hinstant : now.instant = 2 * Timedelta.hour + (days * Timedelta.day + 1) :=
    Datetime.instant_utc hnonneg hle
  have hutc : now.IsUtc := rfl
  obtain ⟨c, hc⟩ : ∃ c, RetentionJob.cutoff days now = .ok c :=
    RetentionJob.exists_cutoff (by rw [hwall]; linarith)
  have hsame := h deployment.remediationPolicy .calm .calm executedEarly "node-1" 1
    "threshold:cpu.usage_percent" now 1 Environment.calm_faultless
    (onCollectorClock_executedEarly hutc (by rw [hinstant]; linarith))
  have hrows := rows_executedEarly
  generalize Operation.runAll .calm executedEarly .fresh = w at hsame hrows
  have hcreated : earlyAction.createdAt = 2 * Timedelta.hour := by decide
  have hage : now.instant - earlyAction.createdAt = days * Timedelta.day + 1 := by
    rw [hinstant, hcreated]
    ring
  have hbefore := choice_of_earlyAction hrem hutc hrows (hage ▸ hcooldown)
  have hold : earlyAction.createdAt < c.instant := by
    rw [hcreated, RetentionJob.instant_of_cutoff hc, hinstant]
    linarith
  have hempty := RetentionJob.rows_run_of_singleton (w := w) Environment.calm_faultless hc hrows
    (by decide) hold 0
  have hafter := choice_of_no_actions hrem (by rw [hwall]; linarith) hempty
  rw [SameChoice, hbefore, hafter] at hsame
  cases hsame

/-- Retention never weakens the Safety Limits of these settings, exactly if no action old enough to
be pruned is still within the cooldown. -/
theorem neverWeakens_iff (hrem : settings.remediationEnabled = true) :
    NeverWeakens settings ↔ settings.CooldownIsRetained := by
  constructor
  · intro h
    by_contra hsettings
    exact not_neverWeakens hrem hsettings h
  · intro hsettings policy env₀ env ops nodeId alertId ruleKey now passes henv hclock
    exact sameChoice_of_retained hsettings henv hclock.utc policy nodeId alertId ruleKey passes

end Main

namespace Scenario

/-- Both are enabled, with the defaults for everything else. -/
def retainingSettings : CollectorSettings :=
  { CollectorSettings.default with
    remediationEnabled := true
    retentionEnabled := true
    alertRetention_le := by decide
    escalation_le_remediation := CollectorSettings.default_ordered true }

theorem neverWeakens_retainingSettings : NeverWeakens retainingSettings :=
  (neverWeakens_iff rfl).2 (.inl (by decide +kernel))

/-- Audit rows are kept for one day, and a playbook has a cooldown of two. -/
def forgetfulSettings : CollectorSettings :=
  { CollectorSettings.default with
    remediationEnabled := true
    remediationCooldownSeconds := 172800
    remediationCooldownSeconds_ge := by decide +kernel
    retentionEnabled := true
    resolvedAlertsRetentionDays := 1
    resolvedAlertsRetentionDays_ge := Nat.one_pos
    remediationActionsRetentionDays := 1
    remediationActionsRetentionDays_ge := Nat.one_pos
    alertRetention_le := by decide
    escalation_le_remediation := CollectorSettings.default_ordered true }

/-- An action is dispatched at 2000 seconds, and executed. -/
def executedAction : List Operation :=
  [push 0 95, push 1000 96, push 2000 97, .reportResult 1 ⟨.executed, none⟩ (clock 2100).instant]

/-- A day and a half later. -/
def laterOn : Datetime :=
  .utc (738001 * Timedelta.day + 12 * Timedelta.hour) (by decide) (by decide)

/-- Without the sweep the second decision is blocked; right after it, it is dispatched. -/
theorem not_neverWeakens_forgetfulSettings : ¬ ∀ settings : CollectorSettings,
    settings.retentionEnabled = true → settings.remediationEnabled = true →
      NeverWeakens settings := by
  intro h
  have hclock : OnCollectorClock executedAction laterOn := by
    refine ⟨rfl, fun op hop => ?_, by decide +kernel, ?_⟩
    · simp only [executedAction, List.mem_cons, List.not_mem_nil, or_false] at hop
      obtain rfl | rfl | rfl | rfl := hop
      · exact ⟨rfl, rfl⟩
      · exact ⟨rfl, rfl⟩
      · exact ⟨rfl, rfl⟩
      · trivial
    · decide +kernel
  have hsame := h forgetfulSettings rfl rfl deployment.remediationPolicy .calm .calm executedAction
    "node-1" 1 "threshold:cpu.usage_percent" laterOn 2 Environment.calm_faultless hclock
  exact absurd hsame (by unfold SameChoice; decide +kernel)

end Scenario

end ClusterPulse
