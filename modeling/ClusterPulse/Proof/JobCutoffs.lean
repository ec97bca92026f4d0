import ClusterPulse.Proof.GroundTruth
import ClusterPulse.Proof.RetentionSweep

/-!
# Cutoffs before the year 1

Both jobs subtract a configured duration from the time of the sweep.  The settings bound these
durations from below only, and a sweep comes to its end exactly if none of them reaches back behind
the year 1.
-/

namespace ClusterPulse

open RemediationActionRepository Prog

/-- The microseconds of `timedelta(seconds=q)`. -/
def Timedelta.micros (q : ℚ) : Timedelta :=
  Double.truncate q * second +
    Double.roundEven (Double.significant ((q - Double.truncate q) * 1000000))

theorem Timedelta.ofSeconds_fin (q : ℚ) : ofSeconds (.fin q) = checked (micros q) := rfl

theorem Timedelta.micros_nonneg {q : ℚ} (hq : 0 ≤ q) : 0 ≤ micros q := by
  have htruncate : Double.truncate q = ⌊q⌋ := if_pos hq
  have hfraction : 0 ≤ (q - ⌊q⌋) * 1000000 :=
    mul_nonneg (sub_nonneg.2 (Int.floor_le q)) (by norm_num)
  have hround : 0 ≤ Double.roundEven (Double.significant ((q - ⌊q⌋) * 1000000)) := by
    have hmono := Double.roundEven_mono (Double.significant_nonneg hfraction)
    rwa [show (0 : ℚ) = ((0 : ℤ) : ℚ) from rfl, Double.roundEven_intCast] at hmono
  have hwhole : 0 ≤ ⌊q⌋ * second := mul_nonneg (Int.floor_nonneg.2 hq) (by decide)
  unfold micros
  rw [htruncate]
  exact add_nonneg hwhole hround

section Jobs

variable {env : Environment} {settings : CollectorSettings} {now : Datetime} {w : World} {q : ℚ}

/-! ## Retention -/

/-- The sweep goes through all three tables and returns. -/
def RetentionJob.Completes (env : Environment) (settings : CollectorSettings) (now : Datetime)
    (w : World) : Prop :=
  ∃ n, ∀ passes ≥ n, ∃ stats w', (run settings now passes).run (handle env) w = (.ok stats, w')

/-- A sweep that returns has computed its three cutoffs. -/
theorem RetentionJob.runs_cutoffs (env : Environment) (settings : CollectorSettings)
    (now : Datetime) (w : World) (passes : ℕ) :
    Runs (handle env) (fun _ _ => True) (run settings now passes) w (Ends
      (fun _ _ => settings.remediationActionsRetentionDays * Timedelta.day ≤ now.wall ∧
        settings.resolvedAlertsRetentionDays * Timedelta.day ≤ now.wall ∧
        settings.metricsRetentionDays * Timedelta.day ≤ now.wall) fun _ _ => True) := by
  have hlift : ∀ (days : ℕ) (w : World), Runs (handle env) (fun _ _ => True)
      (lift (cutoff days now)) w (Ends (fun _ _ => days * Timedelta.day ≤ now.wall)
        fun _ _ => True) := by
    intro days w
    refine runs_lift ?_
    cases hc : cutoff days now with
    | ok c => exact exists_cutoff_iff.1 ⟨c, hc⟩
    | error e => trivial
  have hdrain : ∀ (prune : Repo ℕ) (w : World), Runs (handle env) (fun _ _ => True)
      (drain prune passes 0) w (Ends (fun _ _ => True) fun _ _ => True) := by
    intro prune w
    refine (runs_of_forall (fun _ _ => trivial) _).post fun r _ _ => ?_
    cases r <;> trivial
  refine (hlift _ w).andThen fun c₁ w₁ h₁ => (hdrain _ w₁).andThen fun _ w₂ _ => ?_
  refine (hlift _ w₂).andThen fun c₂ w₃ h₂ => (hdrain _ w₃).andThen fun _ w₄ _ => ?_
  exact (hlift _ w₄).andThen fun c₃ w₅ h₃ => (hdrain _ w₅).andThen fun _ _ _ => ⟨h₁, h₂, h₃⟩

theorem RetentionJob.completes_iff (henv : env.Faultless) :
    Completes env settings now w ↔
      settings.remediationActionsRetentionDays * Timedelta.day ≤ now.wall ∧
        settings.resolvedAlertsRetentionDays * Timedelta.day ≤ now.wall ∧
        settings.metricsRetentionDays * Timedelta.day ≤ now.wall := by
  constructor
  · rintro ⟨n, hn⟩
    obtain ⟨stats, w', hrun⟩ := hn n le_rfl
    have hcutoffs := (runs_cutoffs env settings now w n).run
    rw [hrun] at hcutoffs
    exact hcutoffs
  · rintro ⟨hactions, halerts, hsamples⟩
    obtain ⟨n, hn⟩ := sweepsTo_retained henv (hasCutoffs hactions halerts hsamples) w
    refine ⟨n, fun passes hpasses => ?_⟩
    obtain ⟨stats, w', hrun, -⟩ := hn passes hpasses
    exact ⟨stats, w', hrun⟩

/-! ## Reconciliation -/

/-- The sweep goes through all dispatches and returns. -/
def ReconciliationJob.Completes (env : Environment) (settings : CollectorSettings) (now : Datetime)
    (w : World) : Prop :=
  ∃ timedOut w', (run settings now).run (handle env) w = (.ok timedOut, w')

theorem ReconciliationJob.exists_cutoff_iff (hq : 0 ≤ q) :
    (∃ c, cutoff (.fin q) now = .ok c) ↔ Timedelta.micros q ≤ now.wall := by
  unfold cutoff
  rw [Timedelta.ofSeconds_fin]
  exact now.exists_minus_checked_iff (Timedelta.micros_nonneg hq)

/-- The listed actions are marked one by one. -/
theorem ReconciliationJob.returns_timeOut (henv : env.Faultless) :
    ∀ (actions : List RemediationActionRecord) (timedOut : ℕ) (w : World),
      (∀ a ∈ actions, (w.store.remediationActions.get? a.id).isSome) →
      Returns env (actions.foldlM (timeOut now) timedOut) w fun _ _ => True
  | [], _, _, _ => trivial
  | a :: actions, timedOut, w, hactions => by
    have hmark := hactions a List.mem_cons_self
    obtain ⟨row, hrow⟩ := Option.isSome_iff_exists.1 hmark
    let mark : Call := .markResult a.id .failed (some timedOutReason) now.instant
    rw [List.foldlM_cons]
    unfold timeOut
    rw [bind_assoc]
    refine (Call.returns_exec henv mark fun _ => ⟨_, markResult_of_get? hrow ..⟩).andThen ?_
    rintro _ w₁ ⟨scan, -, hstore⟩
    refine ReconciliationJob.returns_timeOut henv actions (timedOut + 1) w₁ fun b hb => ?_
    have htable : w₁.store.remediationActions = mark.actions scan w.store := by
      rw [hstore]
      exact exec_actions ..
    have hold := hactions b (List.mem_cons_of_mem _ hb)
    simp only [htable, mark, Call.actions, Table.get?_modify]
    split_ifs
    · rw [hrow]
      rfl
    · exact hold

theorem ReconciliationJob.completes_iff (henv : env.Faultless)
    (htimeout : settings.remediationDispatchTimeoutSeconds = .fin q) :
    Completes env settings now w ↔ Timedelta.micros q ≤ now.wall := by
  have hq : 0 ≤ q := by
    have hpositive := settings.remediationDispatchTimeoutSeconds_gt
    rw [htimeout] at hpositive
    exact (Double.fin_lt_fin.1 hpositive).le
  have hcutoff : (∃ c, cutoff settings.remediationDispatchTimeoutSeconds now = .ok c) ↔
      Timedelta.micros q ≤ now.wall := by
    rw [htimeout]
    exact exists_cutoff_iff hq
  rw [← hcutoff]
  unfold Completes run
  constructor
  · rintro ⟨timedOut, w', hrun⟩
    cases hc : cutoff settings.remediationDispatchTimeoutSeconds now with
    | ok c => exact ⟨c, rfl⟩
    | error e =>
      rw [hc] at hrun
      cases hrun
  · rintro ⟨c, hc⟩
    rw [hc]
    have hsweep : Returns env ((Call.listDispatchedBefore c.instant).perform >>= fun actions =>
        actions.foldlM (timeOut now) 0) w fun _ _ => True := by
      refine (Call.returns_exec henv _ fun _ => ⟨_, rfl⟩).andThen ?_
      rintro actions w₁ ⟨scan, hlisted, hstore⟩
      obtain rfl := Except.ok.inj hlisted
      refine returns_timeOut henv _ 0 w₁ fun a ha => ?_
      have hmem := (List.mem_filter.1 ha).1
      rw [hstore]
      show (w.store.remediationActions.get? a.id).isSome
      rw [Table.get?_of_mem (mem_reorder.1 hmem)]
      rfl
    obtain ⟨timedOut, w', hrun, -⟩ := exists_run_of_returns hsweep
    exact ⟨timedOut, w', hrun⟩

/-! ## Both jobs -/

/-- The retention times and the dispatch timeout do not reach back behind the year 1. -/
structure CollectorSettings.WithinCalendar (settings : CollectorSettings) (timeout : ℚ)
    (now : Datetime) : Prop where
  actions : settings.remediationActionsRetentionDays * Timedelta.day ≤ now.wall
  alerts : settings.resolvedAlertsRetentionDays * Timedelta.day ≤ now.wall
  samples : settings.metricsRetentionDays * Timedelta.day ≤ now.wall
  timeout : Timedelta.micros timeout ≤ now.wall

/-- For every settings object with a finite timeout, every time and every store. -/
theorem jobs_complete_iff (henv : env.Faultless)
    (htimeout : settings.remediationDispatchTimeoutSeconds = .fin q) (now : Datetime) (w : World) :
    (RetentionJob.Completes env settings now w ∧ ReconciliationJob.Completes env settings now w) ↔
      settings.WithinCalendar q now := by
  rw [RetentionJob.completes_iff henv, ReconciliationJob.completes_iff henv htimeout]
  constructor
  · rintro ⟨⟨hactions, halerts, hsamples⟩, htimeout⟩
    exact ⟨hactions, halerts, hsamples, htimeout⟩
  · rintro ⟨hactions, halerts, hsamples, htimeout⟩
    exact ⟨⟨hactions, halerts, hsamples⟩, htimeout⟩

end Jobs

namespace Scenario

theorem jobs_complete_default :
    (RetentionJob.Completes .calm .default (clock 0) dueWorld ∧
        ReconciliationJob.Completes .calm .default (clock 0) dueWorld ↔
      CollectorSettings.default.WithinCalendar 1800 (clock 0)) ∧
    CollectorSettings.default.WithinCalendar 1800 (clock 0) :=
  ⟨jobs_complete_iff Environment.calm_faultless rfl (clock 0) dueWorld,
    by decide, by decide, by decide, by decide +kernel⟩

/-- Samples are to be kept forever. -/
def foreverSettings : CollectorSettings :=
  { CollectorSettings.default with
    retentionEnabled := true
    metricsRetentionDays := 1000000
    metricsRetentionDays_ge := by decide
    alertRetention_le := CollectorSettings.default_retained true }

/-- The sweep prunes actions and alerts and then raises, so that it never reaches the samples. -/
theorem not_jobs_complete_foreverSettings : ¬ ∀ (env : Environment) (settings : CollectorSettings)
    (q : ℚ) (now : Datetime) (w : World), env.Faultless →
      settings.remediationDispatchTimeoutSeconds = .fin q →
        RetentionJob.Completes env settings now w ∧ ReconciliationJob.Completes env settings now w := by
  intro h
  obtain ⟨hretention, -⟩ := h .calm foreverSettings 1800 (clock 0) .fresh
    Environment.calm_faultless rfl
  have hsamples := ((RetentionJob.completes_iff Environment.calm_faultless).1 hretention).2.2
  exact absurd hsamples (by decide)

end Scenario

end ClusterPulse
