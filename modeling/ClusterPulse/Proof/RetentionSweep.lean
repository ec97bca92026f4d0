import ClusterPulse.Lib.Batches
import ClusterPulse.Proof.RetainedLimits
import ClusterPulse.Proof.Staleness

/-!
# What a retention sweep leaves

A sweep deletes in batches, each of rows that the database picks, first actions, then the alerts
that no action refers to any more, then samples.  It leaves what one filter over the three tables
leaves, whatever the batches, and also where an earlier sweep was stopped on the way.
-/

namespace ClusterPulse

open AlertRepository Prog

/-! ## The filter -/

/-- The times back to which a sweep keeps rows. -/
structure Cutoffs where
  actions : Instant
  alerts : Instant
  samples : Instant

namespace Cutoffs

variable (c : Cutoffs)

/-- A dispatched action is kept whatever its age. -/
def keepsAction (a : RemediationActionRecord) : Bool :=
  a.status == .dispatched || decide (c.actions ≤ a.createdAt)

/-- A firing alert, one without a time of resolution, and one that an action refers to are kept
whatever their age. -/
def keepsAlert (actions : ActionTable) (a : AlertRecord) : Bool :=
  a.status == .firing || a.resolvedAt.all (fun t => decide (c.alerts ≤ t)) ||
    actions.rows.any fun action => action.alertId == a.id

def keepsSample (s : MetricSampleModel) : Bool := decide (c.samples ≤ s.receivedAt)

/-- The tables without the rows that are not kept. -/
def retained (σ : Store) : Store :=
  let actions := σ.remediationActions.delete fun a => !c.keepsAction a
  { nodes := σ.nodes
    metricSamples := σ.metricSamples.delete fun s => !c.keepsSample s
    alerts := σ.alerts.delete fun a => !c.keepsAlert actions a
    remediationActions := actions }

end Cutoffs

/-- Every row refers to rows that are there. -/
structure Store.ForeignKeys (σ : Store) : Prop where
  sampleNodes : ∀ s ∈ σ.metricSamples.rows, ∃ n ∈ σ.nodes, n.nodeId = s.nodeId
  alertNodes : ∀ a ∈ σ.alerts.rows, ∃ n ∈ σ.nodes, n.nodeId = a.nodeId
  actionNodes : ∀ a ∈ σ.remediationActions.rows, ∃ n ∈ σ.nodes, n.nodeId = a.nodeId
  actionAlerts : ∀ a ∈ σ.remediationActions.rows, ∃ alert ∈ σ.alerts.rows, alert.id = a.alertId

/-- The filter leaves no action without its alert. -/
theorem Store.ForeignKeys.retained {σ : Store} (h : σ.ForeignKeys) (c : Cutoffs) :
    (c.retained σ).ForeignKeys := by
  refine ⟨fun s hs => h.sampleNodes s (Table.mem_delete.1 hs).1,
    fun a ha => h.alertNodes a (Table.mem_delete.1 ha).1,
    fun a ha => h.actionNodes a (Table.mem_delete.1 ha).1, fun a ha => ?_⟩
  obtain ⟨alert, halert, hid⟩ := h.actionAlerts a (Table.mem_delete.1 ha).1
  refine ⟨alert, Table.mem_delete.2 ⟨halert, ?_⟩, hid⟩
  have hreferenced : (c.retained σ).remediationActions.rows.any (fun action =>
      action.alertId == alert.id) = true :=
    List.any_eq_true.2 ⟨a, ha, beq_iff_eq.2 hid.symm⟩
  rw [Bool.not_eq_false']
  unfold Cutoffs.keepsAlert
  exact (Bool.or_eq_true _ _).mpr (.inr hreferenced)

/-! ## One batch -/

namespace RetentionJob

/-- The row test of `prune_terminal_before`. -/
def actionDue (cutoff : Instant) (a : RemediationActionRecord) : Bool :=
  a.status != .dispatched && decide (a.createdAt < cutoff)

/-- The row test of `prune_resolved_before`. -/
def alertDue (actions : ActionTable) (cutoff : Instant) (a : AlertRecord) : Bool :=
  a.status == .resolved && a.resolvedAt.any (fun t => decide (t < cutoff)) &&
    !actions.rows.any fun action => action.alertId == a.id

/-- The row test of `prune_samples_before`. -/
def sampleDue (cutoff : Instant) (s : MetricSampleModel) : Bool := decide (s.receivedAt < cutoff)

section Due

variable {c : Cutoffs} {actions : ActionTable}

theorem decide_lt_eq (t t' : Instant) : decide (t < t') = !decide (t' ≤ t) := by
  rw [← decide_not]
  exact decide_eq_decide.2 not_le.symm

theorem actionDue_eq (a : RemediationActionRecord) :
    actionDue c.actions a = !c.keepsAction a := by
  simp [actionDue, Cutoffs.keepsAction, bne, decide_lt_eq]

theorem alertDue_eq (a : AlertRecord) : alertDue actions c.alerts a = !c.keepsAlert actions a := by
  have hresolved : (AlertStatus.resolved == .firing) = false := rfl
  have hfiring : (AlertStatus.firing == .resolved) = false := rfl
  unfold alertDue Cutoffs.keepsAlert
  cases a.status <;> cases a.resolvedAt <;> simp [decide_lt_eq, hresolved, hfiring]

theorem sampleDue_eq (s : MetricSampleModel) : sampleDue c.samples s = !c.keepsSample s := by
  simp [sampleDue, Cutoffs.keepsSample, decide_lt_eq]

/-- What is due while more actions refer to alerts is due afterwards. -/
theorem alertDue_mono {actions' : ActionTable} (hsub : ∀ a ∈ actions'.rows, a ∈ actions.rows)
    {cutoff : Instant} {a : AlertRecord} (hdue : alertDue actions cutoff a = true) :
    alertDue actions' cutoff a = true := by
  unfold alertDue at hdue ⊢
  simp only [Bool.and_eq_true, Bool.not_eq_true', List.any_eq_false] at hdue ⊢
  exact ⟨hdue.1, fun action haction => hdue.2 action (hsub action haction)⟩

end Due

section Batches

variable {cutoff : Instant} {batchSize : ℕ}

theorem batch_pruneTerminalBefore (scan : Scan) (hbatch : 1 ≤ batchSize) (σ : Store) :
    let r := RemediationActionRepository.pruneTerminalBefore scan σ cutoff batchSize
    ∃ t, r.2 = { σ with remediationActions := t } ∧
      σ.remediationActions.Batch (actionDue cutoff) t r.1 := by
  refine ⟨_, rfl, ?_⟩
  have h := σ.remediationActions.batch_delete (actionDue cutoff) scan hbatch
  unfold RemediationActionRepository.pruneTerminalBefore
  exact h

theorem batch_pruneResolvedBefore (scan : Scan) (hbatch : 1 ≤ batchSize) (σ : Store) :
    let r := pruneResolvedBefore scan σ cutoff batchSize
    ∃ t, r.2 = { σ with alerts := t } ∧
      σ.alerts.Batch (alertDue σ.remediationActions cutoff) t r.1 := by
  refine ⟨_, rfl, ?_⟩
  have h := σ.alerts.batch_delete (alertDue σ.remediationActions cutoff) scan hbatch
  unfold pruneResolvedBefore isReferenced
  exact h

theorem batch_pruneSamplesBefore (scan : Scan) (hbatch : 1 ≤ batchSize) (σ : Store) :
    let r := MetricsRepository.pruneSamplesBefore scan σ cutoff batchSize
    ∃ t, r.2 = { σ with metricSamples := t } ∧
      σ.metricSamples.Batch (sampleDue cutoff) t r.1 := by
  refine ⟨_, rfl, ?_⟩
  have h := σ.metricSamples.batch_delete (sampleDue cutoff) scan hbatch
  unfold MetricsRepository.pruneSamplesBefore
  exact h

end Batches

/-! ## Draining a table -/

section Drain

variable {ρ : Type} {key : ρ → ℕ} {due : ρ → Bool} {env : Environment}

/-- `prune` deletes a batch from the table that `put` puts into the store. -/
def Prunes (env : Environment) (prune : Repo ℕ) (put : Table ρ key → Store) (due : ρ → Bool) : Prop :=
  ∀ w t, w.store = put t →
    Returns env prune w fun n w' => ∃ t', w'.store = put t' ∧ t.Batch due t' n

/-- Enough batches leave what one filter leaves, and are counted. -/
theorem Prunes.returns_drain {prune : Repo ℕ} {put : Table ρ key → Store}
    (hprune : Prunes env prune put due) : ∀ (passes total : ℕ) (w : World) (t : Table ρ key),
      w.store = put t → t.rows.length < passes →
      Returns env (drain prune passes total) w fun total' w' => w'.store = put (t.delete due) ∧
        total' + (t.delete due).rows.length = total + t.rows.length
  | 0, _, _, _, _, hpasses => absurd hpasses (Nat.not_lt_zero _)
  | passes + 1, total, w, t, hw, hpasses => by
    unfold drain
    refine (hprune w t hw).andThen ?_
    rintro deleted w₁ ⟨t₁, hw₁, hbatch⟩
    have hlength := hbatch.length
    split_ifs with hdeleted
    · have hrest : t₁.delete due = t.delete due := hbatch.delete_eq fun _ _ h => h
      refine (hprune.returns_drain passes (total + deleted) w₁ t₁ hw₁ (by omega)).post ?_
      rintro (e | total') w' hQ
      · exact hQ
      · obtain ⟨hw', htotal⟩ := hQ
        rw [hrest] at hw' htotal
        exact ⟨hw', by omega⟩
    · obtain rfl : deleted = 0 := by omega
      have ht₁ := hbatch.eq_of_zero
      subst ht₁
      refine ⟨hw₁, ?_⟩
      omega

/-- A call that deletes the batches of `f`. -/
theorem prunes_of_batch {prune : Repo ℕ} {put : Table ρ key → Store} {f : Scan → Store → ℕ × Store}
    (hrun : ∀ w : World, Returns env prune w fun n w' =>
      ∃ scan, (.ok (f scan w.store).1 : Except PyError ℕ) = .ok n ∧ w'.store = (f scan w.store).2)
    (hf : ∀ scan t, ∃ t', (f scan (put t)).2 = put t' ∧ t.Batch due t' (f scan (put t)).1) :
    Prunes env prune put due := by
  intro w t hw
  refine (hrun w).post ?_
  rintro (e | n) w' hQ
  · exact hQ
  · obtain ⟨scan, hn, hw'⟩ := hQ
    obtain ⟨t', ht', hbatch⟩ := hf scan t
    rw [hw] at hn hw'
    obtain rfl := Except.ok.inj hn
    exact ⟨t', hw'.trans ht', hbatch⟩

variable {batchSize : ℕ}

theorem prunes_terminal (henv : env.Faultless) (hbatch : 1 ≤ batchSize) (σ : Store)
    (cutoff : Instant) : Prunes env (Call.pruneTerminalBefore cutoff batchSize).perform
      (fun t => { σ with remediationActions := t }) (actionDue cutoff) :=
  prunes_of_batch
    (f := fun scan σ => RemediationActionRepository.pruneTerminalBefore scan σ cutoff batchSize)
    (fun _ => Call.returns_exec henv _ fun _ => ⟨_, rfl⟩)
    fun scan _ => batch_pruneTerminalBefore scan hbatch _

theorem prunes_resolved (henv : env.Faultless) (hbatch : 1 ≤ batchSize) (σ : Store)
    (cutoff : Instant) : Prunes env (Call.pruneResolvedBefore cutoff batchSize).perform
      (fun t => { σ with alerts := t }) (alertDue σ.remediationActions cutoff) :=
  prunes_of_batch (f := fun scan σ => pruneResolvedBefore scan σ cutoff batchSize)
    (fun _ => Call.returns_exec henv _ fun _ => ⟨_, rfl⟩)
    fun scan _ => batch_pruneResolvedBefore scan hbatch _

theorem prunes_samples (henv : env.Faultless) (hbatch : 1 ≤ batchSize) (σ : Store)
    (cutoff : Instant) : Prunes env (Call.pruneSamplesBefore cutoff batchSize).perform
      (fun t => { σ with metricSamples := t }) (sampleDue cutoff) :=
  prunes_of_batch (f := fun scan σ => MetricsRepository.pruneSamplesBefore scan σ cutoff batchSize)
    (fun _ => Call.returns_exec henv _ fun _ => ⟨_, rfl⟩)
    fun scan _ => batch_pruneSamplesBefore scan hbatch _

end Drain

/-! ## A sweep -/

/-- The cutoffs of a sweep at `now`. -/
structure HasCutoffs (settings : CollectorSettings) (now : Datetime) (c : Cutoffs) : Prop where
  actions : ∃ d, cutoff settings.remediationActionsRetentionDays now = .ok d ∧ d.instant = c.actions
  alerts : ∃ d, cutoff settings.resolvedAlertsRetentionDays now = .ok d ∧ d.instant = c.alerts
  samples : ∃ d, cutoff settings.metricsRetentionDays now = .ok d ∧ d.instant = c.samples

/-- Where the retention times reach back to days of the calendar. -/
def cutoffs (settings : CollectorSettings) (now : Datetime) : Cutoffs where
  actions := now.instant - settings.remediationActionsRetentionDays * Timedelta.day
  alerts := now.instant - settings.resolvedAlertsRetentionDays * Timedelta.day
  samples := now.instant - settings.metricsRetentionDays * Timedelta.day

theorem hasCutoffs {settings : CollectorSettings} {now : Datetime}
    (hactions : settings.remediationActionsRetentionDays * Timedelta.day ≤ now.wall)
    (halerts : settings.resolvedAlertsRetentionDays * Timedelta.day ≤ now.wall)
    (hsamples : settings.metricsRetentionDays * Timedelta.day ≤ now.wall) :
    HasCutoffs settings now (cutoffs settings now) := by
  obtain ⟨d₁, hd₁⟩ := exists_cutoff hactions
  obtain ⟨d₂, hd₂⟩ := exists_cutoff halerts
  obtain ⟨d₃, hd₃⟩ := exists_cutoff hsamples
  exact ⟨⟨d₁, hd₁, instant_of_cutoff hd₁⟩, ⟨d₂, hd₂, instant_of_cutoff hd₂⟩,
    ⟨d₃, hd₃, instant_of_cutoff hd₃⟩⟩

/-- The rows that a sweep has deleted. -/
structure Counted (stats : RetentionRunStats) (σ σ' : Store) : Prop where
  actions : stats.remediationActionsDeleted + σ'.remediationActions.rows.length =
    σ.remediationActions.rows.length
  alerts : stats.alertsDeleted + σ'.alerts.rows.length = σ.alerts.rows.length
  samples : stats.metricSamplesDeleted + σ'.metricSamples.rows.length =
    σ.metricSamples.rows.length

/-- A sweep that is not stopped ends, and leaves the store `σ`. -/
def SweepsTo (env : Environment) (settings : CollectorSettings) (now : Datetime) (w : World)
    (σ : Store) : Prop :=
  ∃ n, ∀ passes ≥ n, ∃ stats w', (run settings now passes).run (handle env) w = (.ok stats, w') ∧
    w'.store = σ ∧ Counted stats w.store σ

section Sweep

variable {env : Environment} {settings : CollectorSettings} {now : Datetime} {c : Cutoffs}

theorem returns_run (henv : env.Faultless) (hc : HasCutoffs settings now c) (w : World)
    {passes : ℕ} (hactions : w.store.remediationActions.rows.length < passes)
    (halerts : w.store.alerts.rows.length < passes)
    (hsamples : w.store.metricSamples.rows.length < passes) :
    Returns env (run settings now passes) w fun stats w' =>
      w'.store = c.retained w.store ∧ Counted stats w.store (c.retained w.store) := by
  obtain ⟨d₁, hd₁, hc₁⟩ := hc.actions
  obtain ⟨d₂, hd₂, hc₂⟩ := hc.alerts
  obtain ⟨d₃, hd₃, hc₃⟩ := hc.samples
  have hbatch := settings.retentionBatchSize_ge
  unfold run
  rw [hd₁, hd₂, hd₃]
  -- the actions
  refine ((prunes_terminal henv hbatch w.store d₁.instant).returns_drain passes 0 w
    w.store.remediationActions rfl hactions).andThen ?_
  rintro n₁ w₁ ⟨hw₁, hn₁⟩
  -- the alerts that no remaining action refers to
  refine ((prunes_resolved henv hbatch w₁.store d₂.instant).returns_drain passes 0 w₁
    w₁.store.alerts rfl (by rw [hw₁]; exact halerts)).andThen ?_
  rintro n₂ w₂ ⟨hw₂, hn₂⟩
  -- the samples
  refine ((prunes_samples henv hbatch w₂.store d₃.instant).returns_drain passes 0 w₂
    w₂.store.metricSamples rfl (by rw [hw₂, hw₁]; exact hsamples)).andThen ?_
  rintro n₃ w₃ ⟨hw₃, hn₃⟩
  simp only [hw₁, hw₂, hc₁, hc₂, hc₃, funext (actionDue_eq (c := c)), funext (alertDue_eq (c := c)),
    funext (sampleDue_eq (c := c)), Nat.zero_add] at hw₃ hn₁ hn₂ hn₃
  exact ⟨hw₃, hn₁, hn₂, hn₃⟩

theorem sweepsTo_retained (henv : env.Faultless) (hc : HasCutoffs settings now c) (w : World) :
    SweepsTo env settings now w (c.retained w.store) := by
  refine ⟨w.store.remediationActions.rows.length + w.store.alerts.rows.length +
    w.store.metricSamples.rows.length + 1, fun passes hpasses => ?_⟩
  obtain ⟨stats, w', hrun, hw', hcounted⟩ := exists_run_of_returns
    (returns_run henv hc w (by omega : _ < passes) (by omega) (by omega))
  exact ⟨stats, w', hrun, hw', hcounted⟩

end Sweep

end RetentionJob

/-! ## A sweep that is stopped -/

/-- A batch of a sweep with these cutoffs. -/
def Call.IsBatch (c : Cutoffs) : Call → Prop
  | .pruneTerminalBefore cutoff batchSize => cutoff = c.actions ∧ 1 ≤ batchSize
  | .pruneResolvedBefore cutoff batchSize => cutoff = c.alerts ∧ 1 ≤ batchSize
  | .pruneSamplesBefore cutoff batchSize => cutoff = c.samples ∧ 1 ≤ batchSize
  | _ => False

section Stopped

variable {env env₀ : Environment} {settings : CollectorSettings} {now : Datetime} {c : Cutoffs}

/-- The filter does not miss the rows of a batch, whatever the order of the batches. -/
theorem Call.IsBatch.retained {call : Call} (hcall : call.IsBatch c) (scan : Scan) (σ : Store) :
    c.retained (exec scan call σ).2 = c.retained σ := by
  cases call with
  | pruneTerminalBefore cutoff batchSize =>
    obtain ⟨rfl, hbatch⟩ := hcall
    obtain ⟨t, ht, h⟩ := RetentionJob.batch_pruneTerminalBefore scan hbatch σ
    have hactions : t.delete (fun a => !c.keepsAction a) =
        σ.remediationActions.delete fun a => !c.keepsAction a :=
      h.delete_eq fun a _ hdue => by rwa [← RetentionJob.actionDue_eq]
    show c.retained (RemediationActionRepository.pruneTerminalBefore scan σ _ _).2 = _
    rw [ht]
    unfold Cutoffs.retained
    rw [hactions]
  | pruneResolvedBefore cutoff batchSize =>
    obtain ⟨rfl, hbatch⟩ := hcall
    obtain ⟨t, ht, h⟩ := RetentionJob.batch_pruneResolvedBefore scan hbatch σ
    have halerts : t.delete (fun a => !c.keepsAlert (c.retained σ).remediationActions a) =
        σ.alerts.delete fun a => !c.keepsAlert (c.retained σ).remediationActions a :=
      h.delete_eq fun a _ hdue => by
        rw [← RetentionJob.alertDue_eq]
        exact RetentionJob.alertDue_mono (fun a ha => (Table.mem_delete.1 ha).1) hdue
    show c.retained (AlertRepository.pruneResolvedBefore scan σ _ _).2 = _
    rw [ht]
    unfold Cutoffs.retained at halerts ⊢
    dsimp only at halerts ⊢
    rw [halerts]
  | pruneSamplesBefore cutoff batchSize =>
    obtain ⟨rfl, hbatch⟩ := hcall
    obtain ⟨t, ht, h⟩ := RetentionJob.batch_pruneSamplesBefore scan hbatch σ
    have hsamples : t.delete (fun s => !c.keepsSample s) =
        σ.metricSamples.delete fun s => !c.keepsSample s :=
      h.delete_eq fun s _ hdue => by rwa [← RetentionJob.sampleDue_eq]
    show c.retained (MetricsRepository.pruneSamplesBefore scan σ _ _).2 = _
    rw [ht]
    unfold Cutoffs.retained
    rw [hsamples]
  | _ => exact hcall.elim

theorem RetentionJob.only_batches (hc : HasCutoffs settings now c) (passes : ℕ) :
    Only (Call.IsBatch c) (run settings now passes) := by
  obtain ⟨d₁, hd₁, hc₁⟩ := hc.actions
  obtain ⟨d₂, hd₂, hc₂⟩ := hc.alerts
  obtain ⟨d₃, hd₃, hc₃⟩ := hc.samples
  have hbatch := settings.retentionBatchSize_ge
  unfold run
  rw [hd₁, hd₂, hd₃]
  refine (only_drain (only_perform ⟨hc₁, hbatch⟩) passes 0).bind fun _ => ?_
  refine (only_drain (only_perform ⟨hc₂, hbatch⟩) passes 0).bind fun _ => ?_
  exact (only_drain (only_perform ⟨hc₃, hbatch⟩) passes 0).bind fun _ => only_pure _

/-- Wherever a sweep stops, the filter leaves what it would have left before. -/
theorem RetentionJob.retained_run (env₀ : Environment) (hc : HasCutoffs settings now c) (w : World)
    (passes : ℕ) :
    c.retained ((run settings now passes).run (handle env₀) w).2.store = c.retained w.store := by
  refine ((only_batches hc passes).runs
    (fun w' : World => c.retained w'.store = c.retained w.store) (fun call w' hcall hw' => ?_) rfl).run
  rcases handle_cases env₀ call w' with ⟨e, -, heq⟩ | ⟨-, heq⟩ <;> rw [heq]
  · exact hw'
  · exact (hcall.retained _ _).trans hw'

/-- For every store, every batch size, any scan orders and an earlier sweep at the same time that
any failing call or the end of the process may have stopped. -/
theorem RetentionJob.sweepsTo_retained_after (henv : env.Faultless)
    (hc : HasCutoffs settings now c) (w : World) :
    SweepsTo env settings now w (c.retained w.store) ∧
      ∀ (env₀ : Environment) (passes : ℕ),
        SweepsTo env settings now ((run settings now passes).run (handle env₀) w).2
          (c.retained w.store) := by
  refine ⟨sweepsTo_retained henv hc w, fun env₀ passes => ?_⟩
  rw [← retained_run env₀ hc w passes]
  exact sweepsTo_retained henv hc _

end Stopped

namespace Scenario

/-- The executed action is past its retention. -/
theorem sweepsTo_laterOn :
    let w := Operation.runAll .calm executedAction .fresh
    let σ := (RetentionJob.cutoffs forgetfulSettings laterOn).retained w.store
    RetentionJob.SweepsTo .calm forgetfulSettings laterOn w σ ∧
      ∀ (env₀ : Environment) (passes : ℕ), RetentionJob.SweepsTo .calm forgetfulSettings laterOn
        ((RetentionJob.run forgetfulSettings laterOn passes).run (handle env₀) w).2 σ :=
  RetentionJob.sweepsTo_retained_after Environment.calm_faultless
    (RetentionJob.hasCutoffs (by decide) (by decide) (by decide)) _

/-- A resolved alert without a time of resolution, which the columns of the table allow. -/
def undatedWorld : World where
  store := { Store.empty with
    nodes := [⟨"node-1", (clock 0).instant, (clock 0).instant⟩]
    alerts := Table.empty.insert (fun id =>
      { newAlert "node-1" "threshold:cpu.usage_percent" .threshold .critical "cpu" 95 90 (clock 0)
        id with status := .resolved }) fun _ => rfl }

/-- It is neither firing nor resolved after the cutoff nor referred to, and it stays. -/
theorem not_swept_undatedWorld : ¬ ∀ (env : Environment) (settings : CollectorSettings)
    (now : Datetime) (c : Cutoffs) (w : World), env.Faultless →
      RetentionJob.HasCutoffs settings now c → w.store.ForeignKeys → ∃ n, ∀ passes ≥ n,
        let σ := ((RetentionJob.run settings now passes).run (handle env) w).2.store
        ∀ a ∈ σ.alerts.rows, a.status = .firing ∨ (∃ t ∈ a.resolvedAt, c.alerts ≤ t) ∨
          ∃ action ∈ σ.remediationActions.rows, action.alertId = a.id := by
  intro h
  have hcutoffs : RetentionJob.HasCutoffs .default (clock 0)
      (RetentionJob.cutoffs .default (clock 0)) :=
    RetentionJob.hasCutoffs (by decide) (by decide) (by decide)
  have hkeys : undatedWorld.store.ForeignKeys := by
    constructor <;> decide
  obtain ⟨n, hn⟩ := h .calm .default (clock 0) _ undatedWorld Environment.calm_faultless hcutoffs
    hkeys
  obtain ⟨m, hm⟩ := RetentionJob.sweepsTo_retained Environment.calm_faultless hcutoffs undatedWorld
  obtain ⟨stats, w', hrun, hw', -⟩ := hm (max n m) (le_max_right n m)
  have hleft := hn (max n m) (le_max_left n m)
  simp only [hrun, hw'] at hleft
  revert hleft
  decide +kernel

end Scenario

end ClusterPulse
