import ClusterPulse.Proof.Effects

/-!
# The Agent's report against the timeout

`ReconciliationJob` and `RemediationActionService` both give a dispatched action its final status,
and the service accepts a report only while the action is still dispatched.  The report stands
exactly when no sweep before it timed the action out.
-/

namespace ClusterPulse

open RemediationActionRepository Prog

/-- One sweep of the reconciliation job. -/
structure Sweep where
  settings : CollectorSettings
  now : Datetime

namespace Sweep

def operation (s : Sweep) : Operation := .reconciliation s.settings s.now

/-- The action is older than the timeout when the sweep runs. -/
def TimesOut (s : Sweep) (a : RemediationActionRecord) : Prop :=
  match ReconciliationJob.cutoff s.settings.remediationDispatchTimeoutSeconds s.now with
  | .ok cutoff => a.createdAt < cutoff.instant
  | .error _ => False

instance (s : Sweep) (a : RemediationActionRecord) : Decidable (s.TimesOut a) := by
  unfold TimesOut
  split <;> infer_instance

/-- The row of an action after the sweep. -/
def swept (s : Sweep) (a : RemediationActionRecord) : RemediationActionRecord :=
  if a.status = .dispatched ∧ s.TimesOut a then
    marked .failed (some ReconciliationJob.timedOutReason) s.now.instant a
  else a

theorem swept_of_status {s : Sweep} {a : RemediationActionRecord} (h : a.status ≠ .dispatched) :
    s.swept a = a := if_neg fun hs => h hs.1

theorem swept_of_not_timesOut {s : Sweep} {a : RemediationActionRecord} (h : ¬ s.TimesOut a) :
    s.swept a = a := if_neg fun hs => h hs.2

theorem status_swept_of_timesOut {s : Sweep} {a : RemediationActionRecord} (h : s.TimesOut a) :
    (s.swept a).status ≠ .dispatched := by
  unfold swept
  split_ifs with hs
  · exact nofun
  · exact fun hd => hs ⟨hd, h⟩

end Sweep

/-! ## A sweep -/

variable {env : Environment} {w : World}

/-- The loop marks the listed actions and no others. -/
theorem ReconciliationJob.run_timeOut (henv : env.Faultless) (now : Datetime)
    {actions : List RemediationActionRecord} {timedOut : ℕ}
    (hactions : ∀ a ∈ actions, (w.store.remediationActions.get? a.id).isSome) (i : ℕ) :
    ((actions.foldlM (timeOut now) timedOut).run (handle env) w).2.store.remediationActions.get? i =
      if i ∈ actions.map RemediationActionRecord.id then
        (w.store.remediationActions.get? i).map
          (marked .failed (some timedOutReason) now.instant)
      else w.store.remediationActions.get? i := by
  induction actions generalizing w timedOut with
  | nil => rfl
  | cons a actions ih =>
    obtain ⟨row, hrow⟩ := Option.isSome_iff_exists.1 (hactions a List.mem_cons_self)
    let mark : Call := .markResult a.id .failed (some timedOutReason) now.instant
    have hok : (exec (env.scan w.calls) mark w.store).1 =
        .ok (marked .failed (some timedOutReason) now.instant row) := markResult_of_get? hrow ..
    rw [List.foldlM_cons]
    unfold timeOut
    rw [bind_assoc, run_perform_bind (henv _ _) hok]
    set w₁ := w.after (env.scan w.calls) mark
    have htable : ∀ j, w₁.store.remediationActions.get? j = if j = a.id then
        (w.store.remediationActions.get? a.id).map (marked .failed (some timedOutReason) now.instant)
        else w.store.remediationActions.get? j := by
      intro j
      simp only [w₁, mark, World.after_actions, Call.actions, Table.get?_modify]
    have hactions₁ : ∀ b ∈ actions, (w₁.store.remediationActions.get? b.id).isSome := by
      intro b hb
      rw [htable]
      split_ifs
      · rw [hrow]
        rfl
      · exact hactions b (List.mem_cons_of_mem _ hb)
    refine (ih hactions₁).trans ?_
    simp only [htable, List.map_cons, List.mem_cons]
    by_cases hi : i = a.id
    · subst hi
      -- marking the row a second time writes the same values
      have htwice : marked .failed (some timedOutReason) now.instant ∘
          marked .failed (some timedOutReason) now.instant =
          marked .failed (some timedOutReason) now.instant := rfl
      simp only [true_or, if_true, Option.map_map, htwice, ite_self]
    · simp only [hi, false_or, if_false]

/-- What the sweep finds is what it is meant for. -/
theorem Sweep.mem_listed_iff {s : Sweep} {cutoff : Datetime}
    (hcutoff : ReconciliationJob.cutoff s.settings.remediationDispatchTimeoutSeconds s.now =
      .ok cutoff) {scan : Scan} {σ : Store} {a : RemediationActionRecord} :
    a ∈ listDispatchedBefore scan σ cutoff.instant ↔
      a ∈ σ.remediationActions.rows ∧ a.status = .dispatched ∧ s.TimesOut a := by
  have htimes : s.TimesOut a ↔ a.createdAt < cutoff.instant := by
    unfold Sweep.TimesOut
    rw [hcutoff]
  simp only [listDispatchedBefore, List.mem_filter, mem_reorder, Bool.and_eq_true, beq_iff_eq,
    decide_eq_true_eq, htimes]

/-- The same, by the key of the row. -/
theorem Sweep.mem_listed_ids_iff {s : Sweep} {cutoff : Datetime}
    (hcutoff : ReconciliationJob.cutoff s.settings.remediationDispatchTimeoutSeconds s.now =
      .ok cutoff) {scan : Scan} {σ : Store} {i : ℕ} {a : RemediationActionRecord}
    (hrow : σ.remediationActions.get? i = some a) :
    i ∈ (listDispatchedBefore scan σ cutoff.instant).map RemediationActionRecord.id ↔
      a.status = .dispatched ∧ s.TimesOut a := by
  constructor
  · intro h
    obtain ⟨b, hb, hid⟩ := List.mem_map.1 h
    obtain ⟨hrows, hb⟩ := (Sweep.mem_listed_iff hcutoff).1 hb
    obtain rfl : b = a := Option.some.inj ((hid ▸ Table.get?_of_mem hrows).symm.trans hrow)
    exact hb
  · intro h
    exact List.mem_map.2 ⟨a, (Sweep.mem_listed_iff hcutoff).2 ⟨Table.mem_of_get? hrow, h⟩,
      Table.key_of_get? hrow⟩

/-- The row of every action after a sweep. -/
theorem Sweep.get?_run (henv : env.Faultless) (s : Sweep) (i : ℕ) :
    (s.operation.program.run (handle env) w).2.store.remediationActions.get? i =
      (w.store.remediationActions.get? i).map s.swept := by
  have hprogram : (s.operation.program.run (handle env) w).2 =
      ((ReconciliationJob.run s.settings s.now).run (handle env) w).2 := by
    show ((Reply.timedOut <$> ReconciliationJob.run s.settings s.now).run (handle env) w).2 = _
    rw [run_map]
  rw [hprogram]
  unfold ReconciliationJob.run
  rcases hcutoff : ReconciliationJob.cutoff s.settings.remediationDispatchTimeoutSeconds s.now
    with e | cutoff
  · have hnever : ∀ a, ¬ s.TimesOut a := by
      intro a
      unfold Sweep.TimesOut
      rw [hcutoff]
      exact id
    have hswept : s.swept = id := funext fun a => swept_of_not_timesOut (hnever a)
    rw [hswept, Option.map_id]
    rfl
  · rw [lift_ok, pure_bind', run_perform_bind (henv _ _) rfl]
    set w₁ := w.after (env.scan w.calls) (.listDispatchedBefore cutoff.instant)
    have hsame : w₁.store.remediationActions = w.store.remediationActions :=
      World.after_actions ..
    refine (ReconciliationJob.run_timeOut henv s.now (fun a ha => ?_) i).trans ?_
    · rw [hsame, Table.get?_of_mem ((Sweep.mem_listed_iff hcutoff).1 ha).1]
      rfl
    · rw [hsame]
      rcases hrow : w.store.remediationActions.get? i with _ | a
      · rw [Option.map_none, ite_self, Option.map_none]
      · simp only [Option.map_some, Sweep.swept, Sweep.mem_listed_ids_iff hcutoff hrow]
        split_ifs
        · rfl
        · rfl

/-- The row of every action after a sequence of sweeps. -/
theorem get?_runAll_sweeps (henv : env.Faultless) (sweeps : List Sweep) (i : ℕ) :
    (Operation.runAll env (sweeps.map Sweep.operation) w).store.remediationActions.get? i =
      (w.store.remediationActions.get? i).map fun a => sweeps.foldl (fun a s => s.swept a) a := by
  induction sweeps generalizing w with
  | nil => simp
  | cons s sweeps ih =>
    rw [List.map_cons, Operation.runAll_cons, ih, s.get?_run henv, Option.map_map]
    rfl

theorem foldl_swept_of_status {sweeps : List Sweep} {a : RemediationActionRecord}
    (h : a.status ≠ .dispatched) : sweeps.foldl (fun a s => s.swept a) a = a := by
  induction sweeps with
  | nil => rfl
  | cons s sweeps ih => rw [List.foldl_cons, Sweep.swept_of_status h, ih]

theorem foldl_swept_of_not_timesOut {sweeps : List Sweep} {a : RemediationActionRecord}
    (h : ∀ s ∈ sweeps, ¬ s.TimesOut a) : sweeps.foldl (fun a s => s.swept a) a = a := by
  induction sweeps with
  | nil => rfl
  | cons s sweeps ih =>
    rw [List.foldl_cons, Sweep.swept_of_not_timesOut (h s List.mem_cons_self)]
    exact ih fun s' hs' => h s' (List.mem_cons_of_mem _ hs')

/-- One sweep that times the action out is enough. -/
theorem status_foldl_swept_of_timesOut {sweeps : List Sweep} {a : RemediationActionRecord}
    (h : ∃ s ∈ sweeps, s.TimesOut a) :
    (sweeps.foldl (fun a s => s.swept a) a).status ≠ .dispatched := by
  induction sweeps with
  | nil => simp at h
  | cons s sweeps ih =>
    rw [List.foldl_cons]
    by_cases hs : s.TimesOut a
    · have hstatus := Sweep.status_swept_of_timesOut hs
      rwa [foldl_swept_of_status hstatus]
    · rw [Sweep.swept_of_not_timesOut hs]
      obtain ⟨s', hs', htimes⟩ := h
      rcases List.mem_cons.1 hs' with rfl | hs'
      · exact absurd htimes hs
      · exact ih ⟨s', hs', htimes⟩

/-! ## The report -/

namespace RemediationActionService

variable {i : ℕ} {a : RemediationActionRecord} {result : ActionResult} {now : Instant}

/-- The row of an action after an accepted report. -/
def reported (result : ActionResult) (now : Instant) (a : RemediationActionRecord) :
    RemediationActionRecord :=
  marked (actionStatus result.status) result.message now a

theorem status_reported : (reported result now a).status ≠ .dispatched := by
  show actionStatus result.status ≠ .dispatched
  cases result.status <;> exact nofun

theorem run_reportResult (henv : env.Faultless)
    (ha : w.store.remediationActions.get? i = some a) :
    ∃ w₁ : World, w₁.store.remediationActions = w.store.remediationActions ∧
      (reportResult i result now).run (handle env) w =
        if a.status = .dispatched then
          (.ok (reported result now a), w₁.after (env.scan w₁.calls)
            (.markResult i (actionStatus result.status) result.message now))
        else (.error (.remediationActionNotDispatchedError i a.status.value), w₁) := by
  have hget : (exec (env.scan w.calls) (.getAction i) w.store).1 = .ok (some a) :=
    congrArg Except.ok ha
  have hsame : (w.after (env.scan w.calls) (.getAction i)).store.remediationActions =
      w.store.remediationActions := World.after_actions ..
  refine ⟨_, hsame, ?_⟩
  unfold reportResult getAction
  rw [bind_assoc, run_perform_bind (henv _ _) hget]
  simp only [pure_eq, pure_bind']
  split_ifs
  · rw [run_perform, handle_of_ok (henv _ _)]
    exact Prod.ext (markResult_of_get? (hsame ▸ ha) ..) rfl
  · rfl

end RemediationActionService

open RemediationActionService

/-- The report on action `i` is accepted after the sweeps `before`, and at the end, after the sweeps
`afterwards`, the row has the status and the reason that were reported. -/
def GroundTruth (env : Environment) (w : World) (i : ℕ) (result : ActionResult) (now : Instant)
    (before afterwards : List Sweep) : Prop :=
  let w₁ := Operation.runAll env (before.map Sweep.operation) w
  let w₂ := Operation.runAll env (before.map Sweep.operation ++ .reportResult i result now ::
    afterwards.map Sweep.operation) w
  ((reportResult i result now).run (handle env) w₁).1.isOk = true ∧
    (w₂.store.remediationActions.get? i).map (fun a => (a.status, a.reason)) =
      some (actionStatus result.status, result.message)

/-- For any dispatched action, any sweeps and any position of the report among them. -/
theorem groundTruth_iff (henv : env.Faultless) {i : ℕ} {a : RemediationActionRecord}
    (ha : w.store.remediationActions.get? i = some a) (hstatus : a.status = .dispatched)
    (result : ActionResult) (now : Instant) (before afterwards : List Sweep) :
    GroundTruth env w i result now before afterwards ↔ ∀ s ∈ before, ¬ s.TimesOut a := by
  have hrow : (Operation.runAll env (before.map Sweep.operation) w).store.remediationActions.get? i =
      some (before.foldl (fun a s => s.swept a) a) := by
    rw [get?_runAll_sweeps henv, ha, Option.map_some]
  obtain ⟨w₁, hsame, hrun⟩ : ∃ w₁ : World, w₁.store.remediationActions = _ ∧
      (reportResult i result now).run (handle env) _ = _ := run_reportResult henv hrow
  unfold GroundTruth
  simp only [Operation.runAll_append, Operation.runAll_cons, get?_runAll_sweeps henv]
  have hprogram : ∀ w', ((Operation.reportResult i result now).program.run (handle env) w').2 =
      ((reportResult i result now).run (handle env) w').2 := fun w' =>
    congrArg Prod.snd (run_map Reply.action (reportResult i result now) w')
  rw [hprogram, hrun]
  by_cases hbefore : ∀ s ∈ before, ¬ s.TimesOut a
  · rw [foldl_swept_of_not_timesOut hbefore] at hrow ⊢
    rw [if_pos hstatus]
    have hmarked : (w₁.after (env.scan w₁.calls) (.markResult i (actionStatus result.status)
        result.message now)).store.remediationActions.get? i = some (reported result now a) := by
      simp only [World.after_actions, Call.actions, Table.get?_modify_self, hsame, hrow,
        Option.map_some]
      rfl
    simp only [hmarked, Option.map_some, foldl_swept_of_status status_reported]
    exact iff_of_true ⟨rfl, rfl⟩ hbefore
  · have htimes : ∃ s ∈ before, s.TimesOut a := by simpa using hbefore
    rw [if_neg (status_foldl_swept_of_timesOut htimes)]
    refine iff_of_false (fun h => ?_) hbefore
    cases h.1

namespace Scenario

/-- The alert is remediated at 2000 seconds; its action has the id 1. -/
def dispatched : World := Operation.runAll .calm [push 0 95, push 1000 96, push 2000 97] .fresh

def action : RemediationActionRecord where
  id := 1
  nodeId := "node-1"
  alertId := 1
  ruleKey := "threshold:cpu.usage_percent"
  playbookName := "relax"
  actionType := .noop
  parameters := []
  status := .dispatched
  reason := none
  createdAt := (clock 2000).instant
  completedAt := none

theorem get?_dispatched : dispatched.store.remediationActions.get? 1 = some action := by
  decide +kernel

/-- A sweep with the default timeout of 1800 seconds. -/
def sweep (seconds : Fin 86400) : Sweep := ⟨.default, clock seconds⟩

def executed : ActionResult := ⟨.executed, some "noop"⟩

theorem report_refused : ((reportResult 1 executed 0).run (handle .calm)
    (Operation.runAll .calm [(sweep 4000).operation] dispatched)).1.isOk = false := by
  decide +kernel

/-- The sweep at 4000 seconds gives up on the action, and the report after it is refused. -/
theorem not_groundTruth :
    ¬ ∀ (env : Environment) (w : World) (i : ℕ) (a : RemediationActionRecord)
      (result : ActionResult) (now : Instant) (before afterwards : List Sweep), env.Faultless →
        w.store.remediationActions.get? i = some a → a.status = .dispatched →
          GroundTruth env w i result now before afterwards := by
  intro h
  have hlate := (h .calm dispatched 1 action executed 0 [sweep 4000] []
    Environment.calm_faultless get?_dispatched rfl).1
  exact Bool.false_ne_true (report_refused.symm.trans hlate)

/-- A report between a sweep that comes too early to time out and one that comes too late. -/
theorem groundTruth_in_time :
    GroundTruth .calm dispatched 1 executed (clock 3500).instant [sweep 3000] [sweep 4000] :=
  (groundTruth_iff Environment.calm_faultless get?_dispatched rfl executed (clock 3500).instant
    [sweep 3000] [sweep 4000]).2 (by decide +kernel)

end Scenario

end ClusterPulse
