import ClusterPulse.Lib.Window
import ClusterPulse.Proof.Effects

/-!
# The Safety Limits over whole runs

`decide` looks at the audit log before it dispatches: at the last action for the playbook, and at
the actions for the node since an hour before.  Over any serial run of decisions and results, with
timestamps in any order, the dispatched actions stay within both limits.
-/

namespace ClusterPulse

open RemediationActionRepository Prog

/-! ## The limits -/

/-- The entry was dispatched when it was recorded. -/
def dispatchedTo (nodeId : String) (r : RemediationActionRecord) : Bool :=
  r.status == .dispatched && r.nodeId == nodeId

/-- Both Safety Limits, over a history of audit rows. -/
structure WithinLimits (e : RemediationEngine) (L : List RemediationActionRecord) : Prop where
  /-- In any closed hour, wherever it lies. -/
  hourly : ∀ nodeId, Capped RemediationActionRecord.createdAt (dispatchedTo nodeId) Timedelta.hour
    e.maxActionsPerNodePerHour L
  /-- Any two actions for the same node and playbook. -/
  cooldown : L.Pairwise fun r x => r.status = .dispatched → x.status = .dispatched →
    r.nodeId = x.nodeId → r.playbookName = x.playbookName →
      e.cooldownSeconds ≤ Timedelta.totalSeconds |x.createdAt - r.createdAt|

theorem withinLimits_nil {e : RemediationEngine} : WithinLimits e [] :=
  ⟨fun _ => capped_nil, .nil⟩

/-- What `decide` has found out about the history before it dispatches. -/
structure Allowed (e : RemediationEngine) (L : List RemediationActionRecord)
    (nodeId playbookName : String) (now : Instant) : Prop where
  rate : L.countP (fun r => r.nodeId == nodeId && decide (now - Timedelta.hour ≤ r.createdAt)) <
    e.maxActionsPerNodePerHour
  cooldown : ∀ r ∈ L, r.nodeId = nodeId → r.playbookName = playbookName →
    e.cooldownSeconds ≤ Timedelta.totalSeconds (now - r.createdAt)

theorem WithinLimits.concat {e : RemediationEngine} {L : List RemediationActionRecord}
    {x : RemediationActionRecord} (h : WithinLimits e L)
    (hx : x.status = .dispatched → Allowed e L x.nodeId x.playbookName x.createdAt) :
    WithinLimits e (L ++ [x]) := by
  refine ⟨fun nodeId => ?_, ?_⟩
  · by_cases hto : dispatchedTo nodeId x = true
    · have hboth := hto
      simp only [dispatchedTo, Bool.and_eq_true, beq_iff_eq] at hboth
      obtain ⟨hstatus, rfl⟩ := hboth
      refine (h.hourly x.nodeId).concat (fun r hr => ?_) (hx hstatus).rate
      simp only [dispatchedTo, Bool.and_eq_true] at hr
      exact hr.2
    · exact (h.hourly nodeId).concat_of_not (by simpa using hto)
  · rw [List.pairwise_append]
    refine ⟨h.cooldown, List.pairwise_singleton _ _, fun r hr y hy => ?_⟩
    obtain rfl := List.mem_singleton.1 hy
    intro _ hstatus hnode hplaybook
    have hcooldown := (hx hstatus).cooldown r hr hnode hplaybook
    exact Double.le_trans hcooldown (Timedelta.totalSeconds_mono (le_abs_self _))

/-! ## The audit log and its history -/

/-- Nothing has been pruned: the rows are the recorded decisions, up to their results. -/
def Complete (w : World) : Prop :=
  w.store.remediationActions.rows.map RemediationActionRecord.identity =
    w.recorded.map RemediationActionRecord.identity

/-- Neither the audit log nor its history has changed. -/
structure SameLog (w w' : World) : Prop where
  actions : w'.store.remediationActions = w.store.remediationActions
  recorded : w'.recorded = w.recorded

theorem SameLog.trans {w w' w'' : World} (h : SameLog w w') (h' : SameLog w' w'') :
    SameLog w w'' :=
  ⟨h'.actions.trans h.actions, h'.recorded.trans h.recorded⟩

theorem Complete.of_same {w w' : World} (hw : Complete w) (h : SameLog w w') : Complete w' := by
  unfold Complete
  rw [h.actions, h.recorded]
  exact hw

/-- A count over what `mark_result` leaves alone is the same over the rows and the history. -/
theorem Complete.countP {w : World} (hw : Complete w) (p : RemediationActionRecord → Bool)
    (hp : ∀ r, p r.identity = p r) :
    w.store.remediationActions.rows.countP p = w.recorded.countP p := by
  have hcount : ∀ L : List RemediationActionRecord,
      (L.map RemediationActionRecord.identity).countP p = L.countP p := by
    intro L
    rw [List.countP_map]
    exact List.countP_congr fun r _ => by simp [hp]
  rw [← hcount, ← hcount w.recorded, hw]

theorem Complete.mem {w : World} (hw : Complete w) {r : RemediationActionRecord}
    (hr : r ∈ w.recorded) : ∃ a ∈ w.store.remediationActions.rows, a.identity = r.identity := by
  have hmem : r.identity ∈ w.store.remediationActions.rows.map RemediationActionRecord.identity :=
    hw ▸ List.mem_map_of_mem hr
  obtain ⟨a, ha, hid⟩ := List.mem_map.1 hmem
  exact ⟨a, ha, hid⟩

/-! ## A decision -/

variable {env : Environment} {w : World} {e : RemediationEngine} {nodeId : String}
  {playbook : PlaybookDefinition} {now : Datetime}

/-- A call that reads. -/
theorem Call.runs_read (c : Call) (hactions : ∀ scan, c.actions scan w.store =
    w.store.remediationActions) (haudit : ∀ n, c.audit n = none) :
    Runs (handle env) (fun _ _ => True) c.perform w (Ends
      (fun r w' => SameLog w w' ∧ ∃ scan, (exec scan c w.store).1 = .ok r)
      fun _ w' => SameLog w w') := by
  refine Call.runs_perform (fun _ _ => ⟨trivial, rfl, rfl⟩) fun _ => ⟨trivial, ?_⟩
  have hsame : SameLog w (w.after (env.scan w.calls) c) :=
    ⟨(World.after_actions ..).trans (hactions _), by simp [haudit]⟩
  rcases hr : (exec (env.scan w.calls) c w.store).1 with err | r
  · exact hsame
  · exact ⟨hsame, _, hr⟩

theorem runs_checkRateLimit {w₀ : World} (hw₀ : Complete w₀) (hsame : SameLog w₀ w)
    (hcooldown : ∀ r ∈ w₀.recorded, r.nodeId = nodeId → r.playbookName = playbook.playbookName →
      e.cooldownSeconds ≤ Timedelta.totalSeconds (now.instant - r.createdAt)) :
    Runs (handle env) (fun _ _ => True) (e.checkRateLimit nodeId now) w (Ends
      (fun reason w' => SameLog w₀ w' ∧ (reason = none →
        Allowed e w₀.recorded nodeId playbook.playbookName now.instant))
      fun _ w' => SameLog w₀ w') := by
  unfold RemediationEngine.checkRateLimit
  rcases hsince : now.minus Timedelta.hour with err | since
  · exact hsame
  rw [lift_ok, pure_bind']
  refine (Call.runs_read (.countRecentActions nodeId since) (fun _ => rfl) fun _ => rfl).bind ?_
    fun _ _ h => hsame.trans h
  rintro count w₁ ⟨hsame₁, scan, hcount⟩
  have hcomplete := hw₀.of_same hsame
  have hrecorded : count = w₀.recorded.countP fun r =>
      r.nodeId == nodeId && decide (now.instant - Timedelta.hour ≤ r.createdAt) := by
    rw [← Datetime.instant_of_minus hsince, ← hsame.recorded]
    exact (Except.ok.inj hcount).symm.trans (hcomplete.countP _ fun _ => rfl)
  split_ifs with hmax
  · exact ⟨hsame.trans hsame₁, nofun⟩
  · exact ⟨hsame.trans hsame₁, fun _ => ⟨hrecorded ▸ not_le.1 hmax, hcooldown⟩⟩

/-- The rows for a node and a playbook have the entries of the history for them. -/
theorem mem_filter_of_recorded (hw : Complete w) {scan : Scan} {playbookName : String}
    {r : RemediationActionRecord} (hr : r ∈ w.recorded) (hnode : r.nodeId = nodeId)
    (hplaybook : r.playbookName = playbookName) :
    ∃ a ∈ (reorder scan w.store.remediationActions.rows).filter
      (fun a => a.nodeId == nodeId && a.playbookName == playbookName),
      a.createdAt = r.createdAt := by
  obtain ⟨a, ha, hid⟩ := hw.mem hr
  refine ⟨a, List.mem_filter.2 ⟨mem_reorder.2 ha, ?_⟩, congrArg (·.createdAt) hid⟩
  have hnode' : a.nodeId = r.nodeId := congrArg (·.nodeId) hid
  have hplaybook' : a.playbookName = r.playbookName := congrArg (·.playbookName) hid
  simp [hnode', hplaybook', hnode, hplaybook]

/-- No entry for the node and the playbook is later than the last action. -/
theorem createdAt_le_of_findLastAction (hw : Complete w) {scan : Scan} {playbookName : String}
    {last r : RemediationActionRecord}
    (hlast : findLastAction scan w.store nodeId playbookName = some last) (hr : r ∈ w.recorded)
    (hnode : r.nodeId = nodeId) (hplaybook : r.playbookName = playbookName) :
    r.createdAt ≤ last.createdAt := by
  obtain ⟨a, ha, hcreated⟩ : ∃ a ∈ (reorder scan w.store.remediationActions.rows).filter _,
    a.createdAt = r.createdAt := mem_filter_of_recorded hw hr hnode hplaybook
  rw [← hcreated]
  exact le_of_latest hlast ha

theorem findLastAction_ne_none (hw : Complete w) {scan : Scan} {playbookName : String}
    {r : RemediationActionRecord} (hr : r ∈ w.recorded) (hnode : r.nodeId = nodeId)
    (hplaybook : r.playbookName = playbookName) :
    findLastAction scan w.store nodeId playbookName ≠ none := by
  intro hnone
  obtain ⟨a, ha, -⟩ : ∃ a ∈ (reorder scan w.store.remediationActions.rows).filter _,
    a.createdAt = r.createdAt := mem_filter_of_recorded hw hr hnode hplaybook
  rw [latest_eq_none_iff.1 hnone] at ha
  cases ha

theorem runs_checkSafetyLimits (hnonneg : 0 ≤ e.cooldownSeconds) (hw : Complete w) :
    Runs (handle env) (fun _ _ => True) (e.checkSafetyLimits nodeId playbook now) w (Ends
      (fun reason w' => SameLog w w' ∧ (reason = none →
        Allowed e w.recorded nodeId playbook.playbookName now.instant))
      fun _ w' => SameLog w w') := by
  unfold RemediationEngine.checkSafetyLimits
  refine (Call.runs_read (.findLastAction nodeId playbook.playbookName) (fun _ => rfl)
    fun _ => rfl).bind ?_ fun _ _ h => h
  rintro last w₁ ⟨hsame, scan, hr⟩
  have hlast : findLastAction scan w.store nodeId playbook.playbookName = last :=
    Except.ok.inj hr
  cases last with
  | none =>
    refine runs_checkRateLimit hw hsame fun r hr hnode hplaybook => ?_
    exact absurd hlast (findLastAction_ne_none hw hr hnode hplaybook)
  | some last =>
    show Runs _ _ (lift ((now.since last.createdAt).map fun d => some d.totalSeconds) >>= _) _ _
    rcases hsince : now.since last.createdAt with err | d
    · exact hsame
    simp only [Except.map, lift_ok, pure_bind']
    split_ifs with hactive
    · exact ⟨hsame, nofun⟩
    · refine runs_checkRateLimit hw hsame fun r hr hnode hplaybook => ?_
      have hle := createdAt_le_of_findLastAction hw hlast hr hnode hplaybook
      have hd : d = now.instant - last.createdAt := Datetime.since_of_ok hsince
      have hnan : e.cooldownSeconds ≠ .nan := Double.ne_nan_of_le_right hnonneg
      have helapsed := (Double.not_lt_iff_le (Timedelta.totalSeconds_ne_nan d) hnan).1 hactive
      exact Double.le_trans helapsed (Timedelta.totalSeconds_mono
        (hd ▸ sub_le_sub_left hle now.instant))

/-- The history after a decision stays within the limits. -/
theorem runs_decide_withinLimits {alertId : ℕ} {ruleKey : String}
    (hnonneg : 0 ≤ e.cooldownSeconds) (hw : Complete w) (hlimits : WithinLimits e w.recorded) :
    Runs (handle env) (fun _ _ => True) (e.decide nodeId alertId ruleKey now) w
      fun _ w' => Complete w' ∧ WithinLimits e w'.recorded := by
  unfold RemediationEngine.decide
  by_cases henabled : e.enabled = true
  swap
  · rw [if_neg henabled]
    exact ⟨hw, hlimits⟩
  rw [if_pos henabled]
  rcases e.byRuleKey? ruleKey with _ | playbook
  · exact ⟨hw, hlimits⟩
  have hkeep : ∀ w', SameLog w w' → Complete w' ∧ WithinLimits e w'.recorded :=
    fun w' hsame => ⟨hw.of_same hsame, hsame.recorded ▸ hlimits⟩
  refine (runs_checkSafetyLimits hnonneg hw).bind ?_ fun _ w' hsame => hkeep w' hsame
  rintro reason w₁ ⟨hsame, hallowed⟩
  have hcreate : Runs (handle env) (fun _ _ => True) (Call.createAction nodeId alertId ruleKey
      playbook.playbookName playbook.actionType playbook.parameters
      (RemediationEngine.statusFor reason) reason now).perform w₁
      fun _ w' => Complete w' ∧ WithinLimits e w'.recorded := by
    refine Call.runs_perform (fun _ _ => ⟨trivial, hkeep _ ⟨hsame.actions,
      hsame.recorded⟩⟩) fun _ => ⟨trivial, ?_, ?_⟩
    · have hcomplete₁ := hw.of_same hsame
      unfold Complete at hcomplete₁ ⊢
      simp only [World.after_actions, World.after_recorded, Call.actions, Call.audit,
        Table.rows_insert, List.map_append, Option.toList_some, hcomplete₁, List.map_singleton]
    · rw [World.after_recorded, hsame.recorded]
      refine hlimits.concat fun hstatus => hallowed ?_
      cases reason with
      | none => rfl
      | some _ => cases hstatus
  exact hcreate.bind (fun _ _ h => h) fun _ _ h => h

/-! ## Runs of decisions and results -/

/-- A decision or the recording of a result. -/
inductive LimitedOperation where
  | decide (nodeId : String) (alertId : ℕ) (ruleKey : String) (now : Datetime)
  | markResult (actionId : ℕ) (status : RemediationActionStatus) (reason : Option String)
      (completedAt : Instant)

/-- The program of an operation, for a given engine. -/
def LimitedOperation.program (e : RemediationEngine) :
    LimitedOperation → Repo (Option RemediationActionRecord)
  | decide nodeId alertId ruleKey now => e.decide nodeId alertId ruleKey now
  | markResult actionId status reason completedAt =>
    some <$> (Call.markResult actionId status reason completedAt).perform

theorem Complete.markResult (hw : Complete w) (actionId : ℕ) (status : RemediationActionStatus)
    (reason : Option String) (completedAt : Instant) :
    Complete (handle env (.markResult actionId status reason completedAt) w).2 := by
  rcases handle_cases env (.markResult actionId status reason completedAt) w with
    ⟨err, -, h⟩ | ⟨-, h⟩ <;> rw [h]
  · exact hw
  · unfold Complete at hw ⊢
    simp only [World.after_actions, World.after_recorded, Call.actions, Call.audit,
      map_identity_modify, hw, Option.toList_none, List.append_nil]

theorem LimitedOperation.run_withinLimits (hnonneg : 0 ≤ e.cooldownSeconds)
    (op : LimitedOperation) (hw : Complete w ∧ WithinLimits e w.recorded) :
    Complete ((op.program e).run (handle env) w).2 ∧
      WithinLimits e ((op.program e).run (handle env) w).2.recorded := by
  cases op with
  | decide nodeId alertId ruleKey now => exact (runs_decide_withinLimits hnonneg hw.1 hw.2).run
  | markResult actionId status reason completedAt =>
    have hrecorded : (handle env (.markResult actionId status reason completedAt) w).2.recorded =
        w.recorded := by
      rcases handle_cases env (.markResult actionId status reason completedAt) w with
        ⟨err, -, h⟩ | ⟨-, h⟩ <;> rw [h]
      exact List.append_nil _
    simp only [program, run_map, run_perform]
    exact ⟨hw.1.markResult .., hrecorded ▸ hw.2⟩

/-- Both Safety Limits, for any policy and any order of timestamps, whatever calls fail. -/
theorem withinLimits_serial (env : Environment) (e : RemediationEngine)
    (hnonneg : 0 ≤ e.cooldownSeconds) (ops : List LimitedOperation) {w : World}
    (hrows : w.store.remediationActions.rows = []) (hrecorded : w.recorded = []) :
    WithinLimits e
      ((serial (ops.map (LimitedOperation.program e))).run (handle env) w).2.recorded := by
  have hstart : Complete w ∧ WithinLimits e w.recorded := by
    refine ⟨?_, hrecorded ▸ withinLimits_nil⟩
    unfold Complete
    rw [hrows, hrecorded]
  refine (run_serial_invariant (fun w => Complete w ∧ WithinLimits e w.recorded)
    (fun p hp w hw => ?_) hstart).2
  obtain ⟨op, -, rfl⟩ := List.mem_map.1 hp
  exact op.run_withinLimits hnonneg hw

namespace Scenario

/-- Three decisions, the second with an earlier clock than the first. -/
def backwards : List LimitedOperation :=
  [.decide "node-1" 1 "threshold:cpu.usage_percent" (clock 5000),
    .decide "node-1" 2 "threshold:cpu.usage_percent" (clock 100),
    .markResult 1 .executed none (clock 5100).instant,
    .decide "node-1" 3 "threshold:cpu.usage_percent" (clock 7000)]

theorem withinLimits_backwards :
    WithinLimits deployment.remediationEngine ((serial (backwards.map (LimitedOperation.program
      deployment.remediationEngine))).run (handle .calm) .fresh).2.recorded ∧
    ((serial (backwards.map (LimitedOperation.program deployment.remediationEngine))).run
      (handle .calm) .fresh).2.recorded.map RemediationActionRecord.status =
        [.dispatched, .blockedBySafetyLimit, .dispatched] :=
  ⟨withinLimits_serial .calm deployment.remediationEngine
    deployment.settings.remediationCooldownSeconds_ge backwards rfl rfl, by decide +kernel⟩

end Scenario

end ClusterPulse
