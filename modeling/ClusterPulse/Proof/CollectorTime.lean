import ClusterPulse.Proof.OperationCalls
import ClusterPulse.Proof.SafetyLimits

/-!
# Decisions in the time of the Collector

The Collector dates a decision by the payload it is made for, that is by the Agent's clock.  Here
every call of a run has a reading of the Collector's own clock as well, and an observer notes when
each decision is made.

The hourly limit counts the actions dated within the last hour.  As long as such a count overlooks
no action that was dispatched within the last hour of Collector time, the limit is one in Collector
time too.
-/

namespace ClusterPulse

open RemediationActionRepository Prog

/-- The Collector's clock: its reading at the `n`-th call of a run. -/
structure CollectorClock where
  read : ℕ → Instant
  mono : ∀ ⦃i j⦄, i ≤ j → read i ≤ read j

/-- A decision, as it was first committed, and the Collector time at which it was made. -/
structure Decision where
  row : RemediationActionRecord
  decidedAt : Instant
deriving DecidableEq

/-- The decisions of one call. -/
def decided (clock : CollectorClock) (w w' : World) : List Decision :=
  (w'.recorded.drop w.recorded.length).map fun row => ⟨row, clock.read w.calls⟩

section Decided

variable {clock : CollectorClock} {env : Environment} {w w' : World} {c : Call}

theorem decided_of_same (h : SameLog w w') : decided clock w w' = [] := by
  unfold decided
  rw [h.recorded, List.drop_length, List.map_nil]

theorem decided_after (scan : Scan) :
    decided clock w (w.after scan c) =
      (c.audit w.store.remediationActions.next).toList.map fun row => ⟨row, clock.read w.calls⟩ := by
  unfold decided
  rw [World.after_recorded, List.drop_left]

/-- A call that neither writes the audit log nor adds to its history. -/
theorem Call.sameLog (hactions : ∀ scan, c.actions scan w.store = w.store.remediationActions)
    (haudit : ∀ n, c.audit n = none) : SameLog w (handle env c w).2 := by
  rcases handle_cases env c w with ⟨e, -, h⟩ | ⟨-, h⟩ <;> rw [h]
  · exact ⟨rfl, rfl⟩
  · exact ⟨(World.after_actions ..).trans (hactions _), by simp [haudit]⟩

/-- Only a decision writes to the audit log during an evaluation. -/
theorem Call.IsUndecided.sameLog (hc : c.IsUndecided) (w : World) :
    SameLog w (handle env c w).2 := by
  cases c with
  | createAction | markResult | pruneTerminalBefore => exact hc.elim
  | _ => exact Call.sameLog (fun _ => rfl) fun _ => rfl

/-- Only pruning takes rows from the audit log. -/
theorem Complete.handle (h : Complete w)
    (hc : ∀ cutoff batchSize, c ≠ .pruneTerminalBefore cutoff batchSize) :
    Complete (handle env c w).2 := by
  cases c with
  | pruneTerminalBefore cutoff batchSize => exact absurd rfl (hc cutoff batchSize)
  | markResult actionId status reason completedAt => exact h.markResult ..
  | createAction nodeId alertId ruleKey playbookName actionType parameters status reason createdAt =>
    rcases handle_cases env (.createAction nodeId alertId ruleKey playbookName actionType parameters
      status reason createdAt) w with ⟨e, -, heq⟩ | ⟨-, heq⟩ <;> rw [heq]
    · exact h
    · unfold Complete at h ⊢
      simp only [World.after_actions, World.after_recorded, Call.actions, Call.audit,
        Table.rows_insert, List.map_append, Option.toList_some, h, List.map_singleton]
  | _ => exact h.of_same (Call.sameLog (fun _ => rfl) fun _ => rfl)

/-- Nothing has been pruned, and the decisions are the ones that were recorded. -/
structure Dated (w : World) (decisions : List Decision) : Prop where
  complete : Complete w
  rows : decisions.map Decision.row = w.recorded

theorem dated_fresh : Dated .fresh [] := ⟨rfl, rfl⟩

theorem Dated.handle {decisions : List Decision} (h : Dated w decisions)
    (hc : ∀ cutoff batchSize, c ≠ .pruneTerminalBefore cutoff batchSize) :
    Dated (handle env c w).2 (decisions ++ decided clock w (handle env c w).2) where
  complete := h.complete.handle hc
  rows := by
    have hprefix : w.recorded <+: (ClusterPulse.handle env c w).2.recorded := by
      rcases handle_cases env c w with ⟨e, -, heq⟩ | ⟨-, heq⟩
      · rw [heq]
      · rw [heq]
        exact List.prefix_append _ _
    have hrows : (decided clock w (ClusterPulse.handle env c w).2).map Decision.row =
        (ClusterPulse.handle env c w).2.recorded.drop w.recorded.length := by
      unfold decided
      rw [List.map_map]
      exact List.map_id _
    rw [List.map_append, h.rows, hrows]
    exact List.prefix_iff_eq_append.1 hprefix

end Decided

/-! ## The hourly limit -/

/-- At `now`, a count of recent actions lets an action through that has overlooked one: it was
dispatched to the node within the last hour, and is dated before the hour that is counted. -/
def Call.overlooks (limit : ℕ) (now : Instant) (decisions : List Decision) :
    (c : Call) → Except PyError c.Res → Bool
  | .countRecentActions nodeId since, .ok (count : ℕ) =>
    decide (count < limit) && decisions.any fun d => dispatchedTo nodeId d.row &&
      decide (now - Timedelta.hour ≤ d.decidedAt) && decide (d.row.createdAt < since.instant)
  | _, _ => false

/-- What an observer notes of a run. -/
structure Ledger where
  decisions : List Decision := []
  /-- A count has overlooked an action. -/
  overlooked : Bool := false

/-- The ledger after a call. -/
def Ledger.next (clock : CollectorClock) (limit : ℕ) (c : Call) (w : World)
    (r : Except PyError c.Res × World) (l : Ledger) : Ledger where
  decisions := l.decisions ++ decided clock w r.2
  overlooked := l.overlooked || c.overlooks limit (clock.read w.calls) l.decisions r.1

/-- A deployment whose calls the ledger observes. -/
abbrev Deployment.observer (d : Deployment) (env : Environment) (clock : CollectorClock) :
    Handler Call Call.Res PyError (World × Ledger) :=
  observed (handle env) (Ledger.next clock d.settings.maxRemediationsPerNodePerHour)

/-- The ledger of a serial run of ingestions, each with the time of its receipt. -/
def Deployment.ledger (d : Deployment) (env : Environment) (clock : CollectorClock)
    (receipts : List (NodeMetricsPayload × Instant)) : Ledger :=
  ((serial (receipts.map fun r => MetricsIngestionService.ingest d.alertEvaluationService r.1 r.2)).run
    (d.observer env clock) (.fresh, {})).2.2

/-- The limit in Collector time: no hour has more dispatches to a node. -/
def CappedInTime (limit : ℕ) (decisions : List Decision) : Prop :=
  ∀ nodeId, Capped Decision.decidedAt (fun d => dispatchedTo nodeId d.row) Timedelta.hour limit
    decisions

/-- The ledger is that of the world, and within the limit unless a count has overlooked an action. -/
structure Ledger.Fits (limit : ℕ) (s : World × Ledger) : Prop where
  dated : Dated s.1 s.2.decisions
  capped : s.2.overlooked = false → CappedInTime limit s.2.decisions

section Hourly

variable {d : Deployment} {env : Environment} {clock : CollectorClock} {s : World × Ledger}
  {nodeId : String} {t : Datetime}

theorem Ledger.fits_fresh (limit : ℕ) : Ledger.Fits limit (.fresh, {}) :=
  ⟨dated_fresh, fun _ _ => capped_nil⟩

/-- What every call of an evaluation keeps, other than its decisions. -/
theorem Ledger.Fits.undecided {limit : ℕ} (h : Ledger.Fits limit s) {c : Call}
    (hc : c.IsUndecided) :
    Ledger.Fits limit (observed (handle env) (Ledger.next clock limit) c s).2 := by
  refine ⟨h.dated.handle ?_, fun hfalse => ?_⟩
  · rintro cutoff batchSize rfl
    exact hc.elim
  · show CappedInTime limit (Ledger.next _ _ _ _ _ _).decisions
    rw [Ledger.next, decided_of_same (hc.sameLog s.1), List.append_nil]
    exact h.capped (Bool.or_eq_false_iff.1 hfalse).1

/-- There is room for one more action of the node, unless a count has overlooked an action. -/
def Ledger.HasRoom (clock : CollectorClock) (limit : ℕ) (nodeId : String) (s : World × Ledger) :
    Prop :=
  s.2.overlooked = false → s.2.decisions.countP (fun d => dispatchedTo nodeId d.row &&
    decide (clock.read s.1.calls - Timedelta.hour ≤ d.decidedAt)) < limit

/-- A count that lets an action through. -/
theorem Ledger.Fits.hasRoom {limit : ℕ} (h : Ledger.Fits limit s) {since : Datetime} {count : ℕ}
    (hr : (handle env (.countRecentActions nodeId since) s.1).1 = .ok count)
    (hcount : count < limit) :
    Ledger.HasRoom clock limit nodeId
      (observed (handle env) (Ledger.next clock limit) (.countRecentActions nodeId since) s).2 := by
  intro hfalse
  have hsame : SameLog s.1 (handle env (.countRecentActions nodeId since) s.1).2 :=
    Call.IsUndecided.sameLog (c := .countRecentActions nodeId since) trivial s.1
  have hseen : (Call.countRecentActions nodeId since).overlooks limit (clock.read s.1.calls)
      s.2.decisions (.ok count) = false := by
    rw [← hr]
    exact (Bool.or_eq_false_iff.1 hfalse).2
  have hvalue : count = s.2.decisions.countP fun d =>
      d.row.nodeId == nodeId && decide (since.instant ≤ d.row.createdAt) := by
    have hexec : count = RemediationActionRepository.countRecentActions s.1.store nodeId since := by
      rcases handle_cases env (.countRecentActions nodeId since) s.1 with ⟨e, -, heq⟩ | ⟨-, heq⟩
      · rw [heq] at hr
        cases hr
      · rw [heq] at hr
        exact (Except.ok.inj hr).symm
    rw [hexec, RemediationActionRepository.countRecentActions,
      h.dated.complete.countP _ fun _ => rfl, ← h.dated.rows, List.countP_map]
    rfl
  refine lt_of_le_of_lt ?_ hcount
  show List.countP _ (Ledger.next _ _ _ _ _ _).decisions ≤ count
  rw [Ledger.next, decided_of_same hsame, List.append_nil, hvalue]
  refine List.countP_mono_left fun d hd hrecent => ?_
  simp only [observed, handle_calls, Bool.and_eq_true, decide_eq_true_eq] at hrecent
  obtain ⟨hto, htime⟩ := hrecent
  have hnode : (d.row.nodeId == nodeId) = true := by
    simp only [dispatchedTo, Bool.and_eq_true] at hto
    exact hto.2
  -- the clock has not gone back since the count
  have hwithin : clock.read s.1.calls - Timedelta.hour ≤ d.decidedAt :=
    le_trans (sub_le_sub_right (clock.mono (Nat.le_succ _)) _) htime
  have hdated : since.instant ≤ d.row.createdAt := by
    by_contra hearly
    rw [not_le] at hearly
    simp only [Call.overlooks, hcount, decide_true, Bool.true_and, List.any_eq_false] at hseen
    exact hseen d hd (by simp [hto, hwithin, hearly])
  simp [hnode, hdated]

theorem Ledger.runs_checkRateLimit {e : RemediationEngine}
    (h : Ledger.Fits e.maxActionsPerNodePerHour s) :
    Runs (observed (handle env) (Ledger.next clock e.maxActionsPerNodePerHour))
      (fun _ _ => True) (e.checkRateLimit nodeId t) s (Ends
        (fun reason s' => Ledger.Fits e.maxActionsPerNodePerHour s' ∧
          (reason = none → Ledger.HasRoom clock e.maxActionsPerNodePerHour nodeId s'))
        fun _ s' => Ledger.Fits e.maxActionsPerNodePerHour s') := by
  unfold RemediationEngine.checkRateLimit
  rcases t.minus Timedelta.hour with err | since
  · exact h
  rw [lift_ok, pure_bind']
  have hfits : Ledger.Fits e.maxActionsPerNodePerHour (observed (handle env)
      (Ledger.next clock e.maxActionsPerNodePerHour) (.countRecentActions nodeId since) s).2 :=
    h.undecided (c := .countRecentActions nodeId since) trivial
  have hcount : Runs (observed (handle env) (Ledger.next clock e.maxActionsPerNodePerHour))
      (fun _ _ => True) (Call.countRecentActions nodeId since).perform s (Ends
        (fun count s' => Ledger.Fits e.maxActionsPerNodePerHour s' ∧
          (count < e.maxActionsPerNodePerHour →
            Ledger.HasRoom clock e.maxActionsPerNodePerHour nodeId s'))
        fun _ s' => Ledger.Fits e.maxActionsPerNodePerHour s') := by
    refine Prog.runs_perform trivial ?_
    rcases hr : (handle env (.countRecentActions nodeId since) s.1).1 with err | count
    · rw [observed, hr]
      exact hfits
    · rw [observed, hr]
      exact ⟨hfits, h.hasRoom hr⟩
  refine hcount.andThen fun count s₁ hs₁ => ?_
  split_ifs with hmax
  · exact ⟨hs₁.1, nofun⟩
  · exact ⟨hs₁.1, fun _ => hs₁.2 (not_le.1 hmax)⟩

theorem Ledger.runs_checkSafetyLimits {e : RemediationEngine}
    (h : Ledger.Fits e.maxActionsPerNodePerHour s) (playbook : PlaybookDefinition) :
    Runs (observed (handle env) (Ledger.next clock e.maxActionsPerNodePerHour))
      (fun _ _ => True) (e.checkSafetyLimits nodeId playbook t) s (Ends
        (fun reason s' => Ledger.Fits e.maxActionsPerNodePerHour s' ∧
          (reason = none → Ledger.HasRoom clock e.maxActionsPerNodePerHour nodeId s'))
        fun _ s' => Ledger.Fits e.maxActionsPerNodePerHour s') := by
  unfold RemediationEngine.checkSafetyLimits
  have hlast : Keeps (observed (handle env) (Ledger.next clock e.maxActionsPerNodePerHour))
      (Ledger.Fits e.maxActionsPerNodePerHour)
      (Call.findLastAction nodeId playbook.playbookName).perform s :=
    Prog.runs_perform trivial (h.undecided (c := .findLastAction nodeId playbook.playbookName) trivial)
  refine Runs.bind hlast (fun last s₁ h₁ => ?_) fun _ _ h₁ => h₁
  rcases RemediationEngine.elapsedSince t last with err | _ | elapsed
  · exact h₁
  · exact runs_checkRateLimit h₁
  · simp only [lift_ok, pure_bind']
    split_ifs
    · exact ⟨h₁, nofun⟩
    · exact runs_checkRateLimit h₁

/-- The ledger still fits after a decision for which there was room, if it was dispatched. -/
theorem Ledger.Fits.createAction {limit : ℕ} (h : Ledger.Fits limit s) {alertId : ℕ}
    {ruleKey playbookName : String} {actionType : PlaybookActionType} {parameters : StrDict}
    {reason : Option String} (hroom : reason = none → Ledger.HasRoom clock limit nodeId s) :
    Ledger.Fits limit (observed (handle env) (Ledger.next clock limit) (.createAction nodeId alertId
      ruleKey playbookName actionType parameters (RemediationEngine.statusFor reason) reason t) s).2 := by
  refine ⟨h.dated.handle (fun _ _ hprune => nomatch hprune), fun hfalse n => ?_⟩
  have hbefore : s.2.overlooked = false := (Bool.or_eq_false_iff.1 hfalse).1
  show Capped _ _ _ _ (Ledger.next _ _ _ _ _ _).decisions
  rw [Ledger.next]
  generalize hcall : Call.createAction nodeId alertId ruleKey playbookName actionType parameters
    (RemediationEngine.statusFor reason) reason t = c
  rcases handle_cases env c s.1 with ⟨err, -, heq⟩ | ⟨-, heq⟩ <;> rw [heq]
  · have hsame : SameLog s.1 { s.1 with calls := s.1.calls + 1 } := ⟨rfl, rfl⟩
    rw [decided_of_same hsame, List.append_nil]
    exact h.capped hbefore n
  · subst hcall
    rw [decided_after, Call.audit, Option.toList_some, List.map_singleton]
    set x := newAction nodeId alertId ruleKey playbookName actionType parameters
      (RemediationEngine.statusFor reason) reason t s.1.store.remediationActions.next
    by_cases hto : dispatchedTo n x = true
    · have hboth := hto
      simp only [dispatchedTo, Bool.and_eq_true, beq_iff_eq] at hboth
      obtain ⟨hstatus, rfl⟩ := hboth
      have hreason : reason = none := by
        cases reason with
        | none => rfl
        | some _ => cases hstatus
      exact (h.capped hbefore _).concat (fun _ hd => hd) (hroom hreason hbefore)
    · exact (h.capped hbefore n).concat_of_not (by simpa using hto)

theorem Ledger.keeps_decide {e : RemediationEngine} (h : Ledger.Fits e.maxActionsPerNodePerHour s)
    (alertId : ℕ) (ruleKey : String) :
    Keeps (observed (handle env) (Ledger.next clock e.maxActionsPerNodePerHour))
      (Ledger.Fits e.maxActionsPerNodePerHour) (e.decide nodeId alertId ruleKey t) s := by
  unfold RemediationEngine.decide
  split_ifs
  swap
  · exact h
  rcases e.byRuleKey? ruleKey with _ | playbook
  · exact h
  refine (runs_checkSafetyLimits h playbook).bind (fun reason s₁ hs₁ => ?_) fun _ _ h₁ => h₁
  obtain ⟨h₁, hroom⟩ := hs₁
  exact Keeps.bind (Prog.runs_perform trivial (h₁.createAction hroom)) fun _ _ h₂ => h₂

/-- An ingestion keeps the ledger within the limit, unless a count overlooks an action. -/
theorem Ledger.fits_ingest (payload : NodeMetricsPayload) (receivedAt : Instant)
    (h : Ledger.Fits d.settings.maxRemediationsPerNodePerHour s) :
    Ledger.Fits d.settings.maxRemediationsPerNodePerHour
      ((MetricsIngestionService.ingest d.alertEvaluationService payload receivedAt).run
        (d.observer env clock) s).2 := by
  have hkept : KeptBy (d.observer env clock)
      (Ledger.Fits d.settings.maxRemediationsPerNodePerHour) d.alertEvaluationService
      payload.nodeId payload.collectedAt := by
    refine ⟨fun c s hc hs => hs.undecided hc, fun e he alertId ruleKey s hs => ?_⟩
    obtain rfl : d.remediationEngine = e := Option.some.inj he
    exact keeps_decide (e := d.remediationEngine) hs alertId ruleKey
  exact (hkept.ingest receivedAt h).run

/-- The hourly limit holds in Collector time, as long as no count that lets an action through
overlooks one that was dispatched within the last hour. -/
theorem Deployment.cappedInTime (d : Deployment) (env : Environment) (clock : CollectorClock)
    (receipts : List (NodeMetricsPayload × Instant))
    (hseen : (d.ledger env clock receipts).overlooked = false) :
    CappedInTime d.settings.maxRemediationsPerNodePerHour (d.ledger env clock receipts).decisions := by
  refine (run_serial_invariant (Ledger.Fits d.settings.maxRemediationsPerNodePerHour)
    (fun p hp s hs => ?_) (Ledger.fits_fresh _)).capped hseen
  obtain ⟨r, -, rfl⟩ := List.mem_map.1 hp
  exact Ledger.fits_ingest r.1 r.2 hs

end Hourly

namespace Scenario

/-- One remediation per node and hour. -/
def strictDeployment : Deployment :=
  { deployment with
    settings := { deployment.settings with
      maxRemediationsPerNodePerHour := 1
      maxRemediationsPerNodePerHour_ge := Nat.one_pos } }

/-- A clock that is read every millisecond. -/
def wallClock : CollectorClock where
  read n := (clock 43200).instant + n * 1000
  mono m n h := by
    have hcast : (m : ℤ) ≤ n := by exact_mod_cast h
    linarith

/-- A payload that is received at noon, whenever its samples were collected. -/
def receipt (seconds : Fin 86400) (usage : Double) : NodeMetricsPayload × Instant :=
  (payload seconds usage, (clock 43200).instant)

/-- An alert is opened, remediated and resolved, and so is a second one. -/
def backlog : List (NodeMetricsPayload × Instant) :=
  [receipt 0 95, receipt 2000 96, receipt 2010 10, receipt 9000 95, receipt 11000 96]

/-- A backlog of three hours, delivered within a second: two actions are dispatched in one hour. -/
theorem not_cappedInTime : ¬ ∀ (d : Deployment) (env : Environment) (clock : CollectorClock)
    (receipts : List (NodeMetricsPayload × Instant)),
    CappedInTime d.settings.maxRemediationsPerNodePerHour
      (d.ledger env clock receipts).decisions := by
  intro h
  have hnoon := h strictDeployment .calm wallClock backlog "node-1" (clock 43200).instant
  exact absurd hnoon (by decide +kernel)

/-- The first half of the backlog: one action is dispatched, and no count overlooks any. -/
theorem cappedInTime_backlog :
    CappedInTime 1 (strictDeployment.ledger .calm wallClock (backlog.take 3)).decisions ∧
      (strictDeployment.ledger .calm wallClock (backlog.take 3)).decisions.map
        (fun d => dispatchedTo "node-1" d.row) = [true] :=
  ⟨strictDeployment.cappedInTime .calm wallClock (backlog.take 3) (by decide +kernel),
    by decide +kernel⟩

end Scenario

end ClusterPulse
