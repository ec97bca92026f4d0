import ClusterPulse.Lib.Machine
import ClusterPulse.Proof.CollectorTime
import ClusterPulse.Proof.GroundTruth

/-!
# How long a dispatch waits

A sweep compares the date of a dispatched action, a reading of the Agent's clock, with a cutoff in
Collector time.  It gives every dispatch its full waiting time, and no more, exactly as long as for
each waiting action that date and the time of the dispatch are on the same side of the cutoff.
-/

namespace ClusterPulse

open RemediationActionRepository Prog

/-- The time lies more than the timeout before the sweep. -/
def Sweep.IsPast (s : Sweep) (t : Instant) : Prop :=
  match ReconciliationJob.cutoff s.settings.remediationDispatchTimeoutSeconds s.now with
  | .ok cutoff => t < cutoff.instant
  | .error _ => False

instance (s : Sweep) (t : Instant) : Decidable (s.IsPast t) :=
  match h : ReconciliationJob.cutoff s.settings.remediationDispatchTimeoutSeconds s.now with
  | .ok cutoff => decidable_of_iff (t < cutoff.instant) (by simp only [Sweep.IsPast, h])
  | .error _ => isFalse (by simp only [Sweep.IsPast, h, not_false_eq_true])

theorem Sweep.timesOut_iff (s : Sweep) (a : RemediationActionRecord) :
    s.TimesOut a ↔ s.IsPast a.createdAt := Iff.rfl

/-- An ingestion, a report or a sweep. -/
inductive DispatchEvent where
  | ingest (svc : AlertEvaluationService) (payload : NodeMetricsPayload) (receivedAt : Instant)
  | reportResult (actionId : ℕ) (result : ActionResult) (now : Instant)
  | sweep (s : Sweep)

def DispatchEvent.operation : DispatchEvent → Operation
  | ingest svc payload receivedAt => .ingest svc payload receivedAt
  | reportResult actionId result now => .reportResult actionId result now
  | sweep s => s.operation

/-- The decisions after a call. -/
def noteDecisions (clock : CollectorClock) (c : Call) (w : World)
    (r : Except PyError c.Res × World) (decisions : List Decision) : List Decision :=
  decisions ++ decided clock w r.2

/-- The world and the decisions so far, after an event. -/
def playDated (env : Environment) (clock : CollectorClock) (s : World × List Decision)
    (e : DispatchEvent) : World × List Decision :=
  (e.operation.program.run (observed (handle env) (noteDecisions clock)) s).2

/-- A sweep times out the actions that are still dispatched and whose dispatch is past, and leaves
every other action as it is. -/
def TimesOutPast (s s' : World × List Decision) (sweep : Sweep) : Prop :=
  ∀ a ∈ s.1.store.remediationActions.rows, ∃ d ∈ s.2, d.row.id = a.id ∧
    s'.1.store.remediationActions.get? a.id = some
      (if a.status = .dispatched ∧ sweep.IsPast d.decidedAt then
        marked .failed (some ReconciliationJob.timedOutReason) sweep.now.instant a
      else a)

instance (s s' : World × List Decision) (sweep : Sweep) : Decidable (TimesOutPast s s' sweep) :=
  inferInstanceAs (Decidable (∀ a ∈ s.1.store.remediationActions.rows, _))

/-- Every dispatch is given its waiting time by the event. -/
def GivesWaitingTime (env : Environment) (clock : CollectorClock) (s : World × List Decision) :
    DispatchEvent → Prop
  | .sweep sweep => TimesOutPast s (playDated env clock s (.sweep sweep)) sweep
  | _ => True

/-- At a sweep, the date of each waiting action and the time of its dispatch are both past or both
not. -/
def DatedAlike (s : World × List Decision) : DispatchEvent → Prop
  | .sweep sweep => ∀ a ∈ s.1.store.remediationActions.rows, a.status = .dispatched →
    ∀ d ∈ s.2, d.row.id = a.id → (sweep.IsPast a.createdAt ↔ sweep.IsPast d.decidedAt)
  | _ => True

section Timeout

variable {env : Environment} {clock : CollectorClock} {w : World} {decisions : List Decision}
  {s : World × List Decision}

theorem map_id_of_identity {L L' : List RemediationActionRecord}
    (h : L.map RemediationActionRecord.identity = L'.map RemediationActionRecord.identity) :
    L.map RemediationActionRecord.id = L'.map RemediationActionRecord.id := by
  have hid := congrArg (List.map RemediationActionRecord.id) h
  rw [List.map_map, List.map_map] at hid
  exact hid

theorem Dated.map_id (h : Dated w decisions) : decisions.map (fun d => d.row.id) =
    w.store.remediationActions.rows.map RemediationActionRecord.id := by
  rw [map_id_of_identity h.complete, ← h.rows, List.map_map]
  rfl

/-- Every action has been decided. -/
theorem Dated.exists_decision (h : Dated w decisions) {a : RemediationActionRecord}
    (ha : a ∈ w.store.remediationActions.rows) : ∃ d ∈ decisions, d.row.id = a.id := by
  have hid : a.id ∈ decisions.map fun d => d.row.id := by
    rw [h.map_id]
    exact List.mem_map_of_mem ha
  exact List.mem_map.1 hid

/-- Every action has been decided once. -/
theorem Dated.unique (h : Dated w decisions) {d d' : Decision} (hd : d ∈ decisions)
    (hd' : d' ∈ decisions) (hid : d.row.id = d'.row.id) : d = d' := by
  have hnodup : (decisions.map fun d => d.row.id).Nodup := by
    rw [h.map_id]
    exact w.store.remediationActions.nodup
  exact List.inj_on_of_nodup_map hnodup hd hd' hid

/-- No event prunes the audit log. -/
theorem DispatchEvent.not_prune {e : DispatchEvent} {c : Call} (hc : e.operation.Makes c)
    (cutoff : Instant) (batchSize : ℕ) : c ≠ .pruneTerminalBefore cutoff batchSize := by
  rintro rfl
  cases e with
  | ingest => exact hc.elim
  | reportResult => rcases hc with hc | hc <;> cases hc
  | sweep => rcases hc with ⟨_, hc⟩ | ⟨_, hc⟩ <;> cases hc

theorem Dated.play (h : Dated s.1 s.2) (e : DispatchEvent) :
    Dated (playDated env clock s e).1 (playDated env clock s e).2 :=
  (e.operation.only_program.runs (fun s : World × List Decision => Dated s.1 s.2)
    (fun _ _ hc hs => hs.handle fun cutoff n => DispatchEvent.not_prune hc cutoff n) h).run

/-- What a sweep does, and what it should do, agree on an action exactly if the date and the time of
the dispatch are on the same side. -/
theorem swept_eq_iff {sweep : Sweep} {a : RemediationActionRecord} {t : Instant} :
    sweep.swept a = (if a.status = .dispatched ∧ sweep.IsPast t then
        marked .failed (some ReconciliationJob.timedOutReason) sweep.now.instant a
      else a) ↔ (a.status = .dispatched → (sweep.IsPast a.createdAt ↔ sweep.IsPast t)) := by
  have hmarked : a.status = .dispatched →
      marked .failed (some ReconciliationJob.timedOutReason) sweep.now.instant a ≠ a := by
    intro hstatus heq
    have hfailed : RemediationActionStatus.failed = a.status := congrArg (·.status) heq
    rw [hstatus] at hfailed
    cases hfailed
  unfold Sweep.swept
  simp only [sweep.timesOut_iff]
  by_cases hstatus : a.status = .dispatched
  · have hne := hmarked hstatus
    by_cases hdate : sweep.IsPast a.createdAt <;> by_cases htime : sweep.IsPast t <;>
      simp [hstatus, hdate, htime, hne, Ne.symm hne]
  · simp [hstatus]

theorem givesWaitingTime_iff (henv : env.Faultless) (h : Dated s.1 s.2) (e : DispatchEvent) :
    GivesWaitingTime env clock s e ↔ DatedAlike s e := by
  cases e with
  | ingest | reportResult => exact Iff.rfl
  | sweep sweep =>
    have hrow : ∀ a ∈ s.1.store.remediationActions.rows,
        (playDated env clock s (.sweep sweep)).1.store.remediationActions.get? a.id =
          some (sweep.swept a) := by
      intro a ha
      have hworld : (playDated env clock s (.sweep sweep)).1 =
          (sweep.operation.program.run (handle env) s.1).2 :=
        (run_observed (noteDecisions clock) sweep.operation.program s).2
      rw [hworld, sweep.get?_run henv, Table.get?_of_mem ha, Option.map_some]
    constructor
    · intro hgives a ha hstatus d hd hid
      obtain ⟨d', hd', hid', hafter⟩ := hgives a ha
      obtain rfl := h.unique hd hd' (hid.trans hid'.symm)
      rw [hrow a ha] at hafter
      exact swept_eq_iff.1 (Option.some.inj hafter) hstatus
    · intro halike a ha
      obtain ⟨d, hd, hid⟩ := h.exists_decision ha
      refine ⟨d, hd, hid, (hrow a ha).trans (congrArg some ?_)⟩
      exact swept_eq_iff.2 fun hstatus => halike a ha hstatus d hd hid

/-- In every run, each sweep times out exactly the actions whose dispatch is past, if and only if at
each sweep the date of every waiting action is on the same side of the cutoff as its dispatch. -/
theorem dispatchTimeout_iff (henv : env.Faultless) (clock : CollectorClock)
    (events : List DispatchEvent) :
    Machine.Meets (playDated env clock) (GivesWaitingTime env clock) (.fresh, []) events ↔
      Machine.Meets (playDated env clock) DatedAlike (.fresh, []) events := by
  refine Machine.meets_iff_meets (fun s s' => s = s' ∧ Dated s.1 s.2) ?_ ?_ ⟨rfl, dated_fresh⟩
  · rintro s _ e ⟨rfl, h⟩ -
    exact ⟨rfl, h.play e⟩
  · rintro s _ e ⟨rfl, h⟩
    exact givesWaitingTime_iff henv h e

end Timeout

namespace Scenario

/-- A dispatch at noon for samples that an Agent with a slow clock has collected at 2000 seconds, and
a sweep a second later. -/
def slowClock : List DispatchEvent :=
  [.ingest service (payload 0 95) (clock 43200).instant,
    .ingest service (payload 2000 96) (clock 43200).instant,
    .sweep ⟨.default, clock 43201⟩]

theorem dispatchTimeout_iff_slowClock :
    Machine.Meets (playDated .calm wallClock) (GivesWaitingTime .calm wallClock) (.fresh, [])
        slowClock ↔
      Machine.Meets (playDated .calm wallClock) DatedAlike (.fresh, []) slowClock :=
  dispatchTimeout_iff Environment.calm_faultless wallClock slowClock

/-- The action is given up a second after it was dispatched. -/
theorem not_dispatchTimeout : ¬ ∀ (env : Environment) (clock : CollectorClock)
    (events : List DispatchEvent), env.Faultless →
      Machine.Meets (playDated env clock) (GivesWaitingTime env clock) (.fresh, []) events := by
  intro h
  obtain ⟨-, -, hsweep, -⟩ := h .calm wallClock slowClock Environment.calm_faultless
  have hgives : ¬ TimesOutPast
      ((slowClock.take 2).foldl (playDated .calm wallClock) (.fresh, []))
      (slowClock.foldl (playDated .calm wallClock) (.fresh, []))
      ⟨.default, clock 43201⟩ := by decide +kernel
  exact hgives hsweep

end Scenario

end ClusterPulse
