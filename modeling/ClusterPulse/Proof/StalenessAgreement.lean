import ClusterPulse.Proof.RetentionSweep
import ClusterPulse.Proof.StalenessRuns

/-!
# The dead-man switch and the registry

The sweep and the registry each test whether a node is stale.  The sweep counts a node that has been
silent for the threshold, the registry reports one that has been silent for longer, so the two agree
exactly as long as no node has been silent for the threshold to the microsecond that a binary64
number tells.  Then a completed sweep after the grace sweep also leaves a firing staleness alert for
the nodes that the registry reports, and for no others.
-/

namespace ClusterPulse

open AlertRepository Prog

/-! ## What a sweep counts -/

namespace StalenessJob

/-- The nodes whose pass of the loop raises the count of stale nodes. -/
def counted (env : Environment) (settings : CollectorSettings) (firstRunDone : Bool)
    (now : Datetime) : List NodeRecord → StalenessCounts → World → List NodeRecord
  | [], _, _ => []
  | node :: nodes, counts, w =>
    match (checkNode settings firstRunDone now counts node).run (handle env) w with
    | (.ok counts', w') =>
      if counts.stale < counts'.stale then
        node :: counted env settings firstRunDone now nodes counts' w'
      else counted env settings firstRunDone now nodes counts' w'
    | (.error _, _) => []

/-- The nodes that a sweep counts as stale. -/
def countedBy (env : Environment) (settings : CollectorSettings) (firstRunDone : Bool)
    (now : Datetime) (w : World) : List NodeRecord :=
  match Call.listAllNodes.perform.run (handle env) w with
  | (.ok nodes, w') => counted env settings firstRunDone now nodes ⟨0, 0, 0⟩ w'
  | (.error _, _) => []

/-- The test of the sweep. -/
def isStale (settings : CollectorSettings) (now : Instant) (node : NodeRecord) : Bool :=
  settings.heartbeatStaleAfterSeconds ≤ Timedelta.totalSeconds (now - node.lastSeenAt)

section Counted

variable {env : Environment} {settings : CollectorSettings} {firstRunDone : Bool} {now : Datetime}
  {w w' : World} {counts counts' : StalenessCounts}

/-- One pass, whatever becomes of the alert. -/
theorem runs_checkNode_stale (env : Environment) (settings : CollectorSettings)
    (firstRunDone : Bool) (utc : now.IsUtc) (counts : StalenessCounts) (node : NodeRecord)
    (w : World) :
    Runs (handle env) (fun _ _ => True) (checkNode settings firstRunDone now counts node) w
      (Ends (fun counts' _ => counts'.stale =
        counts.stale + (isStale settings now.instant node).toNat) fun _ _ => True) := by
  have hany : ∀ {α : Type} (p : Repo α) (s : World),
      Runs (handle env) (fun _ _ => True) p s (Ends (fun _ _ => True) fun _ _ => True) :=
    fun p s => (runs_of_forall (fun _ _ => trivial) p).post fun r _ _ => by cases r <;> trivial
  unfold checkNode
  rw [Datetime.since_of_isUtc utc, lift_ok, pure_bind']
  refine (hany _ w).andThen fun found w₁ _ => ?_
  by_cases hstale : settings.heartbeatStaleAfterSeconds ≤
      Timedelta.totalSeconds (now.instant - node.lastSeenAt)
  · have hnat : (isStale settings now.instant node).toNat = 1 := by simp [isStale, hstale]
    rw [if_pos hstale, hnat]
    split_ifs
    · refine (hany _ w₁).andThen fun _ w₂ _ => ?_
      exact rfl
    · exact rfl
  · have hnat : (isStale settings now.instant node).toNat = 0 := by simp [isStale, hstale]
    rw [if_neg hstale, hnat]
    cases found with
    | none => exact rfl
    | some a =>
      refine (hany _ w₁).andThen fun _ w₂ _ => ?_
      exact rfl

/-- A loop that comes to its end has counted the nodes that pass its test. -/
theorem counted_eq_filter (utc : now.IsUtc) (nodes : List NodeRecord)
    (h : (nodes.foldlM (checkNode settings firstRunDone now) counts).run (handle env) w =
      (.ok counts', w')) :
    counted env settings firstRunDone now nodes counts w =
      nodes.filter (isStale settings now.instant) ∧
    counts'.stale = counts.stale + (nodes.filter (isStale settings now.instant)).length := by
  induction nodes generalizing counts w with
  | nil =>
    cases h
    exact ⟨rfl, rfl⟩
  | cons node nodes ih =>
    rw [List.foldlM_cons, run_bind] at h
    have hpass := (runs_checkNode_stale env settings firstRunDone utc counts node w).run
    unfold counted
    rcases hrun : (checkNode settings firstRunDone now counts node).run (handle env) w with
      ⟨e | counts₁, w₁⟩
    · rw [hrun] at h
      cases h
    · rw [hrun] at h hpass
      have hstale : counts₁.stale = counts.stale + (isStale settings now.instant node).toNat := hpass
      obtain ⟨hcounted, hcount⟩ := ih h
      dsimp only
      rw [hcounted, hcount]
      by_cases htest : isStale settings now.instant node = true
      · rw [htest] at hstale
        simp only [Bool.toNat_true] at hstale
        rw [if_pos (by omega), List.filter_cons_of_pos htest, List.length_cons]
        exact ⟨rfl, by omega⟩
      · rw [Bool.eq_false_of_not_eq_true htest] at hstale
        simp only [Bool.toNat_false] at hstale
        rw [if_neg (by omega), List.filter_cons_of_neg htest]
        exact ⟨rfl, by omega⟩

/-- A sweep that comes to its end counts the stale nodes, each of them once. -/
theorem countedBy_of_run (utc : now.IsUtc)
    (h : (run settings firstRunDone now).run (handle env) w = (.ok counts, w')) :
    (∀ r, r ∈ countedBy env settings firstRunDone now w ↔
      r ∈ w.store.nodes ∧ isStale settings now.instant r = true) ∧
    counts.stale = (countedBy env settings firstRunDone now w).length := by
  unfold run at h
  rw [run_bind] at h
  unfold countedBy
  rw [run_perform] at h ⊢
  rcases handle_cases env .listAllNodes w with ⟨e, -, heq⟩ | ⟨-, heq⟩
  · rw [heq] at h
    cases h
  · rw [heq] at h ⊢
    obtain ⟨hcounted, hcount⟩ := counted_eq_filter utc _ h
    refine ⟨fun r => ?_, ?_⟩
    · show r ∈ counted _ _ _ _ _ _ _ ↔ _
      rw [hcounted, List.mem_filter]
      exact and_congr_left fun _ => mem_reorder
    · show _ = (counted _ _ _ _ _ _ _).length
      rw [hcounted, hcount]
      exact Nat.zero_add _

end Counted

end StalenessJob

/-! ## Agreement -/

/-- Every sweep at `now` that comes to its end counts the nodes that the registry reports as stale
at `now`; and if it is not the grace sweep, it leaves a firing staleness alert for those nodes that
the registry then reports as stale, and for no others. -/
structure AgreesWithRegistry (settings : CollectorSettings) (firstRunDone : Bool) (now : Datetime)
    (w : World) : Prop where
  listed : ∀ (env reader : Environment) (counts : StalenessCounts) (w' : World),
    (StalenessJob.run settings firstRunDone now).run (handle env) w = (.ok counts, w') →
    reader.Faultless → ∀ nodeId,
      nodeId ∈ (StalenessJob.countedBy env settings firstRunDone now w).map NodeRecord.nodeId ↔
        Reports reader (getNodeRegistryService settings) now.instant w nodeId true
  got : ∀ (env : Environment) (counts : StalenessCounts) (w' : World),
    (StalenessJob.run settings firstRunDone now).run (handle env) w = (.ok counts, w') →
    ∀ nodeId,
      nodeId ∈ (StalenessJob.countedBy env settings firstRunDone now w).map NodeRecord.nodeId ↔
        ∃ view, (getNodeRegistryService settings).getNode w.store nodeId now.instant = .ok view ∧
          view.isStale = true
  alerted : firstRunDone = true →
    ∀ (env reader : Environment) (counts : StalenessCounts) (w' : World),
      (StalenessJob.run settings firstRunDone now).run (handle env) w = (.ok counts, w') →
      reader.Faultless → ∀ nodeId,
        Reports reader (getNodeRegistryService settings) now.instant w' nodeId true ↔
          Alarmed w'.store.alerts nodeId

/-- No node has been silent for the threshold exactly. -/
def NoneAtBoundary (settings : CollectorSettings) (now : Datetime) (σ : Store) : Prop :=
  ∀ r ∈ σ.nodes,
    Timedelta.totalSeconds (now.instant - r.lastSeenAt) ≠ settings.heartbeatStaleAfterSeconds

section Agreement

variable {env reader : Environment} {settings : CollectorSettings} {firstRunDone : Bool}
  {now : Datetime} {w w' : World} {v : Watch} {counts : StalenessCounts} {σ : Store}

/-- What the list reports as stale, read off the rows. -/
theorem Represents.reports_stale_iff (h : Represents w.store v) (hreader : reader.Faultless)
    (nodeId : String) :
    Reports reader (getNodeRegistryService settings) now.instant w nodeId true ↔
      ∃ r ∈ w.store.nodes, r.nodeId = nodeId ∧
        settings.heartbeatStaleAfterSeconds <
          Timedelta.totalSeconds (now.instant - r.lastSeenAt) := by
  rw [h.reports_iff hreader, Watch.overdue, ← h.lastSeen, Option.map_map, Option.map_eq_some_iff]
  refine exists_congr fun r => ?_
  rw [find?_key_eq_some_iff h.nodup, and_assoc]
  exact and_congr_right fun _ => and_congr_right fun _ => decide_eq_true_iff

/-- What the lookup of one node reports is what the list reports of it. -/
theorem Represents.getNode_stale_iff (h : Represents σ v) (nodeId : String) :
    (∃ view, (getNodeRegistryService settings).getNode σ nodeId now.instant = .ok view ∧
        view.isStale = true) ↔
      ∃ r ∈ σ.nodes, r.nodeId = nodeId ∧
        settings.heartbeatStaleAfterSeconds <
          Timedelta.totalSeconds (now.instant - r.lastSeenAt) := by
  unfold NodeRegistryService.getNode NodeRepository.get
  constructor
  · intro hview
    obtain ⟨view, hget, hstale⟩ := hview
    cases hfind : σ.nodes.find? fun r => r.nodeId == nodeId with
    | none =>
      rw [hfind] at hget
      cases hget
    | some r =>
      rw [hfind] at hget
      obtain rfl := Except.ok.inj hget
      obtain ⟨hr, hid⟩ := (find?_key_eq_some_iff h.nodup).1 hfind
      exact ⟨r, hr, hid, of_decide_eq_true hstale⟩
  · intro hlate
    obtain ⟨r, hr, rfl, hlate⟩ := hlate
    rw [(find?_key_eq_some_iff h.nodup).2 ⟨hr, rfl⟩]
    exact ⟨_, rfl, decide_eq_true hlate⟩

/-- A sweep leaves the node rows and what the watch says after it. -/
theorem Represents.of_run (h : Represents w.store v) (utc : now.IsUtc)
    (hrun : (StalenessJob.run settings firstRunDone now).run (handle env) w = (.ok counts, w')) :
    w'.store.nodes = w.store.nodes ∧ Represents w'.store
      (v.sweep settings.heartbeatStaleAfterSeconds firstRunDone now.instant) := by
  have hsweep : Sweeps env (StalenessJob.run settings firstRunDone now) w _ :=
    StalenessJob.sweeps_run utc h
  have hend := Runs.run hsweep
  rw [hrun] at hend
  exact hend

/-- After a sweep that may open alerts, the nodes with a firing alert are the stale ones. -/
theorem Represents.alarmed_iff_stale (h : Represents w.store v)
    (hkeys : w.store.ForeignKeys) (utc : now.IsUtc)
    (hrun : (StalenessJob.run settings true now).run (handle env) w = (.ok counts, w'))
    (nodeId : String) :
    Alarmed w'.store.alerts nodeId ↔
      ∃ r ∈ w.store.nodes, r.nodeId = nodeId ∧
        StalenessJob.isStale settings now.instant r = true := by
  obtain ⟨-, h'⟩ := h.of_run utc hrun
  rw [h'.alarmed, Watch.alarmed_sweep, Bool.or_true]
  constructor
  · intro halarmed
    cases hseen : v.lastSeen nodeId with
    | none =>
      -- Every alert is of a registered node.
      simp only [Watch.silent, hseen, Option.any_none, Bool.false_eq_true, if_false,
        Option.isNone_none, Bool.and_true] at halarmed
      obtain ⟨a, ha, rfl, -⟩ := (h.alarmed nodeId).2 halarmed
      obtain ⟨r, hr, hid⟩ := hkeys.alertNodes a (mem_alarms.1 ha).1
      rw [← hid, h.lastSeen_of_mem hr] at hseen
      cases hseen
    | some t =>
      obtain ⟨r, hfind, rfl⟩ := Option.map_eq_some_iff.1 ((h.lastSeen nodeId).trans hseen)
      obtain ⟨hr, hid⟩ := (find?_key_eq_some_iff h.nodup).1 hfind
      refine ⟨r, hr, hid, ?_⟩
      simp only [Watch.silent, hseen, Option.any_some, Option.isNone_some, Bool.and_false] at halarmed
      split_ifs at halarmed with hsilent
      exact hsilent
  · rintro ⟨r, hr, rfl, hstale⟩
    have hsilent : v.silent settings.heartbeatStaleAfterSeconds now.instant r.nodeId = true := by
      rw [Watch.silent, h.lastSeen_of_mem hr]
      exact hstale
    rw [hsilent, if_pos rfl]

/-- The nodes that a sweep counts, by name. -/
theorem StalenessJob.mem_countedBy_iff (utc : now.IsUtc)
    (hrun : (StalenessJob.run settings firstRunDone now).run (handle env) w = (.ok counts, w'))
    (nodeId : String) :
    nodeId ∈ (StalenessJob.countedBy env settings firstRunDone now w).map NodeRecord.nodeId ↔
      ∃ r ∈ w.store.nodes, r.nodeId = nodeId ∧
        StalenessJob.isStale settings now.instant r = true := by
  rw [List.mem_map]
  refine exists_congr fun r => ?_
  rw [(StalenessJob.countedBy_of_run utc hrun).1 r, and_assoc, and_comm (b := r.nodeId = nodeId)]

/-- Away from the boundary the two comparisons with the threshold agree. -/
theorem NoneAtBoundary.isStale_iff (h : NoneAtBoundary settings now σ) {r : NodeRecord}
    (hr : r ∈ σ.nodes) : StalenessJob.isStale settings now.instant r = true ↔
      settings.heartbeatStaleAfterSeconds <
        Timedelta.totalSeconds (now.instant - r.lastSeenAt) := by
  rw [StalenessJob.isStale, decide_eq_true_iff]
  exact (Double.le_iff_lt_iff_ne (Timedelta.totalSeconds_ne_nan _)).2 (h r hr)

theorem NoneAtBoundary.exists_stale_iff (h : NoneAtBoundary settings now σ) (nodeId : String) :
    (∃ r ∈ σ.nodes, r.nodeId = nodeId ∧ StalenessJob.isStale settings now.instant r = true) ↔
      ∃ r ∈ σ.nodes, r.nodeId = nodeId ∧ settings.heartbeatStaleAfterSeconds <
        Timedelta.totalSeconds (now.instant - r.lastSeenAt) :=
  exists_congr fun _ => and_congr_right fun hr => and_congr_right fun _ => h.isStale_iff hr

/-- A node at the boundary is counted by a sweep without faults, and not reported. -/
theorem AgreesWithRegistry.noneAtBoundary (hagrees : AgreesWithRegistry settings firstRunDone now w)
    (h : Represents w.store v) (utc : now.IsUtc) : NoneAtBoundary settings now w.store := by
  intro r hr hboundary
  have hreturns : Returns .calm (StalenessJob.run settings firstRunDone now) w fun _ w' =>
      Represents w'.store (v.sweep settings.heartbeatStaleAfterSeconds firstRunDone now.instant) :=
    StalenessJob.returns_run Environment.calm_faultless utc h
  obtain ⟨counts, w', hrun, -⟩ := exists_run_of_returns hreturns
  have hne : Timedelta.totalSeconds (now.instant - r.lastSeenAt) ≠ .nan :=
    Timedelta.totalSeconds_ne_nan _
  have hle : settings.heartbeatStaleAfterSeconds ≤
      Timedelta.totalSeconds (now.instant - r.lastSeenAt) := by
    rw [← hboundary]
    exact Double.le_refl hne
  have hcounted := (StalenessJob.mem_countedBy_iff utc hrun r.nodeId).2
    ⟨r, hr, rfl, decide_eq_true hle⟩
  have hreported := (hagrees.listed .calm .calm counts w' hrun Environment.calm_faultless _).1
    hcounted
  obtain ⟨r', hr', hid, hlt⟩ := (h.reports_stale_iff Environment.calm_faultless _).1 hreported
  obtain rfl := List.inj_on_of_nodup_map h.nodup hr' hr hid
  exact (Double.le_iff_lt_iff_ne hne).1 ⟨fun _ => hlt, fun _ => hle⟩ hboundary

/-- The sweep and the registry agree exactly if no node has been silent for the threshold to the
microsecond. -/
theorem agreesWithRegistry_iff (settings : CollectorSettings) (firstRunDone : Bool)
    {now : Datetime} (utc : now.IsUtc) {w : World} (hleft : w.store.LeftBehind)
    (hkeys : w.store.ForeignKeys) :
    AgreesWithRegistry settings firstRunDone now w ↔ NoneAtBoundary settings now w.store := by
  obtain ⟨v, h⟩ := hleft.tracked
  constructor
  · intro hagrees
    exact hagrees.noneAtBoundary h utc
  · intro hnone
    refine ⟨fun env reader counts w' hrun hreader nodeId => ?_, fun env counts w' hrun nodeId => ?_,
      fun hdone env reader counts w' hrun hreader nodeId => ?_⟩
    · rw [StalenessJob.mem_countedBy_iff utc hrun, hnone.exists_stale_iff,
        h.reports_stale_iff hreader]
    · rw [StalenessJob.mem_countedBy_iff utc hrun, hnone.exists_stale_iff, h.getNode_stale_iff]
    · subst hdone
      obtain ⟨hnodes, h'⟩ := h.of_run utc hrun
      rw [h.alarmed_iff_stale hkeys utc hrun, h'.reports_stale_iff hreader, hnodes,
        hnone.exists_stale_iff]

end Agreement

namespace Scenario

/-- One node, last seen at noon. -/
def edgeNode : World :=
  { store := { Store.empty with
      nodes := [⟨"edge-node", (clock 43200).instant, (clock 43200).instant⟩] } }

theorem edgeNode_leftBehind : edgeNode.store.LeftBehind where
  nodup := List.nodup_singleton _
  instant r hr := by
    obtain rfl := List.mem_singleton.1 hr
    exact ⟨clock 43200, rfl⟩
  oneAlarm _ ha := absurd ha List.not_mem_nil

theorem edgeNode_foreignKeys : edgeNode.store.ForeignKeys where
  sampleNodes _ hs := absurd hs List.not_mem_nil
  alertNodes _ ha := absurd ha List.not_mem_nil
  actionNodes _ ha := absurd ha List.not_mem_nil
  actionAlerts _ ha := absurd ha List.not_mem_nil

theorem agreesWithRegistry_iff_edge :
    AgreesWithRegistry .default true (clock 43290) edgeNode ↔
      NoneAtBoundary .default (clock 43290) edgeNode.store :=
  agreesWithRegistry_iff .default true (show (clock 43290).IsUtc from rfl) edgeNode_leftBehind
    edgeNode_foreignKeys

/-- Ninety seconds later the sweep counts the node and the registry reports it as alive. -/
theorem not_agreesWithRegistry : ¬ ∀ (settings : CollectorSettings) (firstRunDone : Bool)
    (now : Datetime) (w : World), now.IsUtc → w.store.LeftBehind → w.store.ForeignKeys →
      AgreesWithRegistry settings firstRunDone now w := by
  intro h
  have hagrees := h .default true (clock 43290) edgeNode rfl edgeNode_leftBehind
    edgeNode_foreignKeys
  have hcounted : "edge-node" ∈ (StalenessJob.countedBy .calm .default true (clock 43290)
      edgeNode).map NodeRecord.nodeId := by decide +kernel
  have hrun : ((StalenessJob.run .default true (clock 43290)).run (handle .calm) edgeNode).1 =
      .ok ⟨1, 1, 0⟩ := by decide +kernel
  obtain ⟨view, hget, hstale⟩ :=
    (hagrees.got .calm _ _ (Prod.ext hrun rfl) "edge-node").1 hcounted
  have hview : (getNodeRegistryService .default).getNode edgeNode.store "edge-node"
      (clock 43290).instant = .ok ⟨"edge-node", (clock 43200).instant, (clock 43200).instant,
        false⟩ := by decide +kernel
  rw [hview] at hget
  obtain rfl := Except.ok.inj hget
  cases hstale

end Scenario

end ClusterPulse
