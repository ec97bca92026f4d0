import ClusterPulse.Collector.NodeRegistry
import ClusterPulse.Lib.Machine
import ClusterPulse.Proof.Effects
import Mathlib.Order.Bounds.Basic

/-!
# When a node was last seen

`record_seen` writes the time it is given, which is the Agent's.  The registry only moves forward
exactly as long as no node is recorded at a time before the one it was last recorded at.
-/

namespace ClusterPulse

open Prog

/-! ## Sightings -/

/-- A call of `record_seen`. -/
structure Sighting where
  nodeId : String
  seenAt : Datetime
  now : Instant

/-- The world and the sightings that have been recorded. -/
structure Sightings where
  world : World
  recorded : List Sighting

/-- A call that fails records nothing. -/
def Sightings.record (env : Environment) (svc : NodeRegistryService) (s : Sightings) (e : Sighting) :
    Sightings :=
  match (svc.recordSeen e.nodeId e.seenAt e.now).run (handle env) s.world with
  | (.ok _, w) => ⟨w, s.recorded ++ [e]⟩
  | (.error _, w) => ⟨w, s.recorded⟩

def Sightings.fresh : Sightings := ⟨.fresh, []⟩

/-- The times at which a node was recorded. -/
def Sightings.times (s : Sightings) (nodeId : String) : Set Instant :=
  {t | ∃ e ∈ s.recorded, e.nodeId = nodeId ∧ e.seenAt.instant = t}

/-- Every node that was recorded is there, last seen at the greatest of its times, and first seen no
later than that. -/
structure Sightings.UpToDate (s : Sightings) : Prop where
  known : ∀ e ∈ s.recorded, ∃ n ∈ s.world.store.nodes, n.nodeId = e.nodeId
  greatest : ∀ n ∈ s.world.store.nodes, IsGreatest (s.times n.nodeId) n.lastSeenAt
  ordered : ∀ n ∈ s.world.store.nodes, n.firstSeenAt ≤ n.lastSeenAt

/-- No node is seen earlier than before. -/
def Sightings.LaterThan (s' s : Sightings) : Prop :=
  ∀ n ∈ s.world.store.nodes, ∃ n' ∈ s'.world.store.nodes,
    n'.nodeId = n.nodeId ∧ n.lastSeenAt ≤ n'.lastSeenAt

/-- The sighting moves the registry forward. -/
def Sightings.Forward (env : Environment) (svc : NodeRegistryService) (s : Sightings)
    (e : Sighting) : Prop :=
  (s.record env svc e).LaterThan s ∧ (s.record env svc e).UpToDate

/-- The sighting, if it is recorded, is not before the last one of its node. -/
def Sightings.NotBefore (env : Environment) (s : Sightings) (e : Sighting) : Prop :=
  env.fault s.world.calls (.upsertSeen e.nodeId e.seenAt) = none →
    ∀ n ∈ s.world.store.nodes, n.nodeId = e.nodeId → n.lastSeenAt ≤ e.seenAt.instant

instance (env : Environment) (s : Sightings) (e : Sighting) : Decidable (s.NotBefore env e) :=
  inferInstanceAs (Decidable (_ → ∀ n ∈ s.world.store.nodes, _ → _))

section Forward

variable {env : Environment} {svc : NodeRegistryService} {s : Sightings} {e : Sighting}

theorem Sightings.record_cases (env : Environment) (svc : NodeRegistryService) (s : Sightings)
    (e : Sighting) :
    ((∃ err, env.fault s.world.calls (.upsertSeen e.nodeId e.seenAt) = some err) ∧
      (s.record env svc e).world.store = s.world.store ∧
        (s.record env svc e).recorded = s.recorded) ∨
    (env.fault s.world.calls (.upsertSeen e.nodeId e.seenAt) = none ∧
      (s.record env svc e).world.store =
          (NodeRepository.upsertSeen s.world.store e.nodeId e.seenAt).2 ∧
        (s.record env svc e).recorded = s.recorded ++ [e]) := by
  unfold Sightings.record NodeRegistryService.recordSeen
  rw [run_bind, run_perform]
  rcases handle_cases env (.upsertSeen e.nodeId e.seenAt) s.world with ⟨err, herr, h⟩ | ⟨hnone, h⟩
  · rw [h]
    exact .inl ⟨⟨err, herr⟩, rfl, rfl⟩
  · rw [h]
    exact .inr ⟨hnone, rfl, rfl⟩

theorem Sightings.UpToDate.congr {s' : Sightings} (h : s.UpToDate)
    (hstore : s'.world.store = s.world.store) (hrecorded : s'.recorded = s.recorded) :
    s'.UpToDate := by
  obtain ⟨w, recorded⟩ := s
  obtain ⟨w', recorded'⟩ := s'
  obtain rfl : recorded' = recorded := hrecorded
  obtain ⟨known, greatest, ordered⟩ := h
  have hnodes : w'.store.nodes = w.store.nodes := congrArg Store.nodes hstore
  refine ⟨?_, ?_, ?_⟩
  · show ∀ e ∈ recorded', ∃ n ∈ w'.store.nodes, n.nodeId = e.nodeId
    rw [hnodes]
    exact known
  · show ∀ n ∈ w'.store.nodes, _
    rw [hnodes]
    exact greatest
  · show ∀ n ∈ w'.store.nodes, n.firstSeenAt ≤ n.lastSeenAt
    rw [hnodes]
    exact ordered

/-- What a recorded sighting leaves. -/
structure Sightings.Recorded (s : Sightings) (e : Sighting) (s' : Sightings) : Prop where
  nodes : s'.world.store.nodes =
    (NodeRepository.upsertSeen s.world.store e.nodeId e.seenAt).2.nodes
  recorded : s'.recorded = s.recorded ++ [e]

section Recorded

variable {s' : Sightings} {n : NodeRecord}

theorem Sightings.Recorded.mem_times_iff (h : s.Recorded e s') {m : String} {t : Instant} :
    t ∈ s'.times m ↔ t ∈ s.times m ∨ e.nodeId = m ∧ e.seenAt.instant = t := by
  simp only [times, h.recorded, List.mem_append, List.mem_singleton, Set.mem_ofPred_eq]
  constructor
  · rintro ⟨e', he' | rfl, hid, ht⟩
    · exact .inl ⟨e', he', hid, ht⟩
    · exact .inr ⟨hid, ht⟩
  · rintro (⟨e', he', hid, ht⟩ | ⟨hid, ht⟩)
    · exact ⟨e', .inl he', hid, ht⟩
    · exact ⟨e, .inr rfl, hid, ht⟩

theorem Sightings.Recorded.exists_new (h : s.Recorded e s') :
    ∃ new ∈ s'.world.store.nodes, new.nodeId = e.nodeId := by
  rw [h.nodes]
  exact NodeRepository.exists_mem_upsertSeen s.world.store e.nodeId e.seenAt

/-- The rows of the other nodes stay. -/
theorem Sightings.Recorded.mem_iff (h : s.Recorded e s') (hid : n.nodeId ≠ e.nodeId) :
    n ∈ s'.world.store.nodes ↔ n ∈ s.world.store.nodes := by
  rw [h.nodes]
  exact NodeRepository.mem_upsertSeen_of_ne hid

theorem Sightings.Recorded.of_mem (h : s.Recorded e s') (hn : n ∈ s'.world.store.nodes)
    (hid : n.nodeId = e.nodeId) : n.lastSeenAt = e.seenAt.instant ∧
      ((∃ n₀ ∈ s.world.store.nodes, n₀.nodeId = e.nodeId ∧ n.firstSeenAt = n₀.firstSeenAt) ∨
        (∀ n₀ ∈ s.world.store.nodes, n₀.nodeId ≠ e.nodeId) ∧
          n.firstSeenAt = e.seenAt.instant) := by
  rw [h.nodes] at hn
  exact NodeRepository.of_mem_upsertSeen hn hid

/-- A sighting that comes in order moves no node back. -/
theorem Sightings.Recorded.laterThan (h : s.Recorded e s')
    (hlater : ∀ n ∈ s.world.store.nodes, n.nodeId = e.nodeId → n.lastSeenAt ≤ e.seenAt.instant) :
    s'.LaterThan s := by
  intro n hn
  by_cases hid : n.nodeId = e.nodeId
  · obtain ⟨new, hnew, hnewId⟩ := h.exists_new
    refine ⟨new, hnew, hnewId.trans hid.symm, ?_⟩
    rw [(h.of_mem hnew hnewId).1]
    exact hlater n hn hid
  · exact ⟨n, (h.mem_iff hid).2 hn, rfl, le_rfl⟩

theorem Sightings.UpToDate.of_recorded (hs : s.UpToDate) (h : s.Recorded e s')
    (hlater : ∀ n ∈ s.world.store.nodes, n.nodeId = e.nodeId → n.lastSeenAt ≤ e.seenAt.instant) :
    s'.UpToDate where
  known e' he' := by
    rw [h.recorded, List.mem_append, List.mem_singleton] at he'
    by_cases hid : e'.nodeId = e.nodeId
    · obtain ⟨new, hnew, hnewId⟩ := h.exists_new
      exact ⟨new, hnew, hnewId.trans hid.symm⟩
    · obtain ⟨n, hn, hnode⟩ := hs.known e' (he'.resolve_right fun heq => hid (heq ▸ rfl))
      exact ⟨n, (h.mem_iff (hnode ▸ hid)).2 hn, hnode⟩
  greatest n hn := by
    by_cases hid : n.nodeId = e.nodeId
    · rw [(h.of_mem hn hid).1]
      refine ⟨h.mem_times_iff.2 (.inr ⟨hid.symm, rfl⟩), fun t ht => ?_⟩
      rcases h.mem_times_iff.1 ht with hold | ⟨-, rfl⟩
      · obtain ⟨e', he', hid', rfl⟩ := hold
        obtain ⟨n₀, hn₀, hnode⟩ := hs.known e' he'
        have hle : e'.seenAt.instant ≤ n₀.lastSeenAt :=
          (hs.greatest n₀ hn₀).2 ⟨e', he', hnode.symm, rfl⟩
        exact hle.trans (hlater n₀ hn₀ ((hnode.trans hid').trans hid))
      · exact le_rfl
    · have hold := hs.greatest n ((h.mem_iff hid).1 hn)
      refine ⟨h.mem_times_iff.2 (.inl hold.1), fun t ht => ?_⟩
      exact hold.2 ((h.mem_times_iff.1 ht).resolve_right fun heq => hid heq.1.symm)
  ordered n hn := by
    by_cases hid : n.nodeId = e.nodeId
    · obtain ⟨hlast, ⟨n₀, hn₀, hnode, hfirst⟩ | ⟨-, hfirst⟩⟩ := h.of_mem hn hid
      · rw [hlast, hfirst]
        exact (hs.ordered n₀ hn₀).trans (hlater n₀ hn₀ hnode)
      · rw [hlast, hfirst]
    · exact hs.ordered n ((h.mem_iff hid).1 hn)

end Recorded

theorem Sightings.UpToDate.forward_iff (h : s.UpToDate) :
    s.Forward env svc e ↔ s.NotBefore env e := by
  unfold Forward NotBefore
  rcases s.record_cases env svc e with ⟨⟨err, herr⟩, hstore, hrecorded⟩ | ⟨hnone, hstore, hrecorded⟩
  · refine iff_of_true ⟨fun n hn => ⟨n, ?_, rfl, le_rfl⟩, h.congr hstore hrecorded⟩ fun hnone => ?_
    · rw [hstore]
      exact hn
    · rw [herr] at hnone
      cases hnone
  · have hrow : s.Recorded e (s.record env svc e) := ⟨congrArg Store.nodes hstore, hrecorded⟩
    constructor
    · rintro ⟨hlater, -⟩ - n hn hid
      obtain ⟨n', hn', hid', hle⟩ := hlater n hn
      rwa [(hrow.of_mem hn' (hid'.trans hid)).1] at hle
    · exact fun hlater => ⟨hrow.laterThan (hlater hnone), h.of_recorded hrow (hlater hnone)⟩

/-- For any sightings of any nodes, and any failing calls. -/
theorem registry_forward_iff (env : Environment) (svc : NodeRegistryService)
    (events : List Sighting) :
    Machine.Meets (Sightings.record env svc) (Sightings.Forward env svc) .fresh events ↔
      Machine.Meets (Sightings.record env svc) (Sightings.NotBefore env) .fresh events := by
  refine Machine.meets_iff_meets (fun s s' => s = s' ∧ s.UpToDate) ?_ ?_ ⟨rfl, ?_⟩
  · rintro s _ e ⟨rfl, h⟩ he
    exact ⟨rfl, (h.forward_iff.2 he).2⟩
  · rintro s _ e ⟨rfl, h⟩
    exact h.forward_iff
  · exact ⟨nofun, nofun, nofun⟩

end Forward

namespace Scenario

/-- The Agent pushes its fresh payload first and an older one from its buffer after it. -/
def swapped : List Sighting :=
  [⟨"node-1", clock 1000, (clock 1001).instant⟩, ⟨"node-1", clock 0, (clock 1002).instant⟩]

theorem not_registry_forward : ¬ ∀ (env : Environment) (svc : NodeRegistryService)
    (events : List Sighting),
      Machine.Meets (Sightings.record env svc) (Sightings.Forward env svc) .fresh events := by
  intro h
  obtain ⟨⟨-, hfirst⟩, hsecond, -⟩ := h .calm ⟨90⟩ swapped
  exact absurd (hfirst.forward_iff.1 hsecond) (by decide +kernel)

end Scenario

end ClusterPulse
