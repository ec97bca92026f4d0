import ClusterPulse.Proof.Effects

/-!
# At most one firing alert for a key

Concurrent requests look for an open alert in one transaction and open a new one in another.  The
table holds at most one firing alert for a key in every state of an interleaving exactly when every
alert that is opened is opened at a moment when none is open for its key.
-/

namespace ClusterPulse

open AlertRepository

/-- At most one row for each node and rule key is firing. -/
def OneFiring (t : AlertTable) : Prop :=
  ∀ a ∈ t.rows, ∀ b ∈ t.rows, a.status = .firing → b.status = .firing → a.nodeId = b.nodeId →
    a.ruleKey = b.ruleKey → a.id = b.id

instance (t : AlertTable) : Decidable (OneFiring t) :=
  inferInstanceAs (Decidable (∀ a ∈ t.rows, ∀ b ∈ t.rows, a.status = .firing →
    b.status = .firing → a.nodeId = b.nodeId → a.ruleKey = b.ruleKey → a.id = b.id))

/-- The database holds no open alert for the key. -/
def NoneOpen (t : AlertTable) (nodeId ruleKey : String) : Prop :=
  ∀ a ∈ t.rows, isOpen nodeId ruleKey a = false

instance (t : AlertTable) (nodeId ruleKey : String) : Decidable (NoneOpen t nodeId ruleKey) :=
  inferInstanceAs (Decidable (∀ a ∈ t.rows, isOpen nodeId ruleKey a = false))

theorem isOpen_eq_true_iff {nodeId ruleKey : String} {a : AlertRecord} :
    isOpen nodeId ruleKey a = true ↔
      a.nodeId = nodeId ∧ a.ruleKey = ruleKey ∧ a.status = .firing := by
  simp only [isOpen, Bool.and_eq_true, beq_iff_eq, and_assoc]

/-! ## The effect of a call -/

theorem OneFiring.insert {t : AlertTable} {mk : ℕ → AlertRecord} (hmk : ∀ n, (mk n).id = n)
    (h : OneFiring t) (hnone : NoneOpen t (mk t.next).nodeId (mk t.next).ruleKey) :
    OneFiring (t.insert mk hmk) := by
  have hnew : ∀ a ∈ t.rows, a.status = .firing → a.nodeId = (mk t.next).nodeId →
      a.ruleKey = (mk t.next).ruleKey → False := by
    intro a ha hfiring hnode hkey
    have hopen := isOpen_eq_true_iff.2 ⟨hnode, hkey, hfiring⟩
    rw [hnone a ha] at hopen
    cases hopen
  intro a ha b hb hfa hfb hnode hkey
  rcases Table.mem_insert.1 ha with ha | rfl
  · rcases Table.mem_insert.1 hb with hb | rfl
    · exact h a ha b hb hfa hfb hnode hkey
    · exact (hnew a ha hfa hnode hkey).elim
  · rcases Table.mem_insert.1 hb with hb | rfl
    · exact (hnew b hb hfb hnode.symm hkey.symm).elim
    · rfl

theorem OneFiring.modify {t : AlertTable} {i : ℕ} {f : AlertRecord → AlertRecord}
    (hf : ∀ a, (f a).id = a.id) (h : OneFiring t) (hnode : ∀ a, (f a).nodeId = a.nodeId)
    (hkey : ∀ a, (f a).ruleKey = a.ruleKey)
    (hstatus : ∀ a, (f a).status = .firing → a.status = .firing) :
    OneFiring (t.modify i f hf) := by
  -- a row of the new table comes from a row with the same id and key that was firing if it is
  have hold : ∀ a ∈ (t.modify i f hf).rows, ∃ b ∈ t.rows, a.id = b.id ∧ a.nodeId = b.nodeId ∧
      a.ruleKey = b.ruleKey ∧ (a.status = .firing → b.status = .firing) := by
    intro a ha
    obtain ⟨b, hb, rfl⟩ := Table.mem_modify.1 ha
    refine ⟨b, hb, ?_⟩
    split_ifs
    · exact ⟨hf b, hnode b, hkey b, hstatus b⟩
    · exact ⟨rfl, rfl, rfl, id⟩
  intro a ha b hb hfa hfb hn hk
  obtain ⟨a', ha', hida, hna, hka, hsa⟩ := hold a ha
  obtain ⟨b', hb', hidb, hnb, hkb, hsb⟩ := hold b hb
  rw [hida, hidb]
  exact h a' ha' b' hb' (hsa hfa) (hsb hfb) (hna ▸ hnb ▸ hn) (hka ▸ hkb ▸ hk)

theorem OneFiring.delete {t : AlertTable} {p : AlertRecord → Bool} (h : OneFiring t) :
    OneFiring (t.delete p) := fun a ha b hb =>
  h a (Table.mem_delete.1 ha).1 b (Table.mem_delete.1 hb).1

/-- What a call requires of the state it runs in, for the alert it may open. -/
def Call.OpensNew (t : AlertTable) : Call → Prop
  | .createAlert nodeId ruleKey .. => NoneOpen t nodeId ruleKey
  | _ => True

instance (t : AlertTable) : (c : Call) → Decidable (c.OpensNew t)
  | .createAlert nodeId ruleKey .. => inferInstanceAs (Decidable (NoneOpen t nodeId ruleKey))
  | .upsertSeen .. | .listAllNodes | .bulkInsert .. | .findPreviousSample ..
  | .pruneSamplesBefore .. | .findOpenAlert .. | .updateLastFired .. | .resolveAlert ..
  | .acknowledgeAlert .. | .escalateAlert .. | .markRemediated .. | .getAlert ..
  | .pruneResolvedBefore .. | .createAction .. | .markResult .. | .countRecentActions ..
  | .findLastAction .. | .getAction .. | .listDispatchedBefore .. | .pruneTerminalBefore ..
  | .notify .. => inferInstanceAs (Decidable True)

theorem OneFiring.alerts {scan : Scan} {σ : Store} {c : Call} (h : OneFiring σ.alerts)
    (hc : c.OpensNew σ.alerts) : OneFiring (c.alerts scan σ) := by
  cases c with
  | createAlert => exact h.insert (fun _ => id_newAlert ..) hc
  | resolveAlert alertId resolvedAt =>
    exact h.modify (id_resolved · resolvedAt) (fun _ => rfl) (fun _ => rfl) fun _ hs => nomatch hs
  | updateLastFired alertId triggeringValue t =>
    exact h.modify (id_advanced · triggeringValue t) (fun _ => rfl) (fun _ => rfl) fun _ hs => hs
  | acknowledgeAlert alertId acknowledgedBy t =>
    exact h.modify (id_acknowledged · acknowledgedBy t) (fun _ => rfl) (fun _ => rfl)
      fun _ hs => hs
  | escalateAlert alertId t =>
    exact h.modify (id_escalated · t) (fun _ => rfl) (fun _ => rfl) fun _ hs => hs
  | markRemediated alertId t =>
    exact h.modify (id_remediated · t) (fun _ => rfl) (fun _ => rfl) fun _ hs => hs
  | pruneResolvedBefore => exact h.delete
  | _ => exact h

/-- Opening a second alert for a key leaves two firing rows. -/
theorem opensNew_of_oneFiring {scan : Scan} {σ : Store} {c : Call}
    (h : OneFiring (c.alerts scan σ)) : c.OpensNew σ.alerts := by
  cases c with
  | createAlert nodeId ruleKey ruleKind severity description triggeringValue bound firedAt =>
    intro a ha
    by_contra hopen
    rw [Bool.not_eq_false, isOpen_eq_true_iff] at hopen
    obtain ⟨hnode, hkey, hfiring⟩ := hopen
    have hid := h a (List.mem_append_left _ ha) _
      (List.mem_append_right _ (List.mem_singleton_self _)) hfiring rfl hnode hkey
    exact absurd hid (σ.alerts.key_lt a ha).ne
  | _ => trivial

/-! ## Interleavings -/

/-- An alert is opened only when none is open for its key. -/
def OpensWhenNone (P : Pool Call Call.Res PyError Reply World) (i : ℕ) : Prop :=
  ∀ c ∈ P.nextCall i, c.OpensNew P.state.store.alerts

instance (P : Pool Call Call.Res PyError Reply World) (i : ℕ) : Decidable (OpensWhenNone P i) :=
  inferInstanceAs (Decidable (∀ c ∈ P.nextCall i, c.OpensNew P.state.store.alerts))

/-- For any operations, any interleaving of their calls and any starting tables. -/
theorem oneFiring_iff_opensWhenNone {env : Environment} (henv : env.Faultless)
    (ops : List Operation) (sched : List ℕ) {w : World} (hw : OneFiring w.store.alerts) :
    Pool.Throughout (handle env) (fun P => OneFiring P.state.store.alerts) sched
        (Operation.pool ops w) ↔
      Pool.Meets (handle env) OpensWhenNone sched (Operation.pool ops w) := by
  have halerts : ∀ c w', (handle env c w').2.store.alerts =
      c.alerts (env.scan w'.calls) w'.store := by
    intro c w'
    rw [handle_of_ok (henv _ _)]
    exact World.after_alerts ..
  constructor
  · refine Pool.meets_of_throughout fun pre i _ hpre c hc => ?_
    obtain ⟨k, hk⟩ := Pool.nextCall_eq_some_iff.1 hc
    have hafter := hpre _ (List.prefix_refl _)
    simp only [Pool.run_append, Pool.run_cons, Pool.run_nil, Pool.step_of_call hk,
      Pool.state_called, halerts] at hafter
    exact opensNew_of_oneFiring hafter
  · intro hmeets pre hpre
    refine Pool.run_invariant_of_meets (fun P => OneFiring P.state.store.alerts)
      (fun P i c k hk hc hP => ?_) (hmeets.initial hpre) hw
    simp only [Pool.state_called, halerts]
    exact hP.alerts (hc c (Pool.nextCall_eq_some_iff.2 ⟨k, hk⟩))

namespace Scenario

/-- The Agent sends the same payload again while its first attempt is still being processed. -/
def resent : List Operation := [push 0 95, push 0 95]

/-- Both requests look for an open alert before either opens one. -/
def race : List ℕ := [0, 0, 0, 1, 1, 1, 0, 1]

theorem not_oneFiring :
    ¬ ∀ (env : Environment) (ops : List Operation) (sched : List ℕ), env.Faultless →
      (∀ op ∈ ops, op.IsIngest) →
        Pool.Throughout (handle env) (fun P => OneFiring P.state.store.alerts) sched
          (Operation.pool ops .fresh) := by
  intro h
  have hingest : ∀ op ∈ resent, op.IsIngest := by
    intro op hop
    simp only [resent, List.mem_cons, List.not_mem_nil, or_false] at hop
    rcases hop with rfl | rfl <;> trivial
  have hlast := h .calm resent race Environment.calm_faultless hingest race (List.prefix_refl _)
  exact absurd hlast (by decide +kernel)

/-- Where the second request looks only after the first has opened its alert, there is one. -/
theorem oneFiring_in_turn :
    Pool.Throughout (handle .calm) (fun P => OneFiring P.state.store.alerts)
      [0, 1, 0, 1, 0, 0, 1, 1] (Operation.pool resent .fresh) :=
  (oneFiring_iff_opensWhenNone Environment.calm_faultless resent _ (by decide)).2
    (by decide +kernel)

end Scenario

end ClusterPulse
