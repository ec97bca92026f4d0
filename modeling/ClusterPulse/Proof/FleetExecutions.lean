import ClusterPulse.Fleet
import ClusterPulse.Lib.Holdings
import ClusterPulse.Proof.AtMostOnce

/-!
# Actions are executed at most once in a fleet

However many Agents report to a Collector, and even if several of them go by one node id, no action is
executed by two of them or twice by one, whatever is lost, retried or redelivered on the way
(`executed_once_in_fleet`).  The Collector hands each dispatched action to one response only; what the
Agents have executed, hold and are about to receive is together no more than what was dispatched.
-/

namespace ClusterPulse

open Prog

/-! ## One Agent among others -/

/-- An Agent goes by its discipline, with its program in mode `m`. -/
structure Orderly (settings : AgentSettings) (m : Mode) (s : Cluster) : Prop where
  agent : Follows (discipline settings.nodeId) m s.agent fun _ _ => True
  executions : m.executions = s.executions
  justified : ∀ a ∈ s.link.requests, a.request.Justified s.executions

/-- An Agent and its network go from `s` to `s'`: what they come to hold more is dispatched in this
step, and the rows that become `executed` are rows that the Agent has executed. -/
structure Advances (settings : AgentSettings) (m m' : Mode) (s s' : Cluster) : Prop where
  orderly : Orderly settings m' s'
  executions : s.executions ⊆ s'.executions
  taken : (↑(s'.taken settings.nodeId m') : Multiset (String × PendingAction)) +
    ↑(offers s.collector) ≤ ↑(s.taken settings.nodeId m) + ↑(offers s'.collector)
  numbered : Numbered s.collector → Numbered s'.collector
  executed : ∀ E : ℕ → Prop, (∀ i, WasExecuted s'.executions i → E i) →
    ExecutedOnly E s.collector → ExecutedOnly E s'.collector

section Steps

variable {env : Environment} {settings : AgentSettings} {m m' : Mode} {s s' : Cluster}

theorem Cluster.mem_taken {nodeId : String} {x : PendingAction × Except AgentError ActionResult}
    (hx : x ∈ s.executions) : (nodeId, x.1) ∈ s.taken nodeId m :=
  List.mem_append_left _ (List.mem_map_of_mem hx)

theorem orderly_initial (settings : AgentSettings) (w : World) :
    Orderly settings ⟨[], []⟩ { collector := w } where
  agent := trivial
  executions := rfl
  justified a ha := by cases ha

/-- The Agent or its network does something, and the Collector nothing. -/
theorem advances_of_subperm (hs' : Orderly settings m' s') (hsub : s.executions ⊆ s'.executions)
    (htaken : (s'.taken settings.nodeId m').Subperm (s.taken settings.nodeId m))
    (hcollector : s'.collector = s.collector) : Advances settings m m' s s' where
  orderly := hs'
  executions := hsub
  taken := by
    rw [hcollector]
    exact add_le_add_left (Multiset.coe_le.2 htaken) _
  numbered := by
    rw [hcollector]
    exact fun h => h
  executed E _ := by
    rw [hcollector]
    exact fun h => h

theorem Orderly.receive (hs : Orderly settings m s) {number : ℕ} {request : HttpRequest} {i : ℕ}
    {response : HttpResponse} {link : Link HttpRequest HttpResponse} {p : AgentProgram Unit}
    (hp : Follows (discipline settings.nodeId)
      (m.next settings.nodeId (.post request) (.ok response)) p fun _ _ => True)
    (h : s.link.receive i ⟨number, request⟩ = some (response, link)) :
    Advances settings m (m.next settings.nodeId (.post request) (.ok response)) s
      { s with agent := p, awaiting := none, link } := by
  have hcarried := Link.carried_receive (f := HttpRequest.offered) h
  have hjustified : ∀ a ∈ link.requests, a.request.Justified s.executions := by
    rw [Link.requests_receive h]
    exact hs.justified
  cases request with
  | metrics payload =>
    refine advances_of_subperm ⟨hp, hs.executions, hjustified⟩ (List.Subset.refl _) ?_ rfl
    apply (List.subperm_append_left _).2
    exact hcarried.subperm.trans (List.sublist_append_right ..).subperm
  | actionResult actionId result =>
    refine advances_of_subperm ⟨hp, hs.executions, hjustified⟩ (List.Subset.refl _) ?_ rfl
    apply (List.subperm_append_left _).2
    exact (List.subperm_append_left _).2 hcarried.subperm

theorem Orderly.fail (hs : Orderly settings m s) {request : HttpRequest}
    (failure : Except AgentError ℕ) {p : AgentProgram Unit}
    (hp : Follows (discipline settings.nodeId) (m.next settings.nodeId (.post request)
      (failure.map fun statusCode => ⟨statusCode, none⟩)) p fun _ _ => True) :
    Advances settings m (m.next settings.nodeId (.post request)
      (failure.map fun statusCode => ⟨statusCode, none⟩)) s
        { s with agent := p, awaiting := none } := by
  have hsame : ∀ {m₁ : Mode}, m₁ = m →
      Follows (discipline settings.nodeId) m₁ p (fun _ _ => True) →
        Advances settings m m₁ s { s with agent := p, awaiting := none } := by
    rintro m₁ rfl hp
    exact advances_of_subperm { hs with agent := hp } (List.Subset.refl _) (.refl _) rfl
  cases request with
  | actionResult actionId result => exact hsame rfl hp
  | metrics payload =>
    cases failure with
    | error e => exact hsame rfl hp
    | ok statusCode =>
      refine advances_of_subperm ⟨hp, hs.executions, hs.justified⟩ (List.Subset.refl _) ?_ rfl
      apply (List.subperm_append_left _).2
      exact (List.sublist_append_right ..).subperm

theorem Orderly.execute (hs : Orderly settings m s) {action : PendingAction}
    (hheld : (settings.nodeId, action) ∈ m.held) (answer : Except AgentError ActionResult)
    {p : AgentProgram Unit}
    (hp : Follows (discipline settings.nodeId) (m.next settings.nodeId (.execute action) answer) p
      fun _ _ => True) :
    Advances settings m (m.next settings.nodeId (.execute action) answer) s
      { s with agent := p, executions := s.executions ++ [(action, answer)] } := by
  have hsub : s.executions ⊆ s.executions ++ [(action, answer)] := List.subset_append_left ..
  refine advances_of_subperm ⟨hp, ?_, fun a ha => (hs.justified a ha).mono hsub⟩ hsub ?_ rfl
  · show m.executions ++ _ = s.executions ++ _
    rw [hs.executions]
  · unfold Cluster.taken Mode.next
    rw [List.map_append, List.append_assoc]
    apply (List.subperm_append_left _).2
    exact ((List.perm_cons_erase hheld).symm.append_right _).subperm

/-- The Agent's program goes on after its next call. -/
theorem Orderly.answer (hs : Orderly settings m s) {event : Event} {c : AgentCall}
    {k : Except AgentError c.Res → AgentProgram Unit} (hc : s.agent = .call c k)
    {r : Except AgentError c.Res} (h : s.answer event c = some (r, s')) :
    Advances settings m (m.next settings.nodeId c r) s { s' with agent := k r } := by
  have hagent := hs.agent
  rw [hc] at hagent
  have hk := hagent.2 r
  have hsame : ∀ {buffer : List NodeMetricsPayload} {p : AgentProgram Unit},
      Follows (discipline settings.nodeId) m p (fun _ _ => True) →
        Advances settings m m s { s with agent := p, buffer } := fun hp =>
    advances_of_subperm ⟨hp, hs.executions, hs.justified⟩ (List.Subset.refl _) (.refl _) rfl
  unfold Cluster.answer at h
  split at h
  · obtain ⟨rfl, rfl⟩ := Prod.mk.inj (Option.some.inj h)
    exact hsame hk
  · obtain ⟨rfl, rfl⟩ := Prod.mk.inj (Option.some.inj h)
    exact hsame hk
  · obtain ⟨rfl, rfl⟩ := Prod.mk.inj (Option.some.inj h)
    exact hsame hk
  · obtain ⟨rfl, rfl⟩ := Prod.mk.inj (Option.some.inj h)
    split_ifs
    · exact hsame hk
    · exact hsame hk
  · split at h
    · cases h
    · rename_i number _
      obtain ⟨⟨response, link⟩, hreceive, hx⟩ := Option.map_eq_some_iff.1 h
      obtain ⟨rfl, rfl⟩ := Prod.mk.inj hx
      exact hs.receive hk hreceive
  · obtain ⟨rfl, rfl⟩ := Prod.mk.inj (Option.some.inj h)
    exact hs.fail _ hk
  · obtain ⟨rfl, rfl⟩ := Prod.mk.inj (Option.some.inj h)
    exact hs.execute hagent.1 _ hk
  · cases h

/-- Nothing happens. -/
theorem Orderly.stays (hs : Orderly settings m s) : Advances settings m m s s :=
  advances_of_subperm hs (List.Subset.refl _) (.refl _) rfl

theorem Orderly.resume (hs : Orderly settings m s) (event : Event) :
    ∃ m', Advances settings m m' s (s.resume event) := by
  unfold Cluster.resume
  split
  · rename_i c k hc
    split
    · rename_i r s' h
      exact ⟨_, hs.answer hc h⟩
    · exact ⟨m, hs.stays⟩
  · exact ⟨m, hs.stays⟩

theorem Orderly.cycle (hs : Orderly settings m s) :
    Advances settings m m s (s.cycle settings) := by
  unfold Cluster.cycle
  split
  · exact hs.stays
  · exact advances_of_subperm { hs with agent := follows_runOnce settings m } (List.Subset.refl _)
      (.refl _) rfl

theorem Orderly.transmit (hs : Orderly settings m s) : Advances settings m m s s.transmit := by
  unfold Cluster.transmit
  split
  · rename_i request k hc _
    have hagent := hs.agent
    rw [hc] at hagent
    have hrequest : request.Justified s.executions := hs.executions ▸ hagent.1
    refine advances_of_subperm ⟨hs.agent, hs.executions, fun a ha => ?_⟩ (List.Subset.refl _)
      (.refl _) rfl
    rcases List.mem_append.1 ha with ha | ha
    · exact hs.justified a ha
    · obtain rfl := List.mem_singleton.1 ha
      exact hrequest
  · exact hs.stays

/-- The Collector runs an operation; a report is one that the Agent was right to make. -/
theorem executedOnly_program (env : Environment) (op : Operation) {E : ℕ → Prop}
    (hop : ∀ actionId result now, op = .reportResult actionId result now →
      result.status = .executed → E actionId) {w : World} (hw : ExecutedOnly E w) :
    ExecutedOnly E (op.program.run (handle env) w).2 :=
  op.run_program_invariant (ExecutedOnly E) (fun _ _ hc hw => hw.step env (hc.executesOnly hop)) hw

theorem numbered_program (env : Environment) (op : Operation) {w : World} (hw : Numbered w) :
    Numbered (op.program.run (handle env) w).2 :=
  op.run_program_invariant Numbered (fun c _ _ hw => hw.step env c) hw

theorem Orderly.serve (hs : Orderly settings m s) (i : ℕ) (svc : AlertEvaluationService)
    (now : Instant) : Advances settings m m s (s.serve env i svc now) := by
  unfold Cluster.serve
  split
  · rename_i a hi
    have ha := hs.justified a (List.mem_of_getElem? hi)
    have hoffered := offered_responseTo env svc now a.request s.collector
    refine ⟨⟨hs.agent, hs.executions, ?_⟩, List.Subset.refl _, ?_, numbered_program env _, ?_⟩
    · exact fun a' ha' => hs.justified a' (List.mem_of_mem_eraseIdx ha')
    · unfold Cluster.taken
      rw [Link.carried_respond, ← List.append_assoc m.held, ← List.append_assoc]
      rw [← Multiset.coe_add, add_assoc, add_comm (Multiset.ofList _) (Multiset.ofList (offers _))]
      exact add_le_add_right (Multiset.coe_le.2 hoffered) _
    · intro E hE
      refine executedOnly_program env _ fun actionId result t hop hstatus => hE actionId ?_
      cases hrequest : a.request with
      | metrics payload =>
        rw [hrequest] at hop
        cases hop
      | actionResult actionId' result' =>
        rw [hrequest] at hop ha
        cases hop
        obtain ⟨action, hmem, hid⟩ := ha
        exact ⟨_, hmem, hid, result.message, hstatus ▸ rfl⟩
  · exact hs.stays

theorem Orderly.step (hs : Orderly settings m s) (event : Event) :
    ∃ m', Advances settings m m' s (s.step env settings event) := by
  cases event with
  | cycle => exact ⟨m, hs.cycle⟩
  | kill =>
    exact ⟨m, advances_of_subperm { hs with agent := trivial } (List.Subset.refl _) (.refl _) rfl⟩
  | transmit => exact ⟨m, hs.transmit⟩
  | serve i svc now => exact ⟨m, hs.serve i svc now⟩
  | loseRequest i =>
    refine ⟨m, advances_of_subperm ⟨hs.agent, hs.executions, fun a ha => ?_⟩ (List.Subset.refl _)
      (.refl _) rfl⟩
    exact hs.justified a (List.mem_of_mem_eraseIdx ha)
  | loseResponse i =>
    refine ⟨m, advances_of_subperm ⟨hs.agent, hs.executions, hs.justified⟩ (List.Subset.refl _)
      ?_ rfl⟩
    apply (List.subperm_append_left _).2
    exact (List.subperm_append_left _).2 Link.carried_loseResponse.subperm
  | operate op =>
    unfold Cluster.step
    dsimp only
    split_ifs with hreport
    · exact ⟨m, hs.stays⟩
    · refine ⟨m, ⟨hs.agent, hs.executions, hs.justified⟩, List.Subset.refl _, ?_,
        numbered_program env op, fun E _ => executedOnly_program env op ?_⟩
      · exact add_le_add_right (Multiset.coe_le.2 (offers_sublist env op s.collector).subperm) _
      · exact fun actionId result now hop => absurd (congrArg Operation.isReport hop) hreport
  | collected | clock | buffer | receive | fail | executed => exact hs.resume _

end Steps

/-! ## The fleet -/

/-- What the Agents of a fleet have executed, hold and are about to receive is together no more than
what was dispatched. -/
structure FleetAccounted {ι : Type} [Fintype ι] (settings : ι → AgentSettings) (modes : ι → Mode)
    (f : Fleet ι) : Prop where
  orderly : ∀ i, Orderly (settings i) (modes i) (f.sides i)
  taken : ∑ i, (↑((f.sides i).taken (settings i).nodeId (modes i)) :
    Multiset (String × PendingAction)) ≤ ↑(offers f.collector)
  numbered : Numbered f.collector
  executed : ExecutedOnly (fun id => ∃ i, WasExecuted (f.executions i) id) f.collector

theorem fleetAccounted_initial {ι : Type} [Fintype ι] (settings : ι → AgentSettings) :
    FleetAccounted settings (fun _ => ⟨[], []⟩) {} where
  orderly i := orderly_initial (settings i) .fresh
  taken := by
    have hnone : ∀ i : ι, (↑(Cluster.taken (settings i).nodeId ⟨[], []⟩ {}) :
        Multiset (String × PendingAction)) = 0 := fun _ => rfl
    simp only [hnone, Finset.sum_const_zero]
    exact Multiset.zero_le _
  numbered := numbered_fresh
  executed row hrow := by cases hrow

section Fleet

variable {ι : Type} [Fintype ι] [DecidableEq ι] {env : Environment} {settings : ι → AgentSettings}
  {modes : ι → Mode} {f : Fleet ι}

/-- An event at one Agent: what it does to the Collector is accounted for, and the other Agents and
what they hold are as before. -/
theorem FleetAccounted.put (hf : FleetAccounted settings modes f) {i : ι} {m : Mode} {s : Cluster}
    (hm : Advances (settings i) (modes i) m (f.side i) s) :
    FleetAccounted settings (Function.update modes i m) (f.put i s) where
  orderly j := by
    by_cases hj : j = i
    · subst hj
      rw [Fleet.sides_put_self, Function.update_self]
      exact hm.orderly
    · rw [Fleet.sides_put_of_ne f hj, Function.update_of_ne hj]
      exact hf.orderly j
  taken := by
    have hholdings : (fun j => (↑(((f.put i s).sides j).taken (settings j).nodeId
        (Function.update modes i m j)) : Multiset (String × PendingAction))) =
        Function.update (fun j => ↑((f.sides j).taken (settings j).nodeId (modes j))) i
          ↑(s.taken (settings i).nodeId m) := by
      funext j
      by_cases hj : j = i
      · subst hj
        rw [Fleet.sides_put_self, Function.update_self, Function.update_self]
      · rw [Fleet.sides_put_of_ne f hj, Function.update_of_ne hj, Function.update_of_ne hj]
    rw [hholdings]
    exact sum_update_le hf.taken hm.taken
  numbered := hm.numbered hf.numbered
  executed := by
    have hgrown : ∀ id, (∃ j, WasExecuted (f.executions j) id) →
        ∃ j, WasExecuted ((f.put i s).executions j) id := by
      rintro id ⟨j, hj⟩
      refine ⟨j, ?_⟩
      unfold Fleet.executions
      by_cases hji : j = i
      · subst hji
        rw [Fleet.sides_put_self]
        exact hj.mono hm.executions
      · rw [Fleet.sides_put_of_ne f hji]
        exact hj
    refine hm.executed _ (fun id hid => ⟨i, ?_⟩) (hf.executed.mono hgrown)
    unfold Fleet.executions
    rwa [Fleet.sides_put_self]

/-- In every state of every run. -/
theorem fleetAccounted_after (env : Environment) (settings : ι → AgentSettings)
    (events : List (ι × Event)) :
    ∃ modes, FleetAccounted settings modes (Fleet.after env settings events) := by
  induction events using List.reverseRecOn with
  | nil => exact ⟨_, fleetAccounted_initial settings⟩
  | append_singleton events x ih =>
    obtain ⟨modes, hf⟩ := ih
    unfold Fleet.after at hf ⊢
    rw [List.foldl_append]
    generalize events.foldl (Fleet.step env settings) {} = f at hf ⊢
    have hside : Orderly (settings x.1) (modes x.1) (f.side x.1) :=
      ⟨(hf.orderly x.1).agent, (hf.orderly x.1).executions, (hf.orderly x.1).justified⟩
    have hstep : ∃ m, Advances (settings x.1) (modes x.1) m (f.side x.1)
        ((f.side x.1).step env (settings x.1) x.2) := hside.step x.2
    obtain ⟨m, hm⟩ := hstep
    exact ⟨_, hf.put hm⟩

/-- In every run of a fleet: no action is executed twice, by one Agent or by two; what an Agent
executes was dispatched to its node as it is; and a row is `executed` only if an Agent's executor
said so. -/
theorem executed_once_in_fleet (env : Environment) (settings : ι → AgentSettings)
    (events : List (ι × Event)) :
    let f := Fleet.after env settings events
    (∀ i, ((f.executions i).map fun x => x.1.actionId).Nodup) ∧
      (∀ i j, i ≠ j → ∀ x ∈ f.executions i, ∀ y ∈ f.executions j, x.1.actionId ≠ y.1.actionId) ∧
      (∀ i, ∀ x ∈ f.executions i, ∃ row ∈ f.collector.recorded, row.id = x.1.actionId ∧
        row.status = .dispatched ∧ row.nodeId = (settings i).nodeId ∧
        row.actionType = x.1.actionType ∧ row.parameters = x.1.parameters) ∧
      ∀ row ∈ f.collector.store.remediationActions.rows, row.status = .executed →
        ∃ i, WasExecuted (f.executions i) row.id := by
  intro f
  obtain ⟨modes, hf⟩ := fleetAccounted_after env settings events
  -- the ids of what was offered are ids of recorded rows, each given out once
  have hids : ((offers f.collector).map fun x => x.2.actionId).Nodup := by
    unfold offers
    rw [List.map_map]
    exact hf.numbered.nodup.sublist (List.filter_sublist.map _)
  have hexecuted : ∀ i, ((f.executions i).map fun x => ((settings i).nodeId, x.1)).Subperm
      (offers f.collector) := fun i =>
    (List.sublist_append_left _ _).subperm.trans (Multiset.coe_le.1 (holding_le hf.taken i))
  have hoffered : ∀ i, ∀ x ∈ f.executions i, ((settings i).nodeId, x.1) ∈ offers f.collector :=
    fun i x hx => (hexecuted i).subset (List.mem_map_of_mem hx)
  refine ⟨fun i => ?_, fun i j hij x hx y hy hid => ?_, fun i x hx => ?_, hf.executed⟩
  · obtain ⟨l, hperm, hsub⟩ := hexecuted i
    have hnodup := (hperm.map _).nodup_iff.1 (hids.sublist (hsub.map fun x => x.2.actionId))
    rwa [List.map_map] at hnodup
  · have hsame : ((settings i).nodeId, x.1) = ((settings j).nodeId, y.1) :=
      List.inj_on_of_nodup_map hids (hoffered i x hx) (hoffered j y hy) hid
    have hdisjoint := disjoint_holdings hf.taken (Multiset.coe_nodup.2 (hids.of_map _)) hij
    refine Multiset.disjoint_left.1 hdisjoint (Multiset.mem_coe.2 (Cluster.mem_taken hx)) ?_
    rw [hsame]
    exact Multiset.mem_coe.2 (Cluster.mem_taken hy)
  · obtain ⟨row, hrow, hx⟩ := List.mem_map.1 (hoffered i x hx)
    obtain ⟨hrecorded, hdispatched⟩ := List.mem_filter.1 hrow
    obtain ⟨hnode, haction⟩ := Prod.mk.inj hx
    have hstatus : row.status = .dispatched := beq_iff_eq.1 hdispatched
    exact ⟨row, hrecorded, congrArg PendingAction.actionId haction, hstatus, hnode,
      congrArg PendingAction.actionType haction, congrArg PendingAction.parameters haction⟩

end Fleet

namespace Scenario

/-- Two Agents go by one node id: the alert of the first is escalated by a payload of the second, which
is also the one that executes the action. -/
example :
    let f := Fleet.after .calm (fun _ : Bool => { nodeId := "node-1", remediationEnabled := true })
      ((collecting 0 95 ++ exchange 0).map (false, ·) ++
        (collecting 1000 96 ++ exchange 1000).map (true, ·) ++
        (collecting 2000 97 ++ exchange 2000 ++ [Event.executed (.ok executed)]).map (true, ·))
    f.executions true = [(⟨1, .noop, []⟩, .ok executed)] ∧ f.executions false = [] := by
  decide +kernel

end Scenario

end ClusterPulse
