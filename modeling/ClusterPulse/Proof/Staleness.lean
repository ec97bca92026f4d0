import ClusterPulse.Collector.NodeRegistry
import ClusterPulse.Lib.Machine
import ClusterPulse.Proof.GuardedCalls

/-!
# What staleness depends on

Receipts, registry reads and staleness sweeps, with the readings of the Agent's clock left open.
A `Watch` is what the Collector keeps for staleness: for each node the Agent's reading received last
and whether a staleness alert is open.  `Represents` connects the tables to it.

Two runs that differ in the Agent's clock show the same exactly as long as, at every sweep and every
read, the two readings received last lie on the same side of the threshold.
-/

namespace ClusterPulse

open AlertRepository Prog

/-! ## The abstract model -/

/-- What is known of the nodes, for staleness. -/
structure Watch where
  lastSeen : String → Option Instant
  alarmed : String → Bool

namespace Watch

/-- No node is known. -/
def start : Watch := ⟨fun _ => none, fun _ => false⟩

/-- A receipt from a node, with the Agent's reading. -/
def receive (v : Watch) (nodeId : String) (t : Instant) : Watch :=
  { v with lastSeen := Function.update v.lastSeen nodeId (some t) }

/-- The test of a sweep: the node has been silent for the threshold. -/
def silent (v : Watch) (threshold : Double) (now : Instant) (nodeId : String) : Bool :=
  (v.lastSeen nodeId).any fun t => threshold ≤ Timedelta.totalSeconds (now - t)

/-- The test of the registry: the node has been silent for longer than the threshold. -/
def overdue (v : Watch) (threshold : Double) (now : Instant) (nodeId : String) : Option Bool :=
  (v.lastSeen nodeId).map fun t => threshold < Timedelta.totalSeconds (now - t)

/-- What a sweep makes of the alert of one node. -/
def swept (v : Watch) (threshold : Double) (mayOpen : Bool) (now : Instant) (nodeId : String) :
    Bool :=
  v.silent threshold now nodeId && (v.alarmed nodeId || mayOpen)

/-- A sweep looks at every known node. -/
def sweep (v : Watch) (threshold : Double) (mayOpen : Bool) (now : Instant) : Watch :=
  { v with alarmed := fun n =>
      if (v.lastSeen n).isSome then v.swept threshold mayOpen now n else v.alarmed n }

end Watch

/-! ## The tables -/

open StalenessJob (stalenessRuleKey)

/-- The staleness alerts. -/
def alarms (t : AlertTable) : List AlertRecord := t.rows.filter fun a => a.ruleKey == stalenessRuleKey

/-- A staleness alert of the node is open. -/
def Alarmed (t : AlertTable) (nodeId : String) : Prop :=
  ∃ a ∈ alarms t, a.nodeId = nodeId ∧ a.status = .firing

/-- No node has two open staleness alerts. -/
def OneAlarm (t : AlertTable) : Prop :=
  ∀ a ∈ alarms t, ∀ b ∈ alarms t, a.status = .firing → b.status = .firing → a.nodeId = b.nodeId →
    a.id = b.id

/-- The tables hold what the watch says. -/
structure Represents (σ : Store) (v : Watch) : Prop where
  nodup : (σ.nodes.map NodeRecord.nodeId).Nodup
  lastSeen : ∀ n,
    (σ.nodes.find? fun r => r.nodeId == n).map NodeRecord.lastSeenAt = v.lastSeen n
  instant : ∀ r ∈ σ.nodes, ∃ d : Datetime, r.lastSeenAt = d.instant
  oneAlarm : OneAlarm σ.alerts
  alarmed : ∀ n, Alarmed σ.alerts n ↔ v.alarmed n = true

theorem represents_empty : Represents .empty .start where
  nodup := List.nodup_nil
  lastSeen _ := rfl
  instant _ hr := absurd hr List.not_mem_nil
  oneAlarm _ ha := absurd ha List.not_mem_nil
  alarmed _ := iff_of_false (fun ⟨_, ha, _⟩ => absurd ha List.not_mem_nil) Bool.false_ne_true

section Tables

variable {σ σ' : Store} {v : Watch} {t : AlertTable} {a : AlertRecord} {n : String}

theorem mem_alarms : a ∈ alarms t ↔ a ∈ t.rows ∧ a.ruleKey = stalenessRuleKey := by
  simp [alarms, List.mem_filter]

theorem isOpen_iff_alarm (ha : a ∈ t.rows) :
    isOpen n stalenessRuleKey a = true ↔ a ∈ alarms t ∧ a.nodeId = n ∧ a.status = .firing := by
  rw [isOpen_eq_true_iff, mem_alarms]
  tauto

theorem Represents.of_same (h : Represents σ v) (hnodes : σ'.nodes = σ.nodes)
    (halarms : alarms σ'.alerts = alarms σ.alerts) : Represents σ' v where
  nodup := hnodes ▸ h.nodup
  lastSeen := hnodes ▸ h.lastSeen
  instant := hnodes ▸ h.instant
  oneAlarm := by
    unfold OneAlarm
    rw [halarms]
    exact h.oneAlarm
  alarmed := by
    unfold Alarmed
    rw [halarms]
    exact h.alarmed

theorem Represents.lastSeen_of_mem (h : Represents σ v) {r : NodeRecord} (hr : r ∈ σ.nodes) :
    v.lastSeen r.nodeId = some r.lastSeenAt := by
  rw [← h.lastSeen, (find?_key_eq_some_iff h.nodup).2 ⟨hr, rfl⟩]
  rfl

theorem Represents.isSome_lastSeen_iff (h : Represents σ v) :
    (v.lastSeen n).isSome ↔ n ∈ σ.nodes.map NodeRecord.nodeId := by
  rw [← h.lastSeen, Option.isSome_map, List.find?_isSome, List.mem_map]
  simp

/-- A receipt, from a node that is known or not. -/
theorem Represents.upsertSeen (h : Represents σ v) (nodeId : String) (seenAt : Datetime) :
    Represents (NodeRepository.upsertSeen σ nodeId seenAt).2 (v.receive nodeId seenAt.instant) := by
  have hnodup := NodeRepository.nodup_upsertSeen nodeId seenAt h.nodup
  refine ⟨hnodup, fun m => ?_, fun r hr => ?_, ?_, ?_⟩
  · show _ = Function.update v.lastSeen nodeId (some seenAt.instant) m
    by_cases hm : m = nodeId
    · subst hm
      obtain ⟨r, hr, hid⟩ := NodeRepository.exists_mem_upsertSeen σ m seenAt
      rw [(find?_key_eq_some_iff hnodup).2 ⟨hr, hid⟩, Function.update_self]
      exact congrArg some (NodeRepository.of_mem_upsertSeen hr hid).1
    · rw [Function.update_of_ne hm, ← h.lastSeen]
      refine congrArg _ (Option.ext fun r => ?_)
      rw [find?_key_eq_some_iff hnodup, find?_key_eq_some_iff h.nodup]
      refine and_congr_left fun hid => ?_
      exact NodeRepository.mem_upsertSeen_of_ne (hid ▸ hm)
  · by_cases hid : r.nodeId = nodeId
    · exact ⟨seenAt, (NodeRepository.of_mem_upsertSeen hr hid).1⟩
    · exact h.instant r ((NodeRepository.mem_upsertSeen_of_ne hid).1 hr)
  · rw [NodeRepository.alerts_upsertSeen]
    exact h.oneAlarm
  · rw [NodeRepository.alerts_upsertSeen]
    exact h.alarmed

/-- A write to an alert under another key. -/
theorem alarms_modify {i : ℕ} {nodeId ruleKey : String} (halert : IsAlertOf t i nodeId ruleKey)
    (hne : ruleKey ≠ stalenessRuleKey) {f : AlertRecord → AlertRecord}
    {hf : ∀ a, (f a).id = a.id} (hkey : ∀ a, (f a).ruleKey = a.ruleKey) :
    alarms (t.modify i f hf) = alarms t := by
  have htest : ((fun a : AlertRecord => a.ruleKey == stalenessRuleKey) ∘
      fun a : AlertRecord => if a.id = i then f a else a) = fun a => a.ruleKey == stalenessRuleKey := by
    funext a
    simp only [Function.comp_apply]
    split_ifs
    · rw [hkey]
    · rfl
  unfold alarms
  rw [Table.rows_modify, List.filter_map, htest]
  refine (List.map_congr_left fun a ha => ?_).trans (List.map_id _)
  obtain ⟨b, hb, -, rfl⟩ := halert
  rw [if_neg, id]
  rintro rfl
  have hrow : a = b := Option.some.inj ((Table.get?_of_mem (List.mem_of_mem_filter ha)).symm.trans hb)
  exact hne (hrow ▸ (mem_alarms.1 ha).2)

end Tables

/-! ## Evaluations -/

theorem IsRuleKey.ne_stalenessRuleKey {ruleKey : String} (h : IsRuleKey ruleKey) :
    ruleKey ≠ stalenessRuleKey := by
  obtain ⟨kind, metricType, hkind, rfl⟩ := h
  cases kind with
  | staleness => exact absurd rfl hkind
  | threshold => cases metricType <;> decide
  | rateOfChange => cases metricType <;> decide

section Evaluation

variable {σ : Store} {scan : Scan} {c : Call} {nodeId : String} {env : Environment} {w : World}
  {v : Watch}

theorem Call.IsEvaluationOf.alarms (hc : c.IsEvaluationOf nodeId σ) :
    ClusterPulse.alarms (c.alerts scan σ) = ClusterPulse.alarms σ.alerts := by
  cases c with
  | createAlert nodeId' ruleKey =>
    have hne := hc.2.ne_stalenessRuleKey
    simp [ClusterPulse.alarms, Call.alerts, List.filter_append, newAlert, hne]
  | updateLastFired | resolveAlert | escalateAlert | markRemediated =>
    obtain ⟨ruleKey, hkey, halert⟩ := hc
    simp only [Call.alerts]
    exact alarms_modify halert hkey.ne_stalenessRuleKey fun _ => rfl
  | acknowledgeAlert | pruneResolvedBefore => exact hc.elim
  | _ => rfl

/-- An evaluation has no part in staleness. -/
theorem Represents.evaluate {α : Type} {p : Repo α} (h : Represents w.store v)
    (hp : AllCalls env (Call.IsEvaluationOf nodeId) p w) :
    Runs (handle env) (fun _ _ => True) p w fun _ w' => Represents w'.store v := by
  refine (hp.keeps (fun w' => Represents w'.store v) (fun c w' hc hw' => ?_) h).mono
    (fun _ _ _ => trivial) fun _ _ hw' => hw'
  rcases handle_cases env c w' with ⟨e, -, heq⟩ | ⟨-, heq⟩ <;> rw [heq]
  · exact hw'
  · refine hw'.of_same (exec_nodes _ _ _ ?_) ?_
    · rintro n t rfl
      exact hc.elim
    · rw [World.after_alerts]
      exact hc.alarms

end Evaluation

/-! ## Sweeps -/

section Sweep

variable {env : Environment} {w : World} {v : Watch} {σ σ' : Store} {n : String} {a : AlertRecord}
  {settings : CollectorSettings} {mayOpen : Bool} {now : Datetime}

/-- The sweep changes what is said of one node. -/
theorem Represents.update (h : Represents σ v) {b : Bool} (hnodes : σ'.nodes = σ.nodes)
    (hone : OneAlarm σ'.alerts) (hself : Alarmed σ'.alerts n ↔ b = true)
    (hother : ∀ m, m ≠ n → (Alarmed σ'.alerts m ↔ Alarmed σ.alerts m)) :
    Represents σ' { v with alarmed := Function.update v.alarmed n b } where
  nodup := hnodes ▸ h.nodup
  lastSeen := hnodes ▸ h.lastSeen
  instant := hnodes ▸ h.instant
  oneAlarm := hone
  alarmed m := by
    by_cases hm : m = n
    · subst hm
      rw [hself]
      simp
    · rw [hother m hm, h.alarmed]
      simp [Function.update_of_ne hm]

theorem Represents.update_same (h : Represents σ v) {b : Bool} (hb : v.alarmed n = b) :
    Represents σ { v with alarmed := Function.update v.alarmed n b } := by
  rw [← hb, Function.update_eq_self]
  exact h

/-- An alert is opened for a node without one. -/
theorem Represents.createAlert (h : Represents σ v) (hnone : ¬ Alarmed σ.alerts n)
    (ruleKind : RuleKind) (severity : Severity) (description : String)
    (triggeringValue bound : Double) (firedAt : Datetime) :
    Represents (AlertRepository.createAlert σ n stalenessRuleKey ruleKind severity description
      triggeringValue bound firedAt).2 { v with alarmed := Function.update v.alarmed n true } := by
  have hmem : ∀ a, a ∈ alarms (AlertRepository.createAlert σ n stalenessRuleKey ruleKind severity
      description triggeringValue bound firedAt).2.alerts ↔ a ∈ alarms σ.alerts ∨
        a = newAlert n stalenessRuleKey ruleKind severity description triggeringValue bound firedAt
          σ.alerts.next := by
    intro a
    rw [mem_alarms, mem_alarms]
    simp only [AlertRepository.createAlert, Table.mem_insert]
    constructor
    · rintro ⟨ha | rfl, hkey⟩
      · exact .inl ⟨ha, hkey⟩
      · exact .inr rfl
    · rintro (⟨ha, hkey⟩ | rfl)
      · exact ⟨.inl ha, hkey⟩
      · exact ⟨.inr rfl, rfl⟩
  have hfree : ∀ a ∈ alarms σ.alerts, a.status = .firing → a.nodeId ≠ n := fun a ha hf hn =>
    hnone ⟨a, ha, hn, hf⟩
  refine h.update rfl (fun a ha b hb hfa hfb hn => ?_) ?_ fun m hm => ?_
  · rcases (hmem a).1 ha with ha | rfl
    · rcases (hmem b).1 hb with hb | rfl
      · exact h.oneAlarm a ha b hb hfa hfb hn
      · exact absurd hn (hfree a ha hfa)
    · rcases (hmem b).1 hb with hb | rfl
      · exact absurd hn.symm (hfree b hb hfb)
      · rfl
  · exact iff_of_true ⟨_, (hmem _).2 (.inr rfl), rfl, rfl⟩ rfl
  · constructor
    · rintro ⟨a, ha, hn, hf⟩
      rcases (hmem a).1 ha with ha | rfl
      · exact ⟨a, ha, hn, hf⟩
      · exact absurd hn.symm hm
    · rintro ⟨a, ha, hn, hf⟩
      exact ⟨a, (hmem a).2 (.inl ha), hn, hf⟩

/-- The open alert of a node is resolved. -/
theorem Represents.resolveAlert (h : Represents σ v) (ha : a ∈ alarms σ.alerts) (hn : a.nodeId = n)
    (hfiring : a.status = .firing) (resolvedAt : Datetime) :
    Represents (AlertRepository.resolveAlert σ a.id resolvedAt).2
      { v with alarmed := Function.update v.alarmed n false } := by
  rw [AlertRepository.resolveAlert, AlertRepository.update_alerts]
  have hmem : ∀ b ∈ alarms (σ.alerts.modify a.id (resolved resolvedAt)
      (id_resolved · resolvedAt)), b.status = .firing → b ∈ alarms σ.alerts ∧ b.id ≠ a.id := by
    intro b hb hf
    obtain ⟨hb, hkey⟩ := mem_alarms.1 hb
    obtain ⟨b₀, hb₀, rfl⟩ := Table.mem_modify.1 hb
    split_ifs at hf hkey ⊢ with hid
    · cases hf
    · exact ⟨mem_alarms.2 ⟨hb₀, hkey⟩, hid⟩
  refine h.update rfl (fun b hb c hc hfb hfc hnode => ?_) ?_ fun m hm => ?_
  · exact h.oneAlarm b (hmem b hb hfb).1 c (hmem c hc hfc).1 hfb hfc hnode
  · refine iff_of_false ?_ Bool.false_ne_true
    rintro ⟨b, hb, hbn, hf⟩
    obtain ⟨hb, hid⟩ := hmem b hb hf
    exact hid (h.oneAlarm b hb a ha hf hfiring (hbn.trans hn.symm))
  · constructor
    · rintro ⟨b, hb, hbn, hf⟩
      exact ⟨b, (hmem b hb hf).1, hbn, hf⟩
    · rintro ⟨b, hb, hbn, hf⟩
      have hid : b.id ≠ a.id := by
        intro hid
        have hrow : b = a := List.inj_on_of_nodup_map σ.alerts.nodup (mem_alarms.1 hb).1
          (mem_alarms.1 ha).1 hid
        exact hm (hbn.symm.trans ((congrArg AlertRecord.nodeId hrow).trans hn))
      have hthere : b ∈ (σ.alerts.modify a.id (resolved resolvedAt)
          (id_resolved · resolvedAt)).rows :=
        Table.mem_modify.2 ⟨b, (mem_alarms.1 hb).1, (if_neg hid).symm⟩
      exact ⟨b, mem_alarms.2 ⟨hthere, (mem_alarms.1 hb).2⟩, hbn, hf⟩

/-- What `find_open_alert` finds for the staleness key. -/
theorem Represents.findOpenAlert (h : Represents σ v) {scan : Scan} {found : Option AlertRecord}
    (hfound : AlertRepository.findOpenAlert scan σ n stalenessRuleKey = found) :
    v.alarmed n = found.isSome ∧
      ∀ a ∈ found, a ∈ alarms σ.alerts ∧ a.nodeId = n ∧ a.status = .firing := by
  cases found with
  | none =>
    refine ⟨?_, fun _ ha => absurd ha (Option.not_mem_none _)⟩
    have hnone : ¬ Alarmed σ.alerts n := by
      rintro ⟨a, ha, hn, hfiring⟩
      have hopen := (isOpen_iff_alarm (mem_alarms.1 ha).1).2 ⟨ha, hn, hfiring⟩
      exact List.find?_eq_none.1 hfound a (mem_reorder.2 (mem_alarms.1 ha).1) hopen
    simpa [h.alarmed] using hnone
  | some a =>
    have ha := (isOpen_iff_alarm (mem_reorder.1 (List.mem_of_find?_eq_some hfound))).1
      (List.find?_some hfound)
    refine ⟨(h.alarmed n).1 ⟨a, ha⟩, fun b hb => ?_⟩
    obtain rfl := Option.some.inj hb
    exact ha

/-- The tables hold what some watch says. -/
def Tracked (σ : Store) : Prop := ∃ v, Represents σ v

/-- The program returns in a world that satisfies `P`.  In an environment in which calls may fail, it
may also raise, and then what the tables hold is still what some watch says. -/
abbrev Sweeps {α : Type} (env : Environment) (p : Repo α) (w : World) (P : α → World → Prop) :
    Prop :=
  Runs (handle env) (fun _ _ => True) p w
    (Ends P fun _ w' => ¬ env.Faultless ∧ Tracked w'.store)

theorem Sweeps.returns {α : Type} {p : Repo α} {P : α → World → Prop} (hp : Sweeps env p w P)
    (henv : env.Faultless) : Returns env p w P := by
  refine hp.post ?_
  rintro (e | r) w' hw'
  · exact hw'.1 henv
  · exact hw'

/-- A call that succeeds unless the environment makes it fail. -/
theorem Represents.sweeps_exec (h : Represents w.store v) (c : Call)
    (hok : ∀ scan, ∃ r, (exec scan c w.store).1 = .ok r) :
    Sweeps env c.perform w fun r w' =>
      ∃ scan, (exec scan c w.store).1 = .ok r ∧ w'.store = (exec scan c w.store).2 := by
  refine Call.runs_perform (fun e he => ⟨trivial, fun henv => ?_, v, h⟩) fun _ => ⟨trivial, ?_⟩
  · rw [henv] at he
    cases he
  · obtain ⟨r, hr⟩ := hok (env.scan w.calls)
    rw [hr]
    exact ⟨_, hr, rfl⟩

theorem StalenessJob.sweeps_notify (h : Represents w.store v) (m : Notification) :
    Sweeps env (notify settings m) w fun _ w' => w'.store = w.store := by
  unfold notify
  split_ifs
  · refine (h.sweeps_exec (.notify m) fun _ => ⟨_, rfl⟩).post ?_
    rintro (e | r) w' hw'
    · exact hw'
    · obtain ⟨scan, -, hstore⟩ := hw'
      exact hstore
  · rfl

theorem StalenessJob.sweeps_openAlert (h : Represents w.store v)
    {node : NodeRecord} (hnone : v.alarmed node.nodeId = false) (d : Datetime) {seen : Datetime}
    (hseen : node.lastSeenAt = seen.instant) :
    Sweeps env (openAlert settings now node
      (Timedelta.totalSeconds (d.instant - node.lastSeenAt))) w fun _ w' =>
        w'.store.nodes = w.store.nodes ∧
          Represents w'.store { v with alarmed := Function.update v.alarmed node.nodeId true } := by
  obtain ⟨q, hq⟩ := d.totalSeconds_sub_eq_fin seen
  rw [hseen, hq]
  unfold openAlert
  rw [intOfFloat, lift_ok, pure_bind']
  have hfree : ¬ Alarmed w.store.alerts node.nodeId := by
    rw [h.alarmed, hnone]
    decide
  refine (h.sweeps_exec (.createAlert node.nodeId stalenessRuleKey .staleness .critical
    (description (Double.truncate q)) (.fin q) settings.heartbeatStaleAfterSeconds now)
    fun _ => ⟨_, rfl⟩).andThen ?_
  rintro record w₁ ⟨scan, -, hstore⟩
  have h₁ : Represents w₁.store { v with alarmed := Function.update v.alarmed node.nodeId true } := by
    rw [hstore]
    exact h.createAlert hfree ..
  have hnodes : w₁.store.nodes = w.store.nodes := by
    rw [hstore]
    rfl
  refine (sweeps_notify h₁ _).post ?_
  rintro (e | r) w₂ hw₂
  · exact hw₂
  · show w₂.store.nodes = w.store.nodes ∧ _
    rw [show w₂.store = w₁.store from hw₂]
    exact ⟨hnodes, h₁⟩

theorem StalenessJob.sweeps_resolve (h : Represents w.store v)
    (ha : a ∈ alarms w.store.alerts) (hn : a.nodeId = n) (hfiring : a.status = .firing) :
    Sweeps env (resolve settings now a) w fun _ w' => w'.store.nodes = w.store.nodes ∧
      Represents w'.store { v with alarmed := Function.update v.alarmed n false } := by
  have hrow : (w.store.alerts.get? a.id).isSome := by
    rw [Table.get?_of_mem (mem_alarms.1 ha).1]
    rfl
  unfold resolve
  refine (h.sweeps_exec (.resolveAlert a.id now) fun _ => update_ok hrow).andThen ?_
  rintro record w₁ ⟨scan, -, hstore⟩
  have h₁ : Represents w₁.store { v with alarmed := Function.update v.alarmed n false } := by
    rw [hstore]
    exact h.resolveAlert ha hn hfiring now
  have hnodes : w₁.store.nodes = w.store.nodes := by
    rw [hstore]
    exact exec_nodes scan (.resolveAlert a.id now) w.store nofun
  refine (sweeps_notify h₁ _).post ?_
  rintro (e | r) w₂ hw₂
  · exact hw₂
  · show w₂.store.nodes = w.store.nodes ∧ _
    rw [show w₂.store = w₁.store from hw₂]
    exact ⟨hnodes, h₁⟩

/-- One node of a sweep. -/
theorem StalenessJob.sweeps_checkNode (hutc : now.IsUtc) (h : Represents w.store v)
    {node : NodeRecord} (hnode : node ∈ w.store.nodes) (counts : StalenessCounts) :
    Sweeps env (checkNode settings mayOpen now counts node) w fun _ w' =>
      w'.store.nodes = w.store.nodes ∧ Represents w'.store { v with
        alarmed := Function.update v.alarmed node.nodeId
          (v.swept settings.heartbeatStaleAfterSeconds mayOpen now.instant node.nodeId) } := by
  have hsilent : v.silent settings.heartbeatStaleAfterSeconds now.instant node.nodeId =
      decide (settings.heartbeatStaleAfterSeconds ≤
        Timedelta.totalSeconds (now.instant - node.lastSeenAt)) := by
    unfold Watch.silent
    rw [h.lastSeen_of_mem hnode]
    rfl
  obtain ⟨seen, hseen⟩ := h.instant node hnode
  unfold checkNode
  rw [Datetime.since_of_isUtc hutc, lift_ok, pure_bind']
  refine (h.sweeps_exec (.findOpenAlert node.nodeId stalenessRuleKey)
    fun _ => ⟨_, rfl⟩).andThen ?_
  rintro found w₁ ⟨scan, hr, hstore⟩
  have hsame : w₁.store = w.store := hstore
  obtain ⟨halarmed, hfound⟩ := h.findOpenAlert (Except.ok.inj hr)
  have hswept : v.swept settings.heartbeatStaleAfterSeconds mayOpen now.instant node.nodeId =
      (decide (settings.heartbeatStaleAfterSeconds ≤
        Timedelta.totalSeconds (now.instant - node.lastSeenAt)) && (found.isSome || mayOpen)) := by
    rw [Watch.swept, hsilent, halarmed]
  rw [hswept, ← hsame]
  rw [← hsame] at h hfound
  by_cases hstale : settings.heartbeatStaleAfterSeconds ≤
      Timedelta.totalSeconds (now.instant - node.lastSeenAt)
  · rw [if_pos hstale, decide_eq_true hstale, Bool.true_and]
    by_cases hopen : (found.isNone && mayOpen) = true
    · rw [if_pos hopen]
      obtain ⟨hnone, rfl⟩ := (Bool.and_eq_true _ _).mp hopen
      rw [Bool.or_true]
      have hfree : v.alarmed node.nodeId = false := by
        rw [halarmed]
        simpa using hnone
      exact (sweeps_openAlert h hfree now hseen).andThen fun _ w₂ hw₂ => hw₂
    · rw [if_neg hopen]
      refine ⟨rfl, h.update_same ?_⟩
      rw [halarmed]
      cases found with
      | none => exact (Bool.eq_false_of_not_eq_true hopen).symm
      | some a => rfl
  · rw [if_neg hstale, decide_eq_false hstale, Bool.false_and]
    cases found with
    | none => exact ⟨rfl, h.update_same halarmed⟩
    | some a =>
      obtain ⟨ha, hn, hfiring⟩ := hfound a rfl
      exact (sweeps_resolve h ha hn hfiring).andThen fun _ w₂ hw₂ => hw₂

/-- The nodes of a sweep, in whatever order they are listed. -/
theorem StalenessJob.sweeps_checkNodes (hutc : now.IsUtc)
    (nodes : List NodeRecord) (hnodes : ∀ r ∈ nodes, r ∈ w.store.nodes) (h : Represents w.store v)
    (counts : StalenessCounts) :
    Sweeps env (nodes.foldlM (checkNode settings mayOpen now) counts) w fun _ w' =>
      w'.store.nodes = w.store.nodes ∧ Represents w'.store { v with
        alarmed := fun n =>
          if n ∈ nodes.map NodeRecord.nodeId then
            v.swept settings.heartbeatStaleAfterSeconds mayOpen now.instant n
          else v.alarmed n } := by
  induction nodes generalizing w v counts with
  | nil => exact ⟨rfl, h⟩
  | cons node nodes ih =>
    obtain ⟨hnode, hrest⟩ := List.forall_mem_cons.1 hnodes
    rw [List.foldlM_cons]
    refine (sweeps_checkNode hutc h hnode counts).andThen fun counts' w₁ hw₁ => ?_
    obtain ⟨hsame, h₁⟩ := hw₁
    refine (ih (fun r hr => hsame ▸ hrest r hr) h₁ counts').post ?_
    rintro (e | r) w₂ hw₂
    · exact hw₂
    -- A node that is checked twice is left as after the first check.
    · refine ⟨hw₂.1.trans hsame, cast (congrArg (Represents w₂.store) ?_) hw₂.2⟩
      refine congrArg (Watch.mk v.lastSeen) (funext fun n => ?_)
      simp only [List.map_cons, List.mem_cons, Watch.swept, Watch.silent, Function.update_apply]
      by_cases hn : n = node.nodeId
      · subst hn
        by_cases hmem : node.nodeId ∈ nodes.map NodeRecord.nodeId
        · simp only [hmem, if_true, or_true]
          cases (v.lastSeen node.nodeId).any _ <;> simp
        · simp [hmem]
      · simp [hn]

theorem StalenessJob.sweeps_run (hutc : now.IsUtc) (h : Represents w.store v) :
    Sweeps env (run settings mayOpen now) w fun _ w' => w'.store.nodes = w.store.nodes ∧
      Represents w'.store (v.sweep settings.heartbeatStaleAfterSeconds mayOpen now.instant) := by
  unfold run
  refine (h.sweeps_exec .listAllNodes fun _ => ⟨_, rfl⟩).andThen ?_
  rintro nodes w₁ ⟨scan, hr, hstore⟩
  have hsame : w₁.store = w.store := hstore
  obtain rfl : NodeRepository.listAll scan w.store = nodes := Except.ok.inj hr
  have hmem : ∀ r, r ∈ NodeRepository.listAll scan w.store ↔ r ∈ w.store.nodes :=
    fun _ => mem_reorder
  refine (sweeps_checkNodes hutc _ (fun r hr => hsame ▸ (hmem r).1 hr) (hsame ▸ h) _).post ?_
  rintro (e | r) w₂ hw₂
  · exact hw₂
  · refine ⟨hw₂.1.trans (congrArg Store.nodes hsame),
      cast (congrArg (Represents w₂.store) ?_) hw₂.2⟩
    refine congrArg (Watch.mk v.lastSeen) (funext fun n => ?_)
    have hknown : n ∈ (NodeRepository.listAll scan w.store).map NodeRecord.nodeId ↔
        (v.lastSeen n).isSome := by
      rw [h.isSome_lastSeen_iff]
      simp only [List.mem_map, hmem]
    simp only [hknown]

theorem StalenessJob.returns_run (henv : env.Faultless) (hutc : now.IsUtc)
    (h : Represents w.store v) :
    Returns env (run settings mayOpen now) w fun _ w' => Represents w'.store
      (v.sweep settings.heartbeatStaleAfterSeconds mayOpen now.instant) := by
  refine ((sweeps_run hutc h).returns henv).post ?_
  rintro (e | r) w' hw'
  · exact hw'
  · exact hw'.2

end Sweep

/-! ## Receipts and reads -/

section Events

variable {env : Environment} {w : World} {v : Watch}

theorem Represents.ingest (henv : env.Faultless) (h : Represents w.store v)
    (svc : AlertEvaluationService) (payload : NodeMetricsPayload) (receivedAt : Instant) :
    Represents
      ((MetricsIngestionService.ingest svc payload receivedAt).run (handle env) w).2.store
      (v.receive payload.nodeId payload.collectedAt.instant) := by
  have hpersist : Returns env (MetricsIngestionService.persist payload receivedAt) w fun _ w' =>
      Represents w'.store (v.receive payload.nodeId payload.collectedAt.instant) := by
    refine (Call.returns_exec henv (.upsertSeen payload.nodeId payload.collectedAt)
      fun _ => ⟨_, rfl⟩).andThen ?_
    rintro _ w₁ ⟨scan₁, -, hw₁⟩
    refine (Call.returns_exec henv (.bulkInsert payload.nodeId payload.samples payload.collectedAt
      receivedAt) fun _ => ⟨_, rfl⟩).post ?_
    rintro (e | r) w₂ hw₂
    · exact hw₂
    · obtain ⟨scan₂, -, hw₂⟩ := hw₂
      have hseen : Represents w₁.store (v.receive payload.nodeId payload.collectedAt.instant) :=
        hw₁ ▸ h.upsertSeen payload.nodeId payload.collectedAt
      exact hseen.of_same (by rw [hw₂]; rfl) (by rw [hw₂]; rfl)
  have hrun : Runs (handle env) (fun _ _ => True)
      (MetricsIngestionService.ingest svc payload receivedAt) w fun _ w' =>
        Represents w'.store (v.receive payload.nodeId payload.collectedAt.instant) := by
    refine hpersist.bind (fun _ w₁ hw₁ => ?_) fun _ _ he => he.elim
    refine (Represents.evaluate hw₁
      (MetricsIngestionService.allCalls_evaluateRulesBestEffort payload)).bind ?_ fun _ _ he => he
    exact fun _ _ hw₂ => hw₂
  exact hrun.run

theorem Represents.heartbeat (henv : env.Faultless) (h : Represents w.store v)
    (registry : NodeRegistryService) (ping : HeartbeatPing) (now : Instant) :
    Represents ((receiveHeartbeat registry ping now).run (handle env) w).2.store
      (v.receive ping.nodeId ping.sentAt.instant) := by
  have hrun : Returns env (receiveHeartbeat registry ping now) w fun _ w' =>
      Represents w'.store (v.receive ping.nodeId ping.sentAt.instant) := by
    unfold receiveHeartbeat NodeRegistryService.recordSeen
    rw [bind_assoc]
    refine (Call.returns_exec henv (.upsertSeen ping.nodeId ping.sentAt)
      fun _ => ⟨_, rfl⟩).andThen ?_
    rintro _ w₁ ⟨scan, -, hw₁⟩
    show Represents w₁.store _
    rw [hw₁]
    exact h.upsertSeen ping.nodeId ping.sentAt
  obtain ⟨_, w', hr, hw'⟩ := exists_run_of_returns hrun
  rw [hr]
  exact hw'

theorem returns_listNodes (henv : env.Faultless) (registry : NodeRegistryService) (now : Instant) :
    Returns env (registry.listNodes now) w fun views w' => w'.store = w.store ∧
      ∃ scan, views = (NodeRepository.listAll scan w.store).map (registry.toView now) := by
  unfold NodeRegistryService.listNodes
  refine (Call.returns_exec henv .listAllNodes fun _ => ⟨_, rfl⟩).andThen ?_
  rintro nodes w₁ ⟨scan, hr, hw₁⟩
  exact ⟨hw₁, scan, congrArg _ (Except.ok.inj hr).symm⟩

/-- `NodeRegistryService` reports that the node is stale, or that it is not. -/
def Reports (env : Environment) (registry : NodeRegistryService) (now : Instant) (w : World)
    (nodeId : String) (isStale : Bool) : Prop :=
  ∃ views, ((registry.listNodes now).run (handle env) w).1 = .ok views ∧
    ∃ view ∈ views, view.nodeId = nodeId ∧ view.isStale = isStale

/-- What is reported of a node is whether it is overdue. -/
theorem Represents.reports_iff (henv : env.Faultless) (h : Represents w.store v)
    (registry : NodeRegistryService) (now : Instant) (nodeId : String) (isStale : Bool) :
    Reports env registry now w nodeId isStale ↔
      v.overdue registry.staleAfterSeconds now nodeId = some isStale := by
  obtain ⟨views, w', hr, -, scan, rfl⟩ := exists_run_of_returns
    (returns_listNodes (w := w) henv registry now)
  unfold Reports
  rw [hr]
  constructor
  · rintro ⟨views, hviews, view, hview, rfl, rfl⟩
    rw [← Except.ok.inj hviews] at hview
    obtain ⟨r, hmem, rfl⟩ := List.mem_map.1 hview
    have hseen := h.lastSeen_of_mem (mem_reorder.1 hmem)
    rw [Watch.overdue, NodeRegistryService.toView, hseen]
    rfl
  · intro hover
    obtain ⟨t, ht, rfl⟩ := Option.map_eq_some_iff.1 hover
    rw [← h.lastSeen] at ht
    obtain ⟨r, hfind, rfl⟩ := Option.map_eq_some_iff.1 ht
    obtain ⟨hr, hid⟩ := (find?_key_eq_some_iff h.nodup).1 hfind
    have hmem : r ∈ NodeRepository.listAll scan w.store := mem_reorder.2 hr
    exact ⟨_, rfl, _, List.mem_map_of_mem hmem, hid, rfl⟩

end Events

/-! ## Two runs -/

/-- A receipt, a sweep or a read.  A receipt carries a reading of the Agent's clock, in `T`. -/
inductive LivenessEvent (T : Type) where
  | metrics (svc : AlertEvaluationService) (nodeId : String) (samples : List MetricSample)
      (collectionErrors : List String) (receivedAt : Instant) (collectedAt : T)
  | heartbeat (registry : NodeRegistryService) (nodeId : String) (receivedAt : Instant) (sentAt : T)
  | sweep (settings : CollectorSettings) (firstRunDone : Bool) (now : Datetime) (utc : now.IsUtc)
  | read (registry : NodeRegistryService) (now : Instant)

namespace LivenessEvent

/-- The same event with other readings. -/
def map {T U : Type} (f : T → U) : LivenessEvent T → LivenessEvent U
  | metrics svc nodeId samples collectionErrors receivedAt collectedAt =>
    metrics svc nodeId samples collectionErrors receivedAt (f collectedAt)
  | heartbeat registry nodeId receivedAt sentAt => heartbeat registry nodeId receivedAt (f sentAt)
  | sweep settings firstRunDone now utc => sweep settings firstRunDone now utc
  | read registry now => read registry now

/-- The world after an event. -/
def play (env : Environment) : LivenessEvent Datetime → World → World
  | metrics svc nodeId samples collectionErrors receivedAt collectedAt, w =>
    ((MetricsIngestionService.ingest svc ⟨nodeId, collectedAt, samples, collectionErrors⟩
      receivedAt).run (handle env) w).2
  | heartbeat registry nodeId receivedAt sentAt, w =>
    ((receiveHeartbeat registry ⟨nodeId, sentAt⟩ receivedAt).run (handle env) w).2
  | sweep settings firstRunDone now _, w =>
    ((StalenessJob.run settings firstRunDone now).run (handle env) w).2
  | read registry now, w => ((registry.listNodes now).run (handle env) w).2

end LivenessEvent

/-- The watch after an event. -/
def Watch.next (v : Watch) : LivenessEvent Datetime → Watch
  | .metrics _ nodeId _ _ _ collectedAt => v.receive nodeId collectedAt.instant
  | .heartbeat _ nodeId _ sentAt => v.receive nodeId sentAt.instant
  | .sweep settings firstRunDone now _ =>
    v.sweep settings.heartbeatStaleAfterSeconds firstRunDone now.instant
  | .read _ _ => v

/-- A staleness alert of the node is opened from one table to the next. -/
def Opens (t t' : AlertTable) (nodeId : String) : Prop := ¬ Alarmed t nodeId ∧ Alarmed t' nodeId

/-- The open staleness alert of the node is resolved from one table to the next. -/
def Resolves (t t' : AlertTable) (nodeId : String) : Prop := Alarmed t nodeId ∧ ¬ Alarmed t' nodeId

/-- Two runs side by side, that differ in the readings of the Agent's clock. -/
def playBoth (env₁ env₂ : Environment) (w : World × World)
    (e : LivenessEvent (Datetime × Datetime)) : World × World :=
  ((e.map Prod.fst).play env₁ w.1, (e.map Prod.snd).play env₂ w.2)

/-- Both runs show the same at the event: a sweep opens and resolves alerts for the same nodes, and
a read reports the same of every node. -/
def ShowsSame (env₁ env₂ : Environment) (w : World × World)
    (e : LivenessEvent (Datetime × Datetime)) : Prop :=
  let w' := playBoth env₁ env₂ w e
  match e with
  | .sweep .. => ∀ n,
    (Opens w.1.store.alerts w'.1.store.alerts n ↔ Opens w.2.store.alerts w'.2.store.alerts n) ∧
    (Resolves w.1.store.alerts w'.1.store.alerts n ↔
      Resolves w.2.store.alerts w'.2.store.alerts n)
  | .read registry now => ∀ n isStale,
    Reports env₁ registry now w.1 n isStale ↔ Reports env₂ registry now w.2 n isStale
  | _ => True

namespace Watch

def nextBoth (v : Watch × Watch) (e : LivenessEvent (Datetime × Datetime)) : Watch × Watch :=
  (v.1.next (e.map Prod.fst), v.2.next (e.map Prod.snd))

/-- The readings received last are on the same side of the threshold: at a read for every node, at a
sweep for every node with an open staleness alert, or for every node if the sweep may open one. -/
def SameSide (v : Watch × Watch) : LivenessEvent (Datetime × Datetime) → Prop
  | .sweep settings firstRunDone now _ => ∀ n, (v.1.alarmed n || firstRunDone) = true →
    v.1.silent settings.heartbeatStaleAfterSeconds now.instant n =
      v.2.silent settings.heartbeatStaleAfterSeconds now.instant n
  | .read registry now => ∀ n,
    v.1.overdue registry.staleAfterSeconds now n = v.2.overdue registry.staleAfterSeconds now n
  | _ => True

end Watch

section TwoRuns

variable {env env₁ env₂ : Environment} {w : World × World} {v : Watch × Watch}

/-- The tables follow the watch. -/
theorem Represents.play {w : World} {v : Watch} (henv : env.Faultless) (h : Represents w.store v)
    (e : LivenessEvent Datetime) : Represents (e.play env w).store (v.next e) := by
  cases e with
  | metrics svc nodeId samples collectionErrors receivedAt collectedAt =>
    exact h.ingest henv svc ⟨nodeId, collectedAt, samples, collectionErrors⟩ receivedAt
  | heartbeat registry nodeId receivedAt sentAt =>
    exact h.heartbeat henv registry ⟨nodeId, sentAt⟩ receivedAt
  | sweep settings firstRunDone now utc =>
    have hreturns : Returns env (StalenessJob.run settings firstRunDone now) w fun _ w' =>
        Represents w'.store (v.sweep settings.heartbeatStaleAfterSeconds firstRunDone now.instant) :=
      StalenessJob.returns_run henv utc h
    obtain ⟨_, w', hr, hw'⟩ := exists_run_of_returns hreturns
    rw [LivenessEvent.play, hr]
    exact hw'
  | read registry now =>
    obtain ⟨_, w', hr, hw', -⟩ := exists_run_of_returns
      (returns_listNodes (w := w) henv registry now)
    rw [LivenessEvent.play, hr]
    exact (congrArg (Represents · v) hw').mpr h

theorem Watch.alarmed_sweep (v : Watch) (threshold : Double) (mayOpen : Bool) (now : Instant)
    (n : String) : (v.sweep threshold mayOpen now).alarmed n =
      if v.silent threshold now n then v.alarmed n || mayOpen
      else v.alarmed n && (v.lastSeen n).isNone := by
  unfold Watch.sweep Watch.swept Watch.silent
  cases hseen : v.lastSeen n with
  | none => simp [hseen]
  | some t =>
    by_cases hsilent : threshold ≤ Timedelta.totalSeconds (now - t) <;> simp [hseen, hsilent]

section Sweeps

variable {σ σ' : Store} {v : Watch} {threshold : Double} {mayOpen : Bool} {now : Instant}

theorem opens_iff (h : Represents σ v) (h' : Represents σ' (v.sweep threshold mayOpen now))
    (n : String) : Opens σ.alerts σ'.alerts n ↔
      v.alarmed n = false ∧ mayOpen = true ∧ v.silent threshold now n = true := by
  rw [Opens, h.alarmed, h'.alarmed, Watch.alarmed_sweep]
  by_cases hsilent : v.silent threshold now n = true <;> cases v.alarmed n <;> simp [hsilent]

theorem resolves_iff (h : Represents σ v) (h' : Represents σ' (v.sweep threshold mayOpen now))
    (n : String) : Resolves σ.alerts σ'.alerts n ↔
      v.alarmed n = true ∧ (v.lastSeen n).isSome = true ∧ v.silent threshold now n = false := by
  rw [Resolves, h.alarmed, h'.alarmed, Watch.alarmed_sweep]
  by_cases hsilent : v.silent threshold now n = true <;> cases v.alarmed n <;>
    simp [hsilent, Option.isSome_iff_ne_none]

/-- A node that was never seen is not silent. -/
theorem Watch.isSome_of_silent {n : String} (h : v.silent threshold now n = true) :
    (v.lastSeen n).isSome = true := by
  cases hseen : v.lastSeen n with
  | none => simp [silent, hseen] at h
  | some t => rfl

end Sweeps

/-- Both watches know the same nodes, and the same of them have an open staleness alert. -/
structure Watch.Alike (v : Watch × Watch) : Prop where
  known : ∀ n, (v.1.lastSeen n).isSome = (v.2.lastSeen n).isSome
  alarmed : ∀ n, v.1.alarmed n = v.2.alarmed n

theorem Watch.alike_start : Watch.Alike (.start, .start) := ⟨fun _ => rfl, fun _ => rfl⟩

theorem Watch.Alike.receive (h : Watch.Alike v) (nodeId : String) (t₁ t₂ : Instant) :
    Watch.Alike (v.1.receive nodeId t₁, v.2.receive nodeId t₂) where
  known n := by
    by_cases hn : n = nodeId
    · subst hn
      simp [Watch.receive]
    · simp [Watch.receive, Function.update_of_ne hn, h.known n]
  alarmed := h.alarmed

theorem Watch.Alike.next {e : LivenessEvent (Datetime × Datetime)} (h : Watch.Alike v)
    (hC : Watch.SameSide v e) : Watch.Alike (Watch.nextBoth v e) := by
  cases e with
  | metrics | heartbeat => exact h.receive _ _ _
  | read => exact h
  | sweep settings firstRunDone now utc =>
    refine ⟨h.known, fun n => ?_⟩
    show (v.1.sweep _ _ _).alarmed n = (v.2.sweep _ _ _).alarmed n
    rw [Watch.alarmed_sweep, Watch.alarmed_sweep, ← h.alarmed n]
    have hnone : (v.1.lastSeen n).isNone = (v.2.lastSeen n).isNone := by
      rw [← Option.not_isSome, ← Option.not_isSome, h.known n]
    by_cases hmay : (v.1.alarmed n || firstRunDone) = true
    · rw [hC n hmay, hnone]
    · -- A node without an open alert keeps none if the sweep may not open one.
      have hnot : v.1.alarmed n = false ∧ firstRunDone = false := by simpa using hmay
      rw [hnot.1, hnot.2]
      simp

/-- The runs show the same exactly if the readings received last are on the same side. -/
theorem showsSame_iff (henv₁ : env₁.Faultless) (henv₂ : env₂.Faultless)
    (h₁ : Represents w.1.store v.1) (h₂ : Represents w.2.store v.2) (hv : Watch.Alike v)
    (e : LivenessEvent (Datetime × Datetime)) :
    ShowsSame env₁ env₂ w e ↔ Watch.SameSide v e := by
  cases e with
  | metrics | heartbeat => exact Iff.rfl
  | sweep settings firstRunDone now utc =>
    have h₁' := h₁.play henv₁ (.sweep settings firstRunDone now utc)
    have h₂' := h₂.play henv₂ (.sweep settings firstRunDone now utc)
    refine forall_congr' fun n => (and_congr
      (iff_congr (opens_iff h₁ h₁' n) (opens_iff h₂ h₂' n))
      (iff_congr (resolves_iff h₁ h₁' n) (resolves_iff h₂ h₂' n))).trans ?_
    have hknown₁ : v.1.silent settings.heartbeatStaleAfterSeconds now.instant n = true →
        (v.1.lastSeen n).isSome = true := Watch.isSome_of_silent
    have hknown₂ : v.2.silent settings.heartbeatStaleAfterSeconds now.instant n = true →
        (v.2.lastSeen n).isSome = true := Watch.isSome_of_silent
    rw [← hv.known n] at hknown₂ ⊢
    rw [← hv.alarmed n]
    generalize v.1.silent _ _ n = silent₁ at hknown₁ ⊢
    generalize v.2.silent _ _ n = silent₂ at hknown₂ ⊢
    generalize v.1.alarmed n = alarmed
    generalize (v.1.lastSeen n).isSome = known at hknown₁ hknown₂ ⊢
    revert hknown₁ hknown₂
    cases silent₁ <;> cases silent₂ <;> cases alarmed <;> cases known <;> cases firstRunDone <;>
      decide
  | read registry now =>
    refine forall_congr' fun n => ?_
    simp only [h₁.reports_iff henv₁, h₂.reports_iff henv₂]
    exact ⟨Option.ext, fun h isStale => by rw [h]⟩

/-- Two runs with the same receipts show the same at every sweep and every read, exactly if the
readings received last are on the same side of the threshold there. -/
theorem staleness_independent_iff (henv₁ : env₁.Faultless) (henv₂ : env₂.Faultless)
    (events : List (LivenessEvent (Datetime × Datetime))) :
    Machine.Meets (playBoth env₁ env₂) (ShowsSame env₁ env₂) (.fresh, .fresh) events ↔
      Machine.Meets Watch.nextBoth Watch.SameSide (.start, .start) events := by
  refine Machine.meets_iff_meets (fun w v => Represents w.1.store v.1 ∧ Represents w.2.store v.2 ∧
    Watch.Alike v) ?_ ?_ ⟨represents_empty, represents_empty, Watch.alike_start⟩
  · rintro w v e ⟨h₁, h₂, hv⟩ hside
    exact ⟨h₁.play henv₁ (e.map Prod.fst), h₂.play henv₂ (e.map Prod.snd), hv.next hside⟩
  · rintro w v e ⟨h₁, h₂, hv⟩
    exact showsSame_iff henv₁ henv₂ h₁ h₂ hv e

end TwoRuns

namespace Scenario

/-- A heartbeat at noon, from an Agent whose clock is right and from one whose clock is an hour
behind, and a sweep ten seconds later. -/
def skewedHeartbeat : List (LivenessEvent (Datetime × Datetime)) :=
  [.heartbeat ⟨90⟩ "node-1" (clock 43200).instant (clock 43200, clock 39600),
    .sweep .default true (clock 43210) rfl]

theorem staleness_independent_iff_calm :
    Machine.Meets (playBoth .calm .calm) (ShowsSame .calm .calm) (.fresh, .fresh) skewedHeartbeat ↔
      Machine.Meets Watch.nextBoth Watch.SameSide (.start, .start) skewedHeartbeat :=
  staleness_independent_iff Environment.calm_faultless Environment.calm_faultless skewedHeartbeat

instance (t : AlertTable) (nodeId : String) : Decidable (Alarmed t nodeId) :=
  inferInstanceAs (Decidable (∃ a ∈ alarms t, _))

instance (t t' : AlertTable) (nodeId : String) : Decidable (Opens t t' nodeId) :=
  inferInstanceAs (Decidable (_ ∧ _))

/-- Two Agents with different clocks, both just heard of: one of them is taken for silent. -/
theorem not_staleness_independent : ¬ ∀ (env₁ env₂ : Environment), env₁.Faultless →
    env₂.Faultless → ∀ events : List (LivenessEvent (Datetime × Datetime)),
      Machine.Meets (playBoth env₁ env₂) (ShowsSame env₁ env₂) (.fresh, .fresh) events := by
  intro h
  obtain ⟨-, hsweep, -⟩ :=
    h .calm .calm Environment.calm_faultless Environment.calm_faultless skewedHeartbeat
  have hopens := (hsweep "node-1").1
  exact absurd hopens (by decide +kernel)

end Scenario

end ClusterPulse
