import ClusterPulse.Proof.DeliveryOrder
import ClusterPulse.Proof.Staleness

/-!
# Staleness alerts over the life of a process

A process records sightings and sweeps; a sweep that a failing call ends leaves some of its nodes
unchecked.  Until one sweep has come to its end no alert is opened.  From then on every sweep that
comes to its end leaves exactly one open staleness alert for each silent node and none for any
other, and while no sweep fails every opening and every resolution is notified once.
-/

namespace ClusterPulse

open AlertRepository Prog
open StalenessJob (stalenessRuleKey)

/-! ## A process -/

/-- The world, and whether a sweep of this process has come to its end. -/
structure StalenessProcess where
  world : World
  firstRunDone : Bool

/-- A call of `record_seen`, or a sweep at a reading of the Collector's clock. -/
inductive StalenessEvent where
  | seen (nodeId : String) (seenAt : Datetime) (now : Instant)
  | sweep (now : Datetime) (utc : now.IsUtc)

/-- The tables hold the same alerts, whatever became of them. -/
def SameIds (t t' : AlertTable) : Prop := t'.rows.map AlertRecord.id = t.rows.map AlertRecord.id

namespace StalenessProcess

variable (env : Environment) (svc : NodeRegistryService) (settings : CollectorSettings)

def next (s : StalenessProcess) : StalenessEvent → StalenessProcess
  | .seen nodeId seenAt now =>
    { s with world := ((svc.recordSeen nodeId seenAt now).run (handle env) s.world).2 }
  | .sweep now _ =>
    match (StalenessJob.run settings s.firstRunDone now).run (handle env) s.world with
    | (.ok _, w) => ⟨w, true⟩
    | (.error _, w) => ⟨w, s.firstRunDone⟩

/-- The event is not a sweep that a failing call ends. -/
def Completes (s : StalenessProcess) : StalenessEvent → Prop
  | .seen .. => True
  | .sweep now _ => ∃ counts,
    ((StalenessJob.run settings s.firstRunDone now).run (handle env) s.world).1 = .ok counts

/-- Until a sweep has come to its end, no alert is opened. -/
def Graces (s : StalenessProcess) (e : StalenessEvent) : Prop :=
  s.firstRunDone = false →
    SameIds s.world.store.alerts (s.next env svc settings e).world.store.alerts

/-- A completed sweep after the first leaves one open staleness alert for each node that has been
silent for the threshold, and none for any other. -/
def Tracks (s : StalenessProcess) (e : StalenessEvent) : Prop :=
  match e with
  | .seen .. => True
  | .sweep now _ => s.firstRunDone = true → s.Completes env settings e →
    ∀ n ∈ (s.next env svc settings e).world.store.nodes,
      openCount n.nodeId stalenessRuleKey (s.next env svc settings e).world.store.alerts =
        if settings.heartbeatStaleAfterSeconds ≤
          Timedelta.totalSeconds (now.instant - n.lastSeenAt) then 1 else 0

variable {env svc settings} {s : StalenessProcess} {now : Datetime} {utc : now.IsUtc}

theorem world_sweep : (s.next env svc settings (.sweep now utc)).world =
    ((StalenessJob.run settings s.firstRunDone now).run (handle env) s.world).2 := by
  unfold next
  dsimp only
  rcases (StalenessJob.run settings s.firstRunDone now).run (handle env) s.world with ⟨e | r, w⟩
  · rfl
  · rfl

variable (env svc settings s) in
theorem world_seen_cases (nodeId : String) (seenAt : Datetime) (receivedAt : Instant) :
    (s.next env svc settings (.seen nodeId seenAt receivedAt)).world =
      { s.world with calls := s.world.calls + 1 } ∨
    ∃ scan, (s.next env svc settings (.seen nodeId seenAt receivedAt)).world =
      s.world.after scan (.upsertSeen nodeId seenAt) := by
  unfold next NodeRegistryService.recordSeen
  dsimp only
  rw [run_bind, run_perform]
  rcases handle_cases env (.upsertSeen nodeId seenAt) s.world with ⟨e, -, heq⟩ | ⟨-, heq⟩ <;>
    rw [heq]
  · exact .inl rfl
  · exact .inr ⟨_, rfl⟩

theorem seen_alerts {nodeId : String} {seenAt : Datetime} {receivedAt : Instant} :
    (s.next env svc settings (.seen nodeId seenAt receivedAt)).world.store.alerts =
      s.world.store.alerts := by
  obtain h | ⟨scan, h⟩ := s.world_seen_cases env svc settings nodeId seenAt receivedAt
  · rw [h]
  · rw [h, World.after_alerts]
    rfl

theorem seen_sent {nodeId : String} {seenAt : Datetime} {receivedAt : Instant} :
    (s.next env svc settings (.seen nodeId seenAt receivedAt)).world.sent = s.world.sent := by
  obtain h | ⟨scan, h⟩ := s.world_seen_cases env svc settings nodeId seenAt receivedAt
  · rw [h]
  · rw [h]
    exact List.append_nil _

end StalenessProcess

/-- What earlier processes leave behind: at most one open staleness alert for each node. -/
structure Store.LeftBehind (σ : Store) : Prop where
  nodup : (σ.nodes.map NodeRecord.nodeId).Nodup
  instant : ∀ r ∈ σ.nodes, ∃ d : Datetime, r.lastSeenAt = d.instant
  oneAlarm : OneAlarm σ.alerts

theorem Store.LeftBehind.tracked {σ : Store} (h : σ.LeftBehind) : Tracked σ := by
  classical
  refine ⟨⟨fun n => (σ.nodes.find? fun r => r.nodeId == n).map NodeRecord.lastSeenAt,
    fun n => decide (Alarmed σ.alerts n)⟩, h.nodup, fun _ => rfl, h.instant, h.oneAlarm, fun n => ?_⟩
  rw [decide_eq_true_iff]

section Runs

variable {env : Environment} {svc : NodeRegistryService} {settings : CollectorSettings}
  {s : StalenessProcess} {now : Datetime} {w : World}

/-- The watch counts the open staleness alerts. -/
theorem Represents.openCount_eq {σ : Store} {v : Watch} (h : Represents σ v) (n : String) :
    openCount n stalenessRuleKey σ.alerts = (v.alarmed n).toNat := by
  have hopen : ∀ a ∈ σ.alerts.rows, isOpen n stalenessRuleKey a = true ↔
      a ∈ alarms σ.alerts ∧ a.nodeId = n ∧ a.status = .firing := fun a ha => isOpen_iff_alarm ha
  have hle : openCount n stalenessRuleKey σ.alerts ≤ 1 := by
    rw [ClusterPulse.openCount_eq]
    refine Table.countP_le_one fun a ha b hb hpa hpb => ?_
    obtain ⟨ha', hna, hfa⟩ := (hopen a ha).1 hpa
    obtain ⟨hb', hnb, hfb⟩ := (hopen b hb).1 hpb
    exact h.oneAlarm a ha' b hb' hfa hfb (hna.trans hnb.symm)
  have hpos : 0 < openCount n stalenessRuleKey σ.alerts ↔ v.alarmed n = true := by
    rw [← h.alarmed, ClusterPulse.openCount_eq, List.countP_pos_iff]
    constructor
    · rintro ⟨a, ha, hpa⟩
      exact ⟨a, (hopen a ha).1 hpa⟩
    · rintro ⟨a, ha, hn⟩
      have hrow := (mem_alarms.1 ha).1
      exact ⟨a, hrow, (hopen a hrow).2 ⟨ha, hn⟩⟩
  cases halarmed : v.alarmed n with
  | true =>
    have h₁ := hpos.2 halarmed
    simp only [Bool.toNat_true]
    omega
  | false =>
    have h₁ : ¬ 0 < openCount n stalenessRuleKey σ.alerts := by simp [hpos, halarmed]
    simp only [Bool.toNat_false]
    omega

/-! ## One open alert for each silent node -/

/-- Also a sweep that a failing call ends leaves at most one open alert for each node. -/
theorem Tracked.next (h : Tracked s.world.store) (e : StalenessEvent) :
    Tracked (s.next env svc settings e).world.store := by
  cases e with
  | seen nodeId seenAt receivedAt =>
    obtain ⟨v, h⟩ := h
    obtain heq | ⟨scan, heq⟩ := s.world_seen_cases env svc settings nodeId seenAt receivedAt
    · rw [heq]
      exact ⟨v, h⟩
    · rw [heq]
      exact ⟨_, h.upsertSeen nodeId seenAt⟩
  | sweep now utc =>
    obtain ⟨v, h⟩ := h
    have hsweep : Sweeps env (StalenessJob.run settings s.firstRunDone now) s.world _ :=
      StalenessJob.sweeps_run utc h
    have hend := Runs.run hsweep
    rw [StalenessProcess.world_sweep]
    cases hrun : ((StalenessJob.run settings s.firstRunDone now).run (handle env) s.world).1 with
    | error e =>
      rw [hrun] at hend
      exact hend.2
    | ok r =>
      rw [hrun] at hend
      exact ⟨_, hend.2⟩

theorem Tracked.tracks (h : Tracked s.world.store) (e : StalenessEvent) :
    s.Tracks env svc settings e := by
  cases e with
  | seen nodeId seenAt now => trivial
  | sweep now utc =>
    rintro hdone ⟨counts, hcounts⟩ n hn
    obtain ⟨v, h⟩ := h
    have hsweep : Sweeps env (StalenessJob.run settings s.firstRunDone now) s.world _ :=
      StalenessJob.sweeps_run utc h
    have hend := Runs.run hsweep
    rw [StalenessProcess.world_sweep] at hn ⊢
    rw [hcounts] at hend
    obtain ⟨hnodes, h'⟩ := hend
    have hseen : (v.sweep settings.heartbeatStaleAfterSeconds s.firstRunDone now.instant).lastSeen
        n.nodeId = some n.lastSeenAt := h'.lastSeen_of_mem hn
    have hsilent : v.silent settings.heartbeatStaleAfterSeconds now.instant n.nodeId =
        decide (settings.heartbeatStaleAfterSeconds ≤
          Timedelta.totalSeconds (now.instant - n.lastSeenAt)) := by
      unfold Watch.silent
      rw [show v.lastSeen n.nodeId = some n.lastSeenAt from hseen]
      rfl
    rw [h'.openCount_eq, hdone, Watch.alarmed_sweep, Bool.or_true, hsilent]
    by_cases hstale : settings.heartbeatStaleAfterSeconds ≤
        Timedelta.totalSeconds (now.instant - n.lastSeenAt)
    · simp [hstale]
    · simp [hstale, show v.lastSeen n.nodeId = some n.lastSeenAt from hseen]

/-! ## No alert before the first sweep has come to its end -/

/-- The calls of a sweep that opens no alert. -/
def Call.OpensNone : Call → Prop
  | .listAllNodes | .findOpenAlert .. | .resolveAlert .. | .notify .. => True
  | _ => False

theorem StalenessJob.only_grace (settings : CollectorSettings) (now : Datetime) :
    Only Call.OpensNone (run settings false now) := by
  have hnotify : ∀ m, Only Call.OpensNone (notify settings m) := by
    intro m
    unfold notify
    split_ifs
    · exact only_perform trivial
    · exact only_pure _
  refine (only_perform trivial).bind fun nodes => Only.foldlM (fun counts node => ?_) nodes _
  refine (only_lift _).bind fun silent => (only_perform trivial).bind fun found => ?_
  rw [Bool.and_false, if_neg Bool.false_ne_true]
  split_ifs
  · exact only_pure _
  · cases found with
    | none => exact only_pure _
    | some a =>
      have hresolve : Only Call.OpensNone (resolve settings now a) :=
        (only_perform trivial).bind fun _ => hnotify _
      exact hresolve.bind fun _ => only_pure _

theorem Call.OpensNone.sameIds {c : Call} (hc : c.OpensNone) (scan : Scan) (σ : Store) :
    SameIds σ.alerts (c.alerts scan σ) := by
  cases c with
  | resolveAlert alertId resolvedAt =>
    simp only [SameIds, Call.alerts, Table.rows_modify, List.map_map]
    refine List.map_congr_left fun a _ => ?_
    rw [Function.comp_apply]
    split_ifs <;> rfl
  | listAllNodes | findOpenAlert | notify => rfl
  | _ => exact hc.elim

theorem StalenessProcess.graces (e : StalenessEvent) : s.Graces env svc settings e := by
  intro h
  cases e with
  | seen nodeId seenAt now =>
    rw [seen_alerts]
    rfl
  | sweep now utc =>
    rw [world_sweep, h]
    refine ((StalenessJob.only_grace settings now).runs
      (fun w : World => SameIds s.world.store.alerts w.store.alerts) (fun c w hc hw => ?_) rfl).run
    rcases handle_cases env c w with ⟨e, -, heq⟩ | ⟨-, heq⟩ <;> rw [heq]
    · exact hw
    · rw [World.after_alerts]
      exact (hc.sameIds _ _).trans hw

end Runs

/-! ## Messages -/

/-- The message says that the alert was opened. -/
def Notification.opens (alertId : ℕ) : Notification → Bool
  | .opened a => a.id == alertId
  | _ => false

/-- The message says that the alert was resolved. -/
def Notification.resolves (alertId : ℕ) : Notification → Bool
  | .resolved a => a.id == alertId
  | _ => false

/-- An alert was created under the id. -/
def WasCreated (t : AlertTable) (alertId : ℕ) : Prop := alertId < t.next

instance (t : AlertTable) (alertId : ℕ) : Decidable (WasCreated t alertId) :=
  inferInstanceAs (Decidable (alertId < t.next))

/-- The alert was resolved. -/
def WasResolved (t : AlertTable) (alertId : ℕ) : Prop :=
  ∃ a ∈ t.rows, a.id = alertId ∧ a.status = .resolved

instance (t : AlertTable) (alertId : ℕ) : Decidable (WasResolved t alertId) :=
  inferInstanceAs (Decidable (∃ a ∈ t.rows, _))

/-- From one world to the next, each alert that was created in between and each that was resolved
was notified so many times, and no other. -/
def Announced (times : ℕ) (w w' : World) : Prop :=
  ∃ messages, w'.sent = w.sent ++ messages ∧ ∀ alertId,
    (if WasCreated w.store.alerts alertId then times else 0) +
        messages.countP (Notification.opens alertId) =
      (if WasCreated w'.store.alerts alertId then times else 0) ∧
    (if WasResolved w.store.alerts alertId then times else 0) +
        messages.countP (Notification.resolves alertId) =
      if WasResolved w'.store.alerts alertId then times else 0

section Messages

variable {times : ℕ} {w w' w'' : World}

theorem Announced.of_same (halerts : w'.store.alerts = w.store.alerts)
    (hsent : w'.sent = w.sent) : Announced times w w' := by
  refine ⟨[], ?_, fun alertId => ?_⟩
  · rw [hsent, List.append_nil]
  · rw [halerts]
    exact ⟨rfl, rfl⟩

theorem Announced.refl (w : World) : Announced times w w := .of_same rfl rfl

theorem Announced.trans (h : Announced times w w') (h' : Announced times w' w'') :
    Announced times w w'' := by
  obtain ⟨messages, hsent, hcount⟩ := h
  obtain ⟨messages', hsent', hcount'⟩ := h'
  refine ⟨messages ++ messages', ?_, fun alertId => ?_⟩
  · rw [hsent', hsent, List.append_assoc]
  · obtain ⟨hcreated, hresolved⟩ := hcount alertId
    obtain ⟨hcreated', hresolved'⟩ := hcount' alertId
    rw [List.countP_append, List.countP_append]
    omega

/-- A new alert, with the messages that say so. -/
theorem Announced.insert {mk : ℕ → AlertRecord} {hmk : ∀ i, (mk i).id = i}
    (halerts : w'.store.alerts = w.store.alerts.insert mk hmk)
    (hfiring : (mk w.store.alerts.next).status = .firing)
    (hsent : w'.sent = w.sent ++ List.replicate times (.opened (mk w.store.alerts.next))) :
    Announced times w w' := by
  refine ⟨_, hsent, fun alertId => ⟨?_, ?_⟩⟩
  · rw [List.countP_replicate, Notification.opens, hmk, halerts]
    simp only [WasCreated, Table.next_insert, beq_iff_eq]
    obtain h | rfl | h := Nat.lt_trichotomy alertId w.store.alerts.next
    · simp [h, h.ne', Nat.lt_succ_of_lt h]
    · simp
    · have hafter : ¬ alertId < w.store.alerts.next + 1 := by omega
      simp [h.ne, h.not_gt, hafter]
  · have hsame : WasResolved w'.store.alerts alertId ↔ WasResolved w.store.alerts alertId := by
      simp only [WasResolved, halerts, Table.mem_insert]
      constructor
      · rintro ⟨a, ha | rfl, hid, hresolved⟩
        · exact ⟨a, ha, hid, hresolved⟩
        · cases hfiring.symm.trans hresolved
      · rintro ⟨a, ha, hid, hresolved⟩
        exact ⟨a, .inl ha, hid, hresolved⟩
    simp [List.countP_replicate, Notification.resolves, hsame]

/-- An open alert is resolved, with the messages that say so. -/
theorem Announced.modify {a : AlertRecord} {f : AlertRecord → AlertRecord}
    {hf : ∀ b, (f b).id = b.id} (ha : a ∈ w.store.alerts.rows) (hfiring : a.status = .firing)
    (halerts : w'.store.alerts = w.store.alerts.modify a.id f hf)
    (hresolved : (f a).status = .resolved)
    (hsent : w'.sent = w.sent ++ List.replicate times (.resolved (f a))) :
    Announced times w w' := by
  refine ⟨_, hsent, fun alertId => ⟨?_, ?_⟩⟩
  · have hsame : WasCreated w'.store.alerts alertId ↔ WasCreated w.store.alerts alertId := by
      rw [WasCreated, halerts, Table.next_modify, WasCreated]
    simp [List.countP_replicate, Notification.opens, hsame]
  · have hbefore : ¬ WasResolved w.store.alerts a.id := by
      rintro ⟨b, hb, hid, hres⟩
      rw [Table.eq_of_key_eq ha hb hid, hfiring] at hres
      cases hres
    have hafter : WasResolved w'.store.alerts alertId ↔
        alertId = a.id ∨ WasResolved w.store.alerts alertId := by
      rw [WasResolved, halerts]
      constructor
      · rintro ⟨b, hb, rfl, hres⟩
        obtain ⟨b₀, hb₀, rfl⟩ := Table.mem_modify.1 hb
        split_ifs at hres ⊢ with hid
        · exact .inl ((hf b₀).trans hid)
        · exact .inr ⟨b₀, hb₀, rfl, hres⟩
      · rintro (rfl | ⟨b, hb, rfl, hres⟩)
        · exact ⟨f a, Table.mem_modify.2 ⟨a, ha, (if_pos rfl).symm⟩, hf a, hresolved⟩
        · refine ⟨b, Table.mem_modify.2 ⟨b, hb, (if_neg ?_).symm⟩, rfl, hres⟩
          intro hid
          exact hbefore ⟨b, hb, hid, hres⟩
    rw [List.countP_replicate, Notification.resolves, hf]
    by_cases hid : alertId = a.id
    · subst hid
      simp [hafter, hbefore]
    · simp [hafter, hid, Ne.symm hid]

end Messages

section Announcements

variable {env : Environment} {svc : NodeRegistryService} {settings : CollectorSettings}
  {s : StalenessProcess} {now : Datetime} {w : World}

/-- What a call does, if it does not fail. -/
theorem Call.runs_after (c : Call) (w : World) :
    Runs (handle env) (fun _ _ => True) c.perform w (Ends
      (fun r w' => ∃ scan, (exec scan c w.store).1 = .ok r ∧ w' = w.after scan c)
      fun _ _ => True) := by
  refine Call.runs_perform (fun _ _ => ⟨trivial, trivial⟩) fun _ => ⟨trivial, ?_⟩
  cases hr : (exec (env.scan w.calls) c w.store).1 with
  | ok r => exact ⟨_, hr, rfl⟩
  | error e => trivial

/-- The program announces what it does, if it returns. -/
abbrev Announces {α : Type} (env : Environment) (settings : CollectorSettings) (p : Repo α)
    (w : World) : Prop :=
  Runs (handle env) (fun _ _ => True) p w
    (Ends (fun _ w' => Announced settings.notificationsEnabled.toNat w w') fun _ _ => True)

theorem Announces.trans {α β : Type} {p : Repo α} {f : α → Repo β}
    (hp : Announces env settings p w) (hf : ∀ a w', Announces env settings (f a) w') :
    Announces env settings (p >>= f) w := by
  refine Runs.andThen hp fun a w' hw' => (hf a w').post ?_
  rintro (e | r) w'' hw''
  · trivial
  · exact Announced.trans hw' hw''

theorem Announces.of_call {c : Call} (halerts : ∀ scan σ, c.alerts scan σ = σ.alerts)
    (hmessage : c.message = none) (w : World) : Announces env settings c.perform w := by
  refine (Call.runs_after c w).post ?_
  rintro (e | r) w' hw'
  · trivial
  · obtain ⟨scan, -, rfl⟩ := hw'
    refine Announced.of_same ?_ ?_
    · rw [World.after_alerts, halerts]
    · rw [World.after_sent, hmessage, Option.toList_none, List.append_nil]

namespace StalenessJob

theorem runs_notify_sent (m : Notification) (w : World) :
    Runs (handle env) (fun _ _ => True) (notify settings m) w (Ends
      (fun _ w' => w'.store = w.store ∧
        w'.sent = w.sent ++ List.replicate settings.notificationsEnabled.toNat m)
      fun _ _ => True) := by
  unfold notify
  cases settings.notificationsEnabled with
  | true =>
    rw [if_pos rfl]
    refine (Call.runs_after (.notify m) w).post ?_
    rintro (e | r) w' hw'
    · trivial
    · obtain ⟨scan, -, rfl⟩ := hw'
      exact ⟨rfl, rfl⟩
  | false =>
    rw [if_neg Bool.false_ne_true]
    exact ⟨rfl, (List.append_nil _).symm⟩

theorem announces_openAlert (node : NodeRecord) (silentSeconds : Double) (w : World) :
    Announces env settings (openAlert settings now node silentSeconds) w := by
  unfold openAlert
  have hlift : Runs (handle env) (fun _ _ => True) (Prog.lift (intOfFloat silentSeconds)) w
      (Ends (fun _ w' => w' = w) fun _ _ => True) := by
    refine runs_lift ?_
    cases intOfFloat silentSeconds with
    | ok r => rfl
    | error e => trivial
  refine hlift.andThen ?_
  rintro silentFor _ rfl
  refine (Call.runs_after _ _).andThen ?_
  rintro record w₁ ⟨scan, hrecord, rfl⟩
  obtain rfl := Except.ok.inj hrecord
  refine (runs_notify_sent _ _).post ?_
  rintro (e | r) w₂ hw₂
  · trivial
  · obtain ⟨hstore, hsent⟩ := hw₂
    have halerts : w₂.store.alerts = (_ : AlertTable).insert (newAlert node.nodeId stalenessRuleKey
        .staleness .critical (description silentFor) silentSeconds
        settings.heartbeatStaleAfterSeconds now) fun _ => rfl := congrArg Store.alerts hstore
    exact Announced.insert halerts rfl (hsent.trans (congrArg (· ++ _) (List.append_nil _)))

theorem announces_resolve {a : AlertRecord} (ha : a ∈ w.store.alerts.rows)
    (hfiring : a.status = .firing) : Announces env settings (resolve settings now a) w := by
  unfold resolve
  refine (Call.runs_after (.resolveAlert a.id now) w).andThen ?_
  rintro record w₁ ⟨scan, hrecord, rfl⟩
  have hrow : exec scan (.resolveAlert a.id now) w.store = (.ok (resolved now a),
      { w.store with alerts := w.store.alerts.modify a.id (resolved now) (id_resolved · now) }) := by
    simp only [exec, AlertRepository.resolveAlert, AlertRepository.update, Table.get?_of_mem ha]
  rw [hrow] at hrecord
  obtain rfl := Except.ok.inj hrecord
  refine (runs_notify_sent _ _).post ?_
  rintro (e | r) w₂ hw₂
  · trivial
  · obtain ⟨hstore, hsent⟩ := hw₂
    have halerts : w₂.store.alerts =
        w.store.alerts.modify a.id (resolved now) (id_resolved · now) := by
      rw [hstore, World.after, hrow]
    exact Announced.modify ha hfiring halerts rfl
      (hsent.trans (congrArg (· ++ _) (List.append_nil _)))

theorem announces_checkNode (mayOpen : Bool) (counts : StalenessCounts) (node : NodeRecord)
    (w : World) : Announces env settings (checkNode settings mayOpen now counts node) w := by
  unfold checkNode
  have hlift : Announces env settings (Prog.lift (now.since node.lastSeenAt)) w := by
    refine runs_lift ?_
    cases now.since node.lastSeenAt with
    | ok r => exact Announced.refl w
    | error e => trivial
  refine hlift.trans fun silent w => ?_
  refine (Call.runs_after (.findOpenAlert node.nodeId stalenessRuleKey) w).andThen ?_
  rintro found w₁ ⟨scan, hfound, rfl⟩
  have hsame : Announced settings.notificationsEnabled.toNat w
      (w.after scan (.findOpenAlert node.nodeId stalenessRuleKey)) :=
    Announced.of_same rfl (List.append_nil _)
  split_ifs with hsilent hopen
  · refine (announces_openAlert node silent.totalSeconds _).andThen fun _ w₂ hw₂ => ?_
    exact hsame.trans hw₂
  · exact hsame
  · cases found with
    | none => exact hsame
    | some a =>
      have hfind : findOpenAlert scan w.store node.nodeId stalenessRuleKey = some a :=
        Except.ok.inj hfound
      have hrow : a ∈ w.store.alerts.rows := mem_reorder.1 (List.mem_of_find?_eq_some hfind)
      have hfiring : a.status = .firing := (isOpen_eq_true_iff.1 (List.find?_some hfind)).2.2
      have hresolve : Announces env settings (resolve settings now a)
          (w.after scan (.findOpenAlert node.nodeId stalenessRuleKey)) :=
        announces_resolve hrow hfiring
      exact hresolve.andThen fun _ w₂ hw₂ => hsame.trans hw₂

variable (env settings now) in
theorem announces_run (mayOpen : Bool) (w : World) :
    Announces env settings (run settings mayOpen now) w := by
  refine Announces.trans (Announces.of_call (fun _ _ => rfl) rfl w) fun nodes w₁ => ?_
  refine Runs.foldlM (fun counts node w₂ (hw₂ : Announced _ w₁ w₂) => ?_) nodes _ w₁
    (Announced.refl w₁)
  refine (announces_checkNode mayOpen counts node w₂).post ?_
  rintro (e | r) w₃ hw₃
  · trivial
  · exact hw₂.trans hw₃

end StalenessJob

theorem StalenessProcess.announced_next (e : StalenessEvent) (h : s.Completes env settings e) :
    Announced settings.notificationsEnabled.toNat s.world (s.next env svc settings e).world := by
  cases e with
  | seen nodeId seenAt now => exact Announced.of_same seen_alerts seen_sent
  | sweep now utc =>
    obtain ⟨counts, hcounts⟩ := h
    have hend := Runs.run (StalenessJob.announces_run env settings now s.firstRunDone s.world)
    rw [hcounts] at hend
    rw [world_sweep]
    exact hend

variable (env svc settings) in
/-- Staleness alerts track silent nodes, from what earlier processes have left behind. -/
theorem staleness_tracked (h : w.store.LeftBehind) (events : List StalenessEvent) :
    Machine.Meets (StalenessProcess.next env svc settings)
        (StalenessProcess.Graces env svc settings) ⟨w, false⟩ events ∧
      Machine.Meets (StalenessProcess.next env svc settings)
        (StalenessProcess.Tracks env svc settings) ⟨w, false⟩ events ∧
      (Machine.Meets (StalenessProcess.next env svc settings)
          (StalenessProcess.Completes env settings) ⟨w, false⟩ events →
        Announced settings.notificationsEnabled.toNat w
          (Machine.run (StalenessProcess.next env svc settings) ⟨w, false⟩ events).world) := by
  refine ⟨?_, ?_, fun hcompletes => ?_⟩
  · exact Machine.meets_of_invariant (fun _ => True) (fun _ _ _ => trivial)
      (fun _ e _ => StalenessProcess.graces e) trivial
  · exact Machine.meets_of_invariant (fun s => Tracked s.world.store) (fun _ e hs => hs.next e)
      (fun _ e hs => hs.tracks e) h.tracked
  · exact hcompletes.run_of_step
      (R := fun s s' => Announced settings.notificationsEnabled.toNat s.world s'.world)
      (fun s => .refl s.world) (fun _ _ _ => Announced.trans)
      (fun _ e he => StalenessProcess.announced_next e he)

end Announcements

theorem Store.leftBehind_empty : Store.LeftBehind .empty where
  nodup := List.nodup_nil
  instant _ hr := absurd hr List.not_mem_nil
  oneAlarm _ ha := absurd ha List.not_mem_nil

namespace Scenario

/-- A node that is heard of at noon, sweeps five and ten minutes later, and the node again. -/
def silentSpell : List StalenessEvent :=
  [.seen "node-1" (clock 43200) (clock 43200).instant, .sweep (clock 43500) rfl,
    .sweep (clock 43800) rfl, .seen "node-1" (clock 43830) (clock 43830).instant,
    .sweep (clock 43860) rfl]

def notifyingSettings : CollectorSettings :=
  { CollectorSettings.default with notificationsEnabled := true }

theorem staleness_tracked_fresh :
    Machine.Meets (StalenessProcess.next .calm ⟨90⟩ notifyingSettings)
        (StalenessProcess.Graces .calm ⟨90⟩ notifyingSettings) ⟨.fresh, false⟩ silentSpell ∧
      Machine.Meets (StalenessProcess.next .calm ⟨90⟩ notifyingSettings)
        (StalenessProcess.Tracks .calm ⟨90⟩ notifyingSettings) ⟨.fresh, false⟩ silentSpell ∧
      (Machine.Meets (StalenessProcess.next .calm ⟨90⟩ notifyingSettings)
          (StalenessProcess.Completes .calm notifyingSettings) ⟨.fresh, false⟩ silentSpell →
        Announced notifyingSettings.notificationsEnabled.toNat .fresh
          (Machine.run (StalenessProcess.next .calm ⟨90⟩ notifyingSettings) ⟨.fresh, false⟩
            silentSpell).world) :=
  staleness_tracked .calm ⟨90⟩ notifyingSettings Store.leftBehind_empty silentSpell

/-- Both the opening and the resolution are notified. -/
example : (Machine.run (StalenessProcess.next .calm ⟨90⟩ notifyingSettings) ⟨.fresh, false⟩
    silentSpell).world.sent.length = 2 := by decide +kernel

end Scenario

end ClusterPulse
