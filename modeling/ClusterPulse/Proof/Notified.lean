import ClusterPulse.Lib.TableHistory
import ClusterPulse.Proof.Announcements

/-!
# Who is told what, and how often

About each alert at most three messages are sent: that it opened, that it escalated and that it is
resolved, each at most once, in this order, after the row says so, and never taken back by what happens
to the row later (`notified_once`); whichever calls fail, the notifier's among them.  Where nothing
fails and there is a notifier, what has been sent about an alert is just what its row says
(`notified_completely`).
-/

namespace ClusterPulse

open Prog AlertRepository

/-! ## Messages -/

namespace Notification

/-- The alert as it was when the message was rendered. -/
def alert : Notification → AlertRecord
  | opened a => a
  | escalated a => a
  | resolved a => a

/-- The messages about an alert come in this order. -/
def rank : Notification → ℕ
  | opened _ => 0
  | escalated _ => 1
  | resolved _ => 2

/-- The row bears the message out. -/
def TrueOf : Notification → AlertRecord → Prop
  | opened b, a => a.identity = b.identity
  | escalated b, a => a.identity = b.identity ∧ a.escalatedAt.isSome ∧ a.escalatedAt = b.escalatedAt
  | resolved b, a => a.status = .resolved ∧ a = b

theorem TrueOf.status_eq {message : Notification} {a : AlertRecord} (h : message.TrueOf a)
    (hrank : 2 ≤ message.rank) : a.status = .resolved := by
  cases message with
  | resolved b => exact h.1
  | opened | escalated => simp [rank] at hrank

theorem TrueOf.escalatedAt_isSome {message : Notification} {a : AlertRecord}
    (h : message.TrueOf a) (hfiring : a.status = .firing) (hrank : 1 ≤ message.rank) :
    a.escalatedAt.isSome := by
  cases message with
  | opened => simp [rank] at hrank
  | escalated b => exact h.2.1
  | resolved b => cases h.1.symm.trans hfiring

/-- A write to a firing alert that does not escalate it a second time. -/
theorem TrueOf.write {message : Notification} {a a' : AlertRecord} (h : message.TrueOf a)
    (hfiring : a.status = .firing) (hidentity : a'.identity = a.identity)
    (hescalated : a.escalatedAt.isSome → a'.escalatedAt = a.escalatedAt) : message.TrueOf a' := by
  cases message with
  | opened b => exact hidentity.trans h
  | escalated b =>
    obtain ⟨hsame, hsome, heq⟩ := h
    have hkept := hescalated hsome
    exact ⟨hidentity.trans hsame, hkept ▸ hsome, hkept.trans heq⟩
  | resolved b => cases h.1.symm.trans hfiring

end Notification

/-- The ranks of the messages about the alert `i`, as they were sent. -/
def World.told (w : World) (i : ℕ) : List ℕ :=
  (w.sent.filter fun message => message.alert.id = i).map Notification.rank

/-- The messages that the row calls for. -/
def AlertRecord.news (a : AlertRecord) : List ℕ :=
  0 :: ((if a.escalatedAt.isSome then [1] else []) ++ if a.status = .resolved then [2] else [])

theorem mem_told {w : World} {i k : ℕ} :
    k ∈ w.told i ↔ ∃ message ∈ w.sent, message.alert.id = i ∧ message.rank = k := by
  simp [World.told, and_assoc]

/-! ## What has been told -/

/-- About every alert the messages are in order, and borne out by its row. -/
structure Told (w : World) : Prop where
  ordered : ∀ i, (w.told i).Pairwise (· < ·)
  /-- The alerts that messages are about have been there. -/
  known : ∀ message ∈ w.sent, message.alert.id < w.store.alerts.next
  borneOut : ∀ message ∈ w.sent, ∀ a, w.store.alerts.get? message.alert.id = some a →
    message.TrueOf a

/-- The message is about the row as it is, and comes after all that has been told of it. -/
structure Due (w : World) (message : Notification) : Prop where
  row : w.store.alerts.get? message.alert.id = some message.alert
  borneOut : message.TrueOf message.alert
  later : ∀ k ∈ w.told message.alert.id, k < message.rank

section Told

variable {w w' : World} {i : ℕ} {a : AlertRecord}

theorem told_congr (hsent : w'.sent = w.sent) (i : ℕ) : w'.told i = w.told i := by
  unfold World.told
  rw [hsent]

theorem Told.of_same (hw : Told w) (halerts : w'.store.alerts = w.store.alerts)
    (hsent : w'.sent = w.sent) : Told w' where
  ordered i := by
    rw [told_congr hsent]
    exact hw.ordered i
  known := by
    rw [hsent, halerts]
    exact hw.known
  borneOut := by
    rw [hsent, halerts]
    exact hw.borneOut

/-- A new alert, of which nothing has been told. -/
theorem Told.insert (hw : Told w) {mk : ℕ → AlertRecord} {hmk : ∀ n, (mk n).id = n}
    (halerts : w'.store.alerts = w.store.alerts.insert mk hmk) (hsent : w'.sent = w.sent) :
    Told w' where
  ordered i := by
    rw [told_congr hsent]
    exact hw.ordered i
  known message hmessage := by
    rw [halerts, Table.next_insert]
    exact Nat.lt_succ_of_lt (hw.known message (hsent ▸ hmessage))
  borneOut message hmessage a ha := by
    rw [hsent] at hmessage
    rw [halerts, Table.get?_insert, if_neg (hw.known message hmessage).ne] at ha
    exact hw.borneOut message hmessage a ha

theorem Told.told_next (hw : Told w) : w.told w.store.alerts.next = [] := by
  apply List.eq_nil_iff_forall_not_mem.2
  intro k hk
  obtain ⟨message, hmessage, hid, -⟩ := mem_told.1 hk
  exact absurd hid (hw.known message hmessage).ne

/-- A write to a firing alert. -/
theorem Told.modify (hw : Told w) {f : AlertRecord → AlertRecord} {hf : ∀ a, (f a).id = a.id}
    (ha : w.store.alerts.get? i = some a) (hfiring : a.status = .firing)
    (hidentity : (f a).identity = a.identity)
    (hescalated : a.escalatedAt.isSome → (f a).escalatedAt = a.escalatedAt)
    (halerts : w'.store.alerts = w.store.alerts.modify i f hf) (hsent : w'.sent = w.sent) :
    Told w' where
  ordered i := by
    rw [told_congr hsent]
    exact hw.ordered i
  known message hmessage := by
    rw [halerts, Table.next_modify]
    exact hw.known message (hsent ▸ hmessage)
  borneOut message hmessage a' ha' := by
    rw [hsent] at hmessage
    rw [halerts, Table.get?_modify] at ha'
    split_ifs at ha' with hi
    · rw [ha, Option.map_some] at ha'
      obtain rfl := Option.some.inj ha'
      exact (hw.borneOut message hmessage a (hi ▸ ha)).write hfiring hidentity hescalated
    · exact hw.borneOut message hmessage a' ha'

theorem Told.delete (hw : Told w) {p : AlertRecord → Bool}
    (halerts : w'.store.alerts = w.store.alerts.delete p) (hsent : w'.sent = w.sent) : Told w' where
  ordered i := by
    rw [told_congr hsent]
    exact hw.ordered i
  known message hmessage := by
    rw [halerts]
    exact hw.known message (hsent ▸ hmessage)
  borneOut message hmessage a ha := by
    rw [hsent] at hmessage
    rw [halerts, Table.get?_delete, Option.filter_eq_some_iff] at ha
    exact hw.borneOut message hmessage a ha.1

theorem told_append {message : Notification} (hsent : w'.sent = w.sent ++ [message]) (i : ℕ) :
    w'.told i = w.told i ++ if message.alert.id = i then [message.rank] else [] := by
  unfold World.told
  rw [hsent, List.filter_append, List.map_append]
  by_cases hi : message.alert.id = i
  · simp [hi]
  · simp [hi]

/-- The message that is due is sent. -/
theorem Told.notify (hw : Told w) {message : Notification} (hdue : Due w message)
    (halerts : w'.store.alerts = w.store.alerts) (hsent : w'.sent = w.sent ++ [message]) :
    Told w' where
  ordered i := by
    rw [told_append hsent]
    split_ifs with hi
    · subst hi
      refine List.pairwise_append.2 ⟨hw.ordered _, List.pairwise_singleton _ _, ?_⟩
      intro k hk r hr
      rw [List.mem_singleton.1 hr]
      exact hdue.later k hk
    · rw [List.append_nil]
      exact hw.ordered i
  known := by
    rw [hsent, halerts]
    intro other hother
    rcases List.mem_append.1 hother with hother | hother
    · exact hw.known other hother
    · rw [List.mem_singleton.1 hother]
      exact Table.lt_next_of_get? hdue.row
  borneOut := by
    rw [hsent, halerts]
    intro other hother a ha
    rcases List.mem_append.1 hother with hother | hother
    · exact hw.borneOut other hother a ha
    · obtain rfl := List.mem_singleton.1 hother
      obtain rfl := Option.some.inj (hdue.row.symm.trans ha)
      exact hdue.borneOut

/-- It has not been told that a firing alert is resolved. -/
theorem Told.lt_two (hw : Told w) (ha : w.store.alerts.get? i = some a)
    (hfiring : a.status = .firing) : ∀ k ∈ w.told i, k < 2 := by
  intro k hk
  obtain ⟨message, hmessage, rfl, rfl⟩ := mem_told.1 hk
  by_contra hrank
  have hresolved := (hw.borneOut message hmessage a ha).status_eq (not_lt.1 hrank)
  cases hfiring.symm.trans hresolved

/-- Nor that it is escalated, if it is not. -/
theorem Told.lt_one (hw : Told w) (ha : w.store.alerts.get? i = some a)
    (hfiring : a.status = .firing) (hnew : a.escalatedAt = none) : ∀ k ∈ w.told i, k < 1 := by
  intro k hk
  obtain ⟨message, hmessage, rfl, rfl⟩ := mem_told.1 hk
  by_contra hrank
  have hsome := (hw.borneOut message hmessage a ha).escalatedAt_isSome hfiring (not_lt.1 hrank)
  rw [hnew] at hsome
  cases hsome

end Told

/-! ## One call -/

/-- What is on a program's desk is what is in the table, and what has been told is in order. -/
structure OnDesk (w : World) (m : Desk) : Prop where
  told : Told w
  found : ∀ i a, m.found = some (i, a) → w.store.alerts.get? i = some a ∧ a.status = .firing
  due : ∀ message, m.due = some message → Due w message

section Step

variable {env : Environment} {w w' : World} {m : Desk} {c : Call} {tells : Bool} {scan : Scan}

theorem onDesk_clear (hw : Told w) : OnDesk w .clear where
  told := hw
  found i a h := by cases h
  due message h := by cases h

theorem onDesk_found (hw : Told w) {i : ℕ} {a : AlertRecord}
    (ha : w.store.alerts.get? i = some a) (hfiring : a.status = .firing) {due : Option Notification}
    (hdue : ∀ message, due = some message → Due w message) : OnDesk w ⟨some (i, a), due⟩ where
  told := hw
  found j b h := by
    obtain ⟨rfl, rfl⟩ := Prod.mk.inj (Option.some.inj h)
    exact ⟨ha, hfiring⟩
  due := hdue

theorem onDesk_due (hw : Told w) {message : Notification} (hdue : Due w message) :
    OnDesk w ⟨none, some message⟩ where
  told := hw
  found i a h := by cases h
  due other h := Option.some.inj h ▸ hdue

theorem Desk.next_error (m : Desk) (c : Call) (e : PyError) : m.next c (.error e) = ⟨m.found, none⟩ := by
  cases c <;> rfl

/-- Nothing that the desk is about has changed. -/
theorem OnDesk.same (hm : OnDesk w m) (halerts : w'.store.alerts = w.store.alerts)
    (hsent : w'.sent = w.sent) : OnDesk w' ⟨m.found, none⟩ where
  told := hm.told.of_same halerts hsent
  found i a h := by
    rw [halerts]
    exact hm.found i a h
  due message h := by cases h

/-- A write to the alert that has been found. -/
theorem OnDesk.told_modify (hm : OnDesk w m) {i : ℕ} {a : AlertRecord}
    (hfound : m.found = some (i, a)) {f : AlertRecord → AlertRecord} {hf : ∀ a, (f a).id = a.id}
    (hidentity : (f a).identity = a.identity)
    (hescalated : a.escalatedAt.isSome → (f a).escalatedAt = a.escalatedAt)
    (halerts : w'.store.alerts = w.store.alerts.modify i f hf) (hsent : w'.sent = w.sent) :
    Told w' ∧ w'.store.alerts.get? (f a).id = some (f a) := by
  obtain ⟨ha, hfiring⟩ := hm.found i a hfound
  refine ⟨hm.told.modify ha hfiring hidentity hescalated halerts hsent, ?_⟩
  rw [hf, Table.key_of_get? ha, halerts, Table.get?_modify_self, ha, Option.map_some]

theorem sent_after (hc : c.message = none) : (w.after scan c).sent = w.sent := by
  rw [World.after_sent, hc]
  exact List.append_nil _

/-- The calls that say nothing and change no alert, when they take effect. -/
theorem Told.after (hw : Told w) (hc : c.message = none) (halerts : c.alerts scan w.store =
    w.store.alerts) : Told (w.after scan c) :=
  hw.of_same ((World.after_alerts ..).trans halerts) (sent_after hc)

theorem OnDesk.findOpenAlert (hm : OnDesk w m) (nodeId ruleKey : String) :
    OnDesk (w.after scan (.findOpenAlert nodeId ruleKey))
      (m.next (.findOpenAlert nodeId ruleKey) (.ok (findOpenAlert scan w.store nodeId ruleKey))) := by
  have htold : Told (w.after scan (.findOpenAlert nodeId ruleKey)) := hm.told.after rfl rfl
  cases hfind : AlertRepository.findOpenAlert scan w.store nodeId ruleKey with
  | none => exact onDesk_clear htold
  | some a =>
    have hlive : Live w a := live_of_findOpenAlert hfind
    exact onDesk_found htold hlive.get? hlive.firing fun _ h => by cases h

theorem OnDesk.getAlert (hm : OnDesk w m) (alertId : ℕ) :
    OnDesk (w.after scan (.getAlert alertId))
      (m.next (.getAlert alertId) (.ok (w.store.alerts.get? alertId))) := by
  have htold : Told (w.after scan (.getAlert alertId)) := hm.told.after rfl rfl
  cases hget : w.store.alerts.get? alertId with
  | none => exact onDesk_clear htold
  | some a =>
    cases hstatus : a.status with
    | firing =>
      have hnext : m.next (.getAlert alertId) (.ok (some a)) = ⟨some (alertId, a), none⟩ := by
        simp [Desk.next, hstatus]
      rw [hnext]
      exact onDesk_found htold hget hstatus fun _ h => by cases h
    | resolved =>
      have hnext : m.next (.getAlert alertId) (.ok (some a)) = .clear := by
        simp [Desk.next, hstatus, Desk.clear]
      rw [hnext]
      exact onDesk_clear htold

theorem OnDesk.createAlert (hm : OnDesk w m) (nodeId ruleKey : String) (ruleKind : RuleKind)
    (severity : Severity) (description : String) (triggeringValue bound : Double)
    (firedAt : Datetime) :
    let c : Call := .createAlert nodeId ruleKey ruleKind severity description triggeringValue bound
      firedAt
    OnDesk (w.after scan c) (m.next c (exec scan c w.store).1) := by
  intro c
  have halerts : (w.after scan c).store.alerts = w.store.alerts.insert (newAlert nodeId ruleKey
      ruleKind severity description triggeringValue bound firedAt) fun _ => id_newAlert .. :=
    World.after_alerts ..
  have hsent : (w.after scan c).sent = w.sent := sent_after rfl
  refine onDesk_due (hm.told.insert halerts hsent) ⟨?_, rfl, fun k hk => ?_⟩
  · rw [halerts]
    exact Table.get?_insert.trans (if_pos rfl)
  · have hnone : k ∈ (w.after scan c).told w.store.alerts.next := hk
    rw [told_congr hsent, hm.told.told_next] at hnone
    cases hnone

/-- A call that writes to the alert that has been found. -/
theorem OnDesk.write (hm : OnDesk w m) (c : Call) {i : ℕ} {a : AlertRecord}
    (hfound : m.found = some (i, a)) {f : AlertRecord → AlertRecord} (hf : ∀ a, (f a).id = a.id)
    (hidentity : (f a).identity = a.identity)
    (hescalated : a.escalatedAt.isSome → (f a).escalatedAt = a.escalatedAt)
    (halerts : c.alerts scan w.store = w.store.alerts.modify i f hf) (hc : c.message = none) :
    Told (w.after scan c) ∧ (w.after scan c).store.alerts.get? (f a).id = some (f a) :=
  hm.told_modify hfound hidentity hescalated ((World.after_alerts ..).trans halerts)
    (sent_after hc)

theorem OnDesk.updateLastFired (hm : OnDesk w m) {alertId : ℕ} {triggeringValue : Double}
    {firedAt : Datetime} (hc : m.Allows (.updateLastFired alertId triggeringValue firedAt)) :
    let c : Call := .updateLastFired alertId triggeringValue firedAt
    OnDesk (w.after scan c) (m.next c (exec scan c w.store).1) := by
  intro c
  obtain ⟨a, hfound⟩ := hc
  obtain ⟨ha, hfiring⟩ := hm.found alertId a hfound
  obtain ⟨htold, hget⟩ := hm.write c hfound (id_advanced · triggeringValue firedAt) rfl
    (fun _ => rfl) (rfl : c.alerts scan w.store = _) rfl
  have hanswer : (exec scan c w.store).1 = .ok (advanced triggeringValue firedAt a) :=
    update_of_get? ha
  rw [hanswer]
  exact onDesk_found htold hget hfiring fun _ h => by cases h

theorem OnDesk.escalateAlert (hm : OnDesk w m) {alertId : ℕ} {escalatedAt : Datetime}
    (hc : m.Allows (.escalateAlert alertId escalatedAt)) :
    let c : Call := .escalateAlert alertId escalatedAt
    OnDesk (w.after scan c) (m.next c (exec scan c w.store).1) := by
  intro c
  obtain ⟨a, hfound, hnew⟩ := hc
  obtain ⟨ha, hfiring⟩ := hm.found alertId a hfound
  have hescalated : a.escalatedAt.isSome → (escalated escalatedAt a).escalatedAt = a.escalatedAt := by
    rw [hnew]
    intro h
    cases h
  obtain ⟨htold, hget⟩ := hm.write c hfound (id_escalated · escalatedAt) rfl hescalated
    (rfl : c.alerts scan w.store = _) rfl
  have hanswer : (exec scan c w.store).1 = .ok (escalated escalatedAt a) := update_of_get? ha
  rw [hanswer]
  refine onDesk_found htold hget hfiring fun message h => ?_
  obtain rfl := Option.some.inj h
  refine ⟨hget, ⟨rfl, rfl, rfl⟩, fun k hk => ?_⟩
  rw [told_congr (sent_after rfl)] at hk
  obtain rfl := Table.key_of_get? ha
  exact hm.told.lt_one ha hfiring hnew k hk

theorem OnDesk.resolveAlert (hm : OnDesk w m) {alertId : ℕ} {resolvedAt : Datetime}
    (hc : m.Allows (.resolveAlert alertId resolvedAt)) :
    let c : Call := .resolveAlert alertId resolvedAt
    OnDesk (w.after scan c) (m.next c (exec scan c w.store).1) := by
  intro c
  obtain ⟨a, hfound⟩ := hc
  obtain ⟨ha, hfiring⟩ := hm.found alertId a hfound
  obtain ⟨htold, hget⟩ := hm.write c hfound (id_resolved · resolvedAt) rfl (fun _ => rfl)
    (rfl : c.alerts scan w.store = _) rfl
  have hanswer : (exec scan c w.store).1 = .ok (resolved resolvedAt a) := update_of_get? ha
  rw [hanswer]
  refine onDesk_due htold ⟨hget, ⟨rfl, rfl⟩, fun k hk => ?_⟩
  rw [told_congr (sent_after rfl)] at hk
  obtain rfl := Table.key_of_get? ha
  exact hm.told.lt_two ha hfiring k hk

theorem OnDesk.notify (hm : OnDesk w m) {message : Notification}
    (hc : m.Allows (.notify message)) :
    OnDesk (w.after scan (.notify message)) ⟨m.found, none⟩ where
  told := hm.told.notify (hm.due message hc) (World.after_alerts ..) rfl
  found i a h := by
    rw [World.after_alerts]
    exact hm.found i a h
  due other h := by cases h

/-- A call that takes effect. -/
theorem OnDesk.after (hm : OnDesk w m) (hc : m.Allows c) :
    OnDesk (w.after scan c) (m.next c (exec scan c w.store).1) := by
  cases c with
  | findOpenAlert nodeId ruleKey => exact hm.findOpenAlert nodeId ruleKey
  | getAlert alertId => exact hm.getAlert alertId
  | createAlert => exact hm.createAlert ..
  | updateLastFired => exact hm.updateLastFired hc
  | escalateAlert => exact hm.escalateAlert hc
  | resolveAlert => exact hm.resolveAlert hc
  | acknowledgeAlert alertId acknowledgedBy acknowledgedAt =>
    obtain ⟨a, hfound⟩ := hc
    obtain ⟨ha, -⟩ := hm.found alertId a hfound
    have htold : Told (w.after scan (.acknowledgeAlert alertId acknowledgedBy acknowledgedAt)) :=
      (hm.write _ hfound (id_acknowledged · acknowledgedBy acknowledgedAt) rfl (fun _ => rfl) rfl
        rfl).1
    have hanswer : (exec scan (.acknowledgeAlert alertId acknowledgedBy acknowledgedAt)
      w.store).1 = .ok (acknowledged acknowledgedBy acknowledgedAt a) := update_of_get? ha
    rw [hanswer]
    exact onDesk_clear htold
  | markRemediated alertId remediatedAt =>
    obtain ⟨a, hfound⟩ := hc
    obtain ⟨ha, -⟩ := hm.found alertId a hfound
    have htold : Told (w.after scan (.markRemediated alertId remediatedAt)) :=
      (hm.write _ hfound (id_remediated · remediatedAt) rfl (fun _ => rfl) rfl rfl).1
    have hanswer : (exec scan (.markRemediated alertId remediatedAt) w.store).1 =
      .ok (remediated remediatedAt a) := update_of_get? ha
    rw [hanswer]
    exact onDesk_clear htold
  | pruneResolvedBefore cutoff batchSize =>
    exact onDesk_clear (hm.told.delete (World.after_alerts ..) (sent_after rfl))
  | notify message => exact hm.notify hc
  | countRecentActions | findLastAction | createAction =>
    exact hm.same (World.after_alerts ..) (sent_after rfl)
  | findPreviousSample nodeId metricType before windowSeconds =>
    have hsame : OnDesk (w.after scan (.findPreviousSample nodeId metricType before windowSeconds))
      ⟨m.found, none⟩ := hm.same (World.after_alerts ..) (sent_after rfl)
    rcases (exec scan (.findPreviousSample nodeId metricType before windowSeconds) w.store).1 with
      e | found
    · exact hsame
    · exact onDesk_clear hsame.told
  | markResult actionId status reason completedAt =>
    have hsame : OnDesk (w.after scan (.markResult actionId status reason completedAt))
      ⟨m.found, none⟩ := hm.same (World.after_alerts ..) (sent_after rfl)
    rcases (exec scan (.markResult actionId status reason completedAt) w.store).1 with e | row
    · exact hsame
    · exact onDesk_clear hsame.told
  | upsertSeen | listAllNodes | bulkInsert | pruneSamplesBefore | getAction | listDispatchedBefore
  | pruneTerminalBefore => exact onDesk_clear (hm.told.after rfl rfl)

theorem OnDesk.step (hm : OnDesk w m) (hc : (announcing tells).allowed m c) :
    OnDesk (handle env c w).2 ((announcing tells).next m c (handle env c w).1) := by
  rcases handle_cases env c w with ⟨e, -, h⟩ | ⟨-, h⟩ <;> rw [h]
  · show OnDesk _ (m.next c (.error e))
    rw [Desk.next_error]
    exact hm.same rfl rfl
  · exact hm.after hc.1

end Step

/-! ## Runs -/

theorem told_fresh : Told .fresh where
  ordered i := List.Pairwise.nil
  known message h := by cases h
  borneOut message h := by cases h

theorem Told.program {w : World} (hw : Told w) (env : Environment) (op : Operation) :
    Told (op.program.run (handle env) w).2 ∧
      ∀ x ∈ op.program.trace (handle env) w, ∀ message, x.1 = .notify message → Due x.2 message := by
  have hfollows : Follows (announcing false) .clear op.program fun _ m' => m'.Done false :=
    op.follows_announcing nofun (Desk.done_clear false)
  have hstep : ∀ (w : World) (m : Desk) (c : Call), OnDesk w m → (announcing false).allowed m c →
      OnDesk (handle env c w).2 ((announcing false).next m c (handle env c w).1) :=
    fun _ _ _ hm hc => hm.step hc
  constructor
  · obtain ⟨m', hm', -⟩ := hfollows.run hstep (onDesk_clear hw)
    exact hm'.told
  · intro x hx message hmessage
    obtain ⟨m, hm, hallowed⟩ := hfollows.trace hstep (onDesk_clear hw) x hx
    rw [hmessage] at hallowed
    exact hm.due message hallowed.1

/-- Every message of a serial run was due when it was handed to the notifier. -/
theorem Told.runAll {w : World} (hw : Told w) (env : Environment) (ops : List Operation) :
    Told (Operation.runAll env ops w) ∧
      ∀ x ∈ (serial (ops.map Operation.program)).trace (handle env) w,
        ∀ message, x.1 = .notify message → Due x.2 message := by
  induction ops generalizing w with
  | nil => exact ⟨hw, fun x hx => absurd hx List.not_mem_nil⟩
  | cons op ops ih =>
    obtain ⟨hop, hdue⟩ := hw.program env op
    obtain ⟨hops, hdue'⟩ := ih hop
    rw [Operation.runAll_cons, List.map_cons, trace_serial_cons]
    exact ⟨hops, List.forall_mem_append.2 ⟨hdue, hdue'⟩⟩

/-- What has been sent was handed to the notifier. -/
theorem exists_notify_of_mem_sent {env : Environment} {α : Type} {p : Repo α} {w : World}
    {message : Notification} (h : message ∈ (p.run (handle env) w).2.sent) :
    message ∈ w.sent ∨ ∃ x ∈ p.trace (handle env) w, x.1 = .notify message := by
  induction p generalizing w with
  | pure a => exact .inl h
  | throw e => exact .inl h
  | call c k ih =>
    rcases ih _ h with hsent | ⟨x, hx, hmessage⟩
    · rcases handle_cases env c w with ⟨e, -, heq⟩ | ⟨-, heq⟩
      · rw [heq] at hsent
        exact .inl hsent
      · rw [heq, World.after_sent, List.mem_append, Option.mem_toList] at hsent
        refine hsent.imp_right fun hsome => ⟨(c, w), List.mem_cons_self, ?_⟩
        cases c with
        | notify other => exact congrArg Call.notify (Option.some.inj hsome)
        | _ => cases hsome
    · exact .inr ⟨x, List.mem_cons_of_mem _ hx, hmessage⟩

/-- In every serial run, whichever calls fail: the messages about an alert are sent at most once each
and in order, its row bears them out for as long as it is there, and it was there, as the message says
it, when the message was sent. -/
theorem notified_once (env : Environment) (ops : List Operation) :
    Told (Operation.runAll env ops .fresh) ∧
      ∀ message ∈ (Operation.runAll env ops .fresh).sent,
        ∃ x ∈ (serial (ops.map Operation.program)).trace (handle env) .fresh,
          x.1 = .notify message ∧ x.2.store.alerts.get? message.alert.id = some message.alert := by
  obtain ⟨htold, hdue⟩ := told_fresh.runAll env ops
  refine ⟨htold, fun message hmessage => ?_⟩
  obtain hnone | ⟨x, hx, hnotify⟩ := exists_notify_of_mem_sent hmessage
  · cases hnone
  · exact ⟨x, hx, hnotify, (hdue x hx message hnotify).row⟩

/-! ## Nothing is left untold -/

/-- What the message that is due says about the alert `i`. -/
def Desk.untold (m : Desk) (i : ℕ) : List ℕ :=
  (m.due.toList.filter fun message => message.alert.id = i).map Notification.rank

/-- The messages sent about each alert, and the one that is due, are those that its row calls for. -/
def ToldInFull (w : World) (m : Desk) : Prop :=
  ∀ i a, w.store.alerts.get? i = some a → w.told i ++ m.untold i = a.news

section ToldInFull

variable {env : Environment} {w w' : World} {m m' : Desk} {c : Call} {scan : Scan}

theorem Desk.untold_of_none (hdue : m.due = none) (i : ℕ) : m.untold i = [] := by
  simp [Desk.untold, hdue]

theorem Desk.untold_of_due {message : Notification} (hdue : m.due = some message) (i : ℕ) :
    m.untold i = if message.alert.id = i then [message.rank] else [] := by
  by_cases hi : message.alert.id = i
  · simp [Desk.untold, hdue, hi]
  · simp [Desk.untold, hdue, hi]

theorem ToldInFull.told_eq (h : ToldInFull w m) (hdue : m.due = none) {i : ℕ} {a : AlertRecord}
    (ha : w.store.alerts.get? i = some a) : w.told i = a.news := by
  have hall := h i a ha
  rwa [Desk.untold_of_none hdue, List.append_nil] at hall

/-- The rows that are left are as they were. -/
theorem ToldInFull.same (h : ToldInFull w m) (hdue : m.due = none) (hdue' : m'.due = none)
    (halerts : ∀ i a, w'.store.alerts.get? i = some a → w.store.alerts.get? i = some a)
    (hsent : w'.sent = w.sent) : ToldInFull w' m' := by
  intro i a ha
  rw [Desk.untold_of_none hdue', List.append_nil, told_congr hsent]
  exact h.told_eq hdue (halerts i a ha)

/-- The rows that were there stay, but for one, of which the message that is due speaks. -/
theorem ToldInFull.replace (h : ToldInFull w m) (m' : Desk) (hdue : m.due = none)
    {message : Notification}
    (hdue' : m'.due = some message) (hsent : w'.sent = w.sent)
    (hothers : ∀ i a, i ≠ message.alert.id → w'.store.alerts.get? i = some a →
      w.store.alerts.get? i = some a)
    (hrow : w'.store.alerts.get? message.alert.id = some message.alert)
    (hnews : w.told message.alert.id ++ [message.rank] = message.alert.news) :
    ToldInFull w' m' := by
  intro i a ha
  rw [Desk.untold_of_due hdue', told_congr hsent]
  split_ifs with hi
  · subst hi
    obtain rfl := Option.some.inj (hrow.symm.trans ha)
    exact hnews
  · rw [List.append_nil]
    exact h.told_eq hdue (hothers i a (Ne.symm hi) ha)

/-- A write that there is no message about. -/
theorem ToldInFull.modify (h : ToldInFull w m) (hdue : m.due = none) (hdue' : m'.due = none) {i : ℕ}
    {f : AlertRecord → AlertRecord} (hf : ∀ a, (f a).id = a.id)
    (halerts : w'.store.alerts = w.store.alerts.modify i f hf) (hsent : w'.sent = w.sent)
    (hnews : ∀ a, (f a).news = a.news) : ToldInFull w' m' := by
  intro j a' ha'
  rw [Desk.untold_of_none hdue', List.append_nil, told_congr hsent]
  rw [halerts, Table.get?_modify] at ha'
  split_ifs at ha' with hj
  · obtain ⟨a, ha, rfl⟩ := Option.map_eq_some_iff.1 ha'
    rw [hnews]
    subst hj
    exact h.told_eq hdue ha
  · exact h.told_eq hdue ha'

/-- The message that is due is sent. -/
theorem ToldInFull.notify (h : ToldInFull w m) {message : Notification} (hdue : m.due = some message)
    (hdue' : m'.due = none) (halerts : w'.store.alerts = w.store.alerts)
    (hsent : w'.sent = w.sent ++ [message]) : ToldInFull w' m' := by
  intro i a ha
  rw [halerts] at ha
  rw [Desk.untold_of_none hdue', List.append_nil, told_append hsent, ← Desk.untold_of_due hdue]
  exact h i a ha

theorem news_of_firing {a : AlertRecord} (hfiring : a.status = .firing)
    (hnew : a.escalatedAt = none) : a.news = [0] := by
  simp [AlertRecord.news, hfiring, hnew]

theorem ToldInFull.createAlert (h : ToldInFull w m) (hm : OnDesk w m) (hdue : m.due = none)
    (nodeId ruleKey : String) (ruleKind : RuleKind) (severity : Severity) (description : String)
    (triggeringValue bound : Double) (firedAt : Datetime) :
    let c : Call := .createAlert nodeId ruleKey ruleKind severity description triggeringValue bound
      firedAt
    ToldInFull (w.after scan c) (m.next c (exec scan c w.store).1) := by
  intro c
  have halerts : (w.after scan c).store.alerts = w.store.alerts.insert (newAlert nodeId ruleKey
      ruleKind severity description triggeringValue bound firedAt) fun _ => id_newAlert .. :=
    World.after_alerts ..
  refine h.replace (m.next c (exec scan c w.store).1) hdue rfl (sent_after rfl)
    (fun i a hi ha => ?_) ?_ ?_
  · have hother : i ≠ w.store.alerts.next := hi
    rwa [halerts, Table.get?_insert, if_neg hother] at ha
  · rw [halerts]
    exact Table.get?_insert.trans (if_pos rfl)
  · have htold : w.told w.store.alerts.next = [] := hm.told.told_next
    exact congrArg (· ++ [0]) htold

theorem ToldInFull.escalateAlert (h : ToldInFull w m) (hm : OnDesk w m) (hdue : m.due = none)
    {alertId : ℕ} {escalatedAt : Datetime} (hc : m.Allows (.escalateAlert alertId escalatedAt)) :
    let c : Call := .escalateAlert alertId escalatedAt
    ToldInFull (w.after scan c) (m.next c (exec scan c w.store).1) := by
  intro c
  obtain ⟨a, hfound, hnew⟩ := hc
  obtain ⟨ha, hfiring⟩ := hm.found alertId a hfound
  obtain rfl := Table.key_of_get? ha
  have hanswer : (exec scan c w.store).1 = .ok (escalated escalatedAt a) := update_of_get? ha
  have halerts : (w.after scan c).store.alerts = w.store.alerts.modify a.id (escalated escalatedAt)
      (id_escalated · escalatedAt) := World.after_alerts ..
  rw [hanswer]
  refine h.replace (m.next c (.ok (escalated escalatedAt a))) hdue rfl (sent_after rfl)
    (fun i b hi hb => ?_) ?_ ?_
  · have hother : i ≠ a.id := hi
    rwa [halerts, Table.get?_modify_of_ne hother] at hb
  · rw [halerts]
    exact Table.get?_modify_self.trans (congrArg (Option.map _) ha)
  · have htold : w.told a.id = [0] := (h.told_eq hdue ha).trans (news_of_firing hfiring hnew)
    have hnews : (escalated escalatedAt a).news = [0, 1] := by
      simp [AlertRecord.news, escalated, hfiring]
    exact (congrArg (· ++ [1]) htold).trans hnews.symm

theorem ToldInFull.resolveAlert (h : ToldInFull w m) (hm : OnDesk w m) (hdue : m.due = none)
    {alertId : ℕ} {resolvedAt : Datetime} (hc : m.Allows (.resolveAlert alertId resolvedAt)) :
    let c : Call := .resolveAlert alertId resolvedAt
    ToldInFull (w.after scan c) (m.next c (exec scan c w.store).1) := by
  intro c
  obtain ⟨a, hfound⟩ := hc
  obtain ⟨ha, hfiring⟩ := hm.found alertId a hfound
  obtain rfl := Table.key_of_get? ha
  have hanswer : (exec scan c w.store).1 = .ok (resolved resolvedAt a) := update_of_get? ha
  have halerts : (w.after scan c).store.alerts = w.store.alerts.modify a.id (resolved resolvedAt)
      (id_resolved · resolvedAt) := World.after_alerts ..
  rw [hanswer]
  refine h.replace (m.next c (.ok (resolved resolvedAt a))) hdue rfl (sent_after rfl)
    (fun i b hi hb => ?_) ?_ ?_
  · have hother : i ≠ a.id := hi
    rwa [halerts, Table.get?_modify_of_ne hother] at hb
  · rw [halerts]
    exact Table.get?_modify_self.trans (congrArg (Option.map _) ha)
  · have htold : w.told a.id = a.news := h.told_eq hdue ha
    have hnews : (resolved resolvedAt a).news = a.news ++ [2] := by
      have hunresolved : ¬ a.status = .resolved := by
        rw [hfiring]
        decide
      simp only [AlertRecord.news, if_neg hunresolved, List.append_nil, List.cons_append]
      rfl
    exact (congrArg (· ++ [2]) htold).trans hnews.symm

/-- A call about nothing on the desk, that changes no alert. -/
theorem ToldInFull.aside (h : ToldInFull w m) (hdue : m.due = none) (haside : c.IsAside)
    (halerts : c.alerts scan w.store = w.store.alerts) (hc : c.message = none) :
    ToldInFull (w.after scan c) (m.next c (exec scan c w.store).1) := by
  have hdone : (m.next c (exec scan c w.store).1).Done true := haside.done _
  refine h.same hdue (hdone rfl) (fun i a ha => ?_) (sent_after hc)
  rwa [World.after_alerts, halerts] at ha

/-- A call that takes effect, where a notifier tells of every write. -/
theorem ToldInFull.after (h : ToldInFull w m) (hm : OnDesk w m)
    (hc : (announcing true).allowed m c) :
    ToldInFull (w.after scan c) (m.next c (exec scan c w.store).1) := by
  obtain ⟨hallows, hdone | ⟨message, rfl⟩⟩ := hc
  swap
  · exact h.notify hallows rfl (World.after_alerts ..) rfl
  have hdue : m.due = none := hdone rfl
  cases c with
  | notify message =>
    have hsome : m.due = some message := hallows
    rw [hdue] at hsome
    cases hsome
  | createAlert nodeId ruleKey ruleKind severity description triggeringValue bound firedAt =>
    exact h.createAlert hm hdue nodeId ruleKey ruleKind severity description triggeringValue bound
      firedAt
  | escalateAlert => exact h.escalateAlert hm hdue hallows
  | resolveAlert => exact h.resolveAlert hm hdue hallows
  | updateLastFired alertId triggeringValue firedAt =>
    obtain ⟨a, hfound⟩ := hallows
    have hanswer : (exec scan (.updateLastFired alertId triggeringValue firedAt) w.store).1 =
      .ok (advanced triggeringValue firedAt a) := update_of_get? (hm.found alertId a hfound).1
    rw [hanswer]
    exact h.modify hdue rfl (id_advanced · triggeringValue firedAt) (World.after_alerts ..)
      (sent_after rfl) fun _ => rfl
  | acknowledgeAlert alertId acknowledgedBy acknowledgedAt =>
    obtain ⟨a, hfound⟩ := hallows
    have hanswer : (exec scan (.acknowledgeAlert alertId acknowledgedBy acknowledgedAt)
      w.store).1 = .ok (acknowledged acknowledgedBy acknowledgedAt a) :=
      update_of_get? (hm.found alertId a hfound).1
    rw [hanswer]
    exact h.modify hdue rfl (id_acknowledged · acknowledgedBy acknowledgedAt)
      (World.after_alerts ..) (sent_after rfl) fun _ => rfl
  | markRemediated alertId remediatedAt =>
    obtain ⟨a, hfound⟩ := hallows
    have hanswer : (exec scan (.markRemediated alertId remediatedAt) w.store).1 =
      .ok (remediated remediatedAt a) := update_of_get? (hm.found alertId a hfound).1
    rw [hanswer]
    exact h.modify hdue rfl (id_remediated · remediatedAt) (World.after_alerts ..)
      (sent_after rfl) fun _ => rfl
  | pruneResolvedBefore cutoff batchSize =>
    refine h.same hdue rfl (fun i a ha => ?_) (sent_after rfl)
    rw [World.after_alerts] at ha
    have hkept := Table.get?_delete.symm.trans ha
    exact (Option.filter_eq_some_iff.1 hkept).1
  | upsertSeen | listAllNodes | bulkInsert | findPreviousSample | pruneSamplesBefore
  | findOpenAlert | getAlert | countRecentActions | findLastAction | createAction | getAction
  | markResult | listDispatchedBefore | pruneTerminalBefore =>
    exact h.aside hdue trivial rfl rfl

theorem ToldInFull.step (henv : env.Faultless) (hw : OnDesk w m ∧ ToldInFull w m)
    (hc : (announcing true).allowed m c) :
    OnDesk (handle env c w).2 ((announcing true).next m c (handle env c w).1) ∧
      ToldInFull (handle env c w).2 ((announcing true).next m c (handle env c w).1) := by
  refine ⟨hw.1.step hc, ?_⟩
  rw [handle_of_ok (henv w.calls c)]
  exact hw.2.after hw.1 hc

end ToldInFull

/-- In a serial run without failures, of operations with a notifier: about every alert that is there
just the messages have been sent that its row calls for. -/
theorem notified_completely {env : Environment} (henv : env.Faultless) {ops : List Operation}
    (hops : ∀ op ∈ ops, op.Notifies) {i : ℕ} {a : AlertRecord}
    (ha : (Operation.runAll env ops .fresh).store.alerts.get? i = some a) :
    (Operation.runAll env ops .fresh).told i = a.news := by
  suffices hall : OnDesk (Operation.runAll env ops .fresh) .clear ∧
      ToldInFull (Operation.runAll env ops .fresh) .clear from hall.2.told_eq rfl ha
  clear ha
  induction ops using List.reverseRecOn with
  | nil =>
    refine ⟨onDesk_clear told_fresh, fun i a ha => ?_⟩
    cases ha
  | append_singleton ops op ih =>
    rw [List.forall_mem_append, List.forall_mem_singleton] at hops
    rw [Operation.runAll_append, Operation.runAll_cons, Operation.runAll_nil]
    have hfollows : Follows (announcing true) .clear op.program fun _ m' => m'.Done true :=
      op.follows_announcing (fun _ => hops.2) (Desk.done_clear true)
    have hstep : ∀ (w : World) (m : Desk) (c : Call), OnDesk w m ∧ ToldInFull w m →
        (announcing true).allowed m c →
        OnDesk (handle env c w).2 ((announcing true).next m c (handle env c w).1) ∧
          ToldInFull (handle env c w).2 ((announcing true).next m c (handle env c w).1) :=
      fun _ _ _ hw hc => ToldInFull.step henv hw hc
    obtain ⟨m', ⟨hdesk, hcomplete⟩, hdone⟩ := hfollows.run hstep (ih hops.1)
    exact ⟨onDesk_clear hdesk.told,
      hcomplete.same (hdone rfl) rfl (fun _ _ h => h) rfl⟩

namespace Scenario

/-- An alert opens, escalates and resolves, with a notifier. -/
def announcedOperations : List Operation :=
  [.ingest { service with notifier := true } (payload 0 95) (clock 0).instant,
    .ingest { service with notifier := true } (payload 1000 96) (clock 1000).instant,
    .ingest { service with notifier := true } (payload 3000 50) (clock 3000).instant]

theorem announcedOperations_notifies : ∀ op ∈ announcedOperations, op.Notifies := by
  intro op hop
  simp only [announcedOperations, List.mem_cons, List.not_mem_nil, or_false] at hop
  rcases hop with rfl | rfl | rfl
  · rfl
  · rfl
  · rfl

theorem notified_completely_announcedOperations :
    ∃ a, (Operation.runAll .calm announcedOperations .fresh).store.alerts.get? 1 = some a ∧
      (Operation.runAll .calm announcedOperations .fresh).told 1 = a.news ∧ a.news = [0, 1, 2] := by
  have hrow : ((Operation.runAll .calm announcedOperations .fresh).store.alerts.get? 1).map
      AlertRecord.news = some [0, 1, 2] := by
    decide +kernel
  obtain ⟨a, ha, hnews⟩ := Option.map_eq_some_iff.1 hrow
  exact ⟨a, ha, notified_completely Environment.calm_faultless announcedOperations_notifies ha,
    hnews⟩

end Scenario

end ClusterPulse
