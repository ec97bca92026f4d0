import ClusterPulse.Agent.Deliveries
import ClusterPulse.Collector.Operations
import Mathlib.Data.List.Count
import Mathlib.Tactic.Ring

/-!
# What becomes of the collected payloads

A cycle redelivers a batch of the buffered payloads, puts back those after the first failure, and
delivers one fresh payload.  `cycle_steps` says what it does to the backlog; `delivery_conserves`
that no payload is lost or duplicated on the way, and `buffer_in_order` says when the buffer stays
in the order of collection: when no batch that is shorter than the backlog is put back behind it.
-/

namespace ClusterPulse

open Prog

/-! ## The buffer file -/

theorem FileBuffer.evict_eq (n : ℕ) (entries : List NodeMetricsPayload) :
    FileBuffer.evict n entries = entries.drop (entries.length - n) := by
  unfold FileBuffer.evict
  split_ifs with h
  · congr 1
    omega
  · have hle : entries.length - n = 0 := by omega
    rw [hle, List.drop_zero]

namespace AgentRun

variable {r : AgentRun} {b b' : Backlog} {payload : NodeMetricsPayload}

/-- What an `enqueue` does, for the record. -/
def enqueued (r : AgentRun) (b : Backlog) (payload : NodeMetricsPayload) : Enqueued :=
  ⟨b.file, payload, (b.file ++ [payload]).drop (b.file.length + 1 - r.maxEntries)⟩

theorem handle_enqueue : r.handle (.enqueue payload) b =
    (.ok (), { b with
      file := (r.enqueued b payload).kept
      enqueues := b.enqueues ++ [r.enqueued b payload]
      calls := b.calls + 1 }) := by
  show ((.ok (), { b with
    file := FileBuffer.evict r.maxEntries (b.file ++ [payload])
    enqueues := b.enqueues ++
      [⟨b.file, payload, FileBuffer.evict r.maxEntries (b.file ++ [payload])⟩]
    calls := b.calls + 1 }) : Except AgentError Unit × Backlog) = _
  rw [FileBuffer.evict_eq, List.length_append]
  rfl

theorem handle_drain (n : ℕ) : r.handle (.drain n) b =
    (.ok (b.file.take n), { b with file := b.file.drop n, calls := b.calls + 1 }) := rfl

theorem evicted_enqueued : (r.enqueued b payload).evicted =
    (b.file ++ [payload]).take (b.file.length + 1 - r.maxEntries) := by
  unfold Enqueued.evicted enqueued
  dsimp only
  rw [List.length_drop, List.length_append, List.length_singleton]
  congr 1
  omega

variable (r b payload) in
theorem evicted_append_kept : (r.enqueued b payload).evicted ++ (r.enqueued b payload).kept =
    b.file ++ [payload] := by
  rw [evicted_enqueued]
  exact List.take_append_drop ..

theorem evicted_enqueued_of_lt (h : b.file.length < r.maxEntries) :
    (r.enqueued b payload).evicted = [] := by
  have hzero : b.file.length + 1 - r.maxEntries = 0 := by omega
  rw [evicted_enqueued, hzero, List.take_zero]

theorem kept_enqueued_of_lt (h : b.file.length < r.maxEntries) :
    (r.enqueued b payload).kept = b.file ++ [payload] := by
  have happend := evicted_append_kept r b payload
  rwa [evicted_enqueued_of_lt h, List.nil_append] at happend

theorem length_kept_le : (r.enqueued b payload).kept.length ≤ r.maxEntries := by
  unfold enqueued
  rw [List.length_drop, List.length_append, List.length_singleton]
  omega

/-! ## Redelivery -/

/-- The payloads that fit are enqueued without an eviction. -/
structure Buffers (l : List NodeMetricsPayload) (b b' : Backlog) : Prop where
  file : b'.file = b.file ++ l
  accepted : b'.accepted = b.accepted
  dropped : b'.dropped = b.dropped
  enqueues : ∃ es : List Enqueued, b'.enqueues = b.enqueues ++ es ∧ ∀ e ∈ es, e.evicted = []

theorem run_enqueueAll (l : List NodeMetricsPayload)
    (hfits : b.file.length + l.length ≤ r.maxEntries) :
    ∃ b', (r.scheduler.enqueueAll l).run r.handle b = (.ok (), b') ∧ Buffers l b b' := by
  induction l generalizing b with
  | nil =>
    exact ⟨b, rfl, (List.append_nil _).symm, rfl, rfl, [], (List.append_nil _).symm, by simp⟩
  | cons payload l ih =>
    rw [List.length_cons] at hfits
    have hlt : b.file.length < r.maxEntries := by omega
    obtain ⟨b₂, hrun, hb₂⟩ := ih (b := (r.handle (.enqueue payload) b).2) <| by
      rw [handle_enqueue, kept_enqueued_of_lt hlt, List.length_append, List.length_singleton]
      omega
    refine ⟨b₂, ?_, ?_⟩
    · show ((CycleCall.enqueue payload).perform >>= fun _ =>
        r.scheduler.enqueueAll l).run r.handle b = _
      rw [run_bind, run_perform]
      exact hrun
    · rw [handle_enqueue] at hb₂
      obtain ⟨es, hes, hevicted⟩ := hb₂.enqueues
      refine ⟨?_, hb₂.accepted, hb₂.dropped, r.enqueued b payload :: es, ?_, ?_⟩
      · rw [hb₂.file, kept_enqueued_of_lt hlt, List.append_assoc, List.singleton_append]
      · rw [hes, List.append_assoc, List.singleton_append]
      · exact List.forall_mem_cons.2 ⟨evicted_enqueued_of_lt hlt, hevicted⟩

/-- How an outcome of `send` looks to the scheduler. -/
def delivery : Except TransportFailure Ack → Delivery
  | .ok ack => .acknowledged ack
  | .error e => if e.isTransient then .failed else .rejected

theorem run_attemptDelivery : (r.scheduler.attemptDelivery payload).run r.handle b =
    (.ok (delivery (r.send b.sends)),
      { b.sent payload (r.send b.sends) with calls := b.calls + 1 }) := by
  have hsend : (r.scheduler.transport.send payload).run r.handle b =
      ((r.send b.sends).mapError Subtype.val,
        { b.sent payload (r.send b.sends) with calls := b.calls + 1 }) :=
    run_perform (CycleCall.send payload) b
  unfold AgentScheduler.attemptDelivery
  rw [run_tryCatch, run_map, hsend]
  rcases r.send b.sends with ⟨e, he⟩ | ack
  · show Prog.run r.handle (if e.isFatal then Prog.pure Delivery.rejected
      else if e.isTransportError then Prog.pure Delivery.failed else Prog.throw e) _ = _
    have hdelivery : delivery (.error ⟨e, he⟩) = if e.isFatal then .rejected else .failed := by
      show (if (!e.isFatal) = true then Delivery.failed else Delivery.rejected) = _
      cases e.isFatal <;> rfl
    rw [if_pos he, hdelivery]
    split_ifs
    · rfl
    · rfl
  · rfl

/-- The outcome of the `n`-th `send` keeps its payload for later. -/
def failsAt (r : AgentRun) (n : ℕ) : Bool :=
  match r.send n with
  | .ok _ => false
  | .error e => e.isTransient

/-- The first `n` payloads of `l` have left the buffer for good, and the others are back in it,
because the next delivery failed. -/
structure Redelivered (r : AgentRun) (l : List NodeMetricsPayload) (n : ℕ) (b b' : Backlog) :
    Prop where
  le : n ≤ l.length
  file : b'.file = b.file ++ l.drop n
  gone : (b'.accepted ++ b'.dropped).Perm (b.accepted ++ b.dropped ++ l.take n)
  enqueues : ∃ es : List Enqueued, b'.enqueues = b.enqueues ++ es ∧ ∀ e ∈ es, e.evicted = []
  passed : ∀ i < n, r.failsAt (b.sends + i) = false
  failed : n < l.length → r.failsAt (b.sends + n) = true

/-- A payload that leaves for good, before the others. -/
theorem Redelivered.cons {b₁ : Backlog} {l : List NodeMetricsPayload} {n : ℕ}
    (h : Redelivered r l n b₁ b') (hfile : b₁.file = b.file) (henqueues : b₁.enqueues = b.enqueues)
    (hsends : b₁.sends = b.sends + 1) (hpassed : r.failsAt b.sends = false)
    (hgone : (b₁.accepted ++ b₁.dropped).Perm (b.accepted ++ b.dropped ++ [payload])) :
    Redelivered r (payload :: l) (n + 1) b b' where
  le := Nat.succ_le_succ h.le
  file := hfile ▸ h.file
  gone := by
    refine h.gone.trans ((hgone.append_right _).trans ?_)
    rw [List.take_succ_cons, List.append_assoc, List.singleton_append]
  enqueues := henqueues ▸ h.enqueues
  passed i hi := by
    cases i with
    | zero => exact hpassed
    | succ i =>
      have hsum : b₁.sends + i = b.sends + (i + 1) := by omega
      exact hsum ▸ h.passed i (Nat.lt_of_succ_lt_succ hi)
  failed hn := by
    have hsum : b₁.sends + n = b.sends + (n + 1) := by omega
    exact hsum ▸ h.failed (Nat.lt_of_succ_lt_succ hn)

theorem run_redeliver (l : List NodeMetricsPayload)
    (hfits : b.file.length + l.length ≤ r.maxEntries) :
    ∃ n b', (r.scheduler.redeliver l).run r.handle b = (.ok (), b') ∧ Redelivered r l n b b' := by
  induction l generalizing b with
  | nil =>
    refine ⟨0, b, rfl, le_rfl, (List.append_nil _).symm, ?_,
      ⟨[], (List.append_nil _).symm, by simp⟩, nofun, nofun⟩
    rw [List.take_zero, List.append_nil]
  | cons payload l ih =>
    rw [List.length_cons] at hfits
    unfold AgentScheduler.redeliver
    rw [run_bind, run_attemptDelivery]
    have hfails : r.failsAt b.sends = match r.send b.sends with
      | .ok _ => false
      | .error e => e.isTransient := rfl
    rcases hsend : r.send b.sends with e | ack
    · rw [hsend] at hfails
      cases he : e.isTransient with
      | true =>
        -- the payload and all after it go back
        have hdelivery : delivery (.error e) = .failed := if_pos he
        have hsent : b.sent payload (.error e) = { b with sends := b.sends + 1 } := if_pos he
        rw [hdelivery, hsent]
        obtain ⟨b', hrun, hb'⟩ := run_enqueueAll (r := r) (payload :: l)
          (b := { b with sends := b.sends + 1, calls := b.calls + 1 }) hfits
        refine ⟨0, b', hrun, Nat.zero_le _, hb'.file, ?_, hb'.enqueues, nofun,
          fun _ => hfails.trans he⟩
        rw [hb'.accepted, hb'.dropped, List.take_zero, List.append_nil]
      | false =>
        have hdelivery : delivery (.error e) = .rejected := if_neg (by simp [he])
        have hsent : b.sent payload (.error e) =
            { b with dropped := b.dropped ++ [payload], sends := b.sends + 1 } :=
          if_neg (by simp [he])
        rw [hdelivery, hsent]
        obtain ⟨n, b', hrun, hb'⟩ := ih (b := { b with
          dropped := b.dropped ++ [payload], sends := b.sends + 1, calls := b.calls + 1 })
          (by dsimp only; omega)
        refine ⟨n + 1, b', hrun, hb'.cons rfl rfl rfl (hfails.trans he) ?_⟩
        rw [List.append_assoc]
    · rw [hsend] at hfails
      obtain ⟨n, b', hrun, hb'⟩ := ih (b := { b with
        accepted := b.accepted ++ [payload], sends := b.sends + 1, calls := b.calls + 1 })
        (by dsimp only; omega)
      refine ⟨n + 1, b', hrun, hb'.cons rfl rfl rfl hfails ?_⟩
      simp only [List.append_assoc]
      exact List.perm_append_comm.append_left _

/-! ## A cycle -/

/-- The fresh payload of a cycle is accepted, dropped, or buffered. -/
inductive Delivered (r : AgentRun) (payload : NodeMetricsPayload) (b b' : Backlog) : Prop where
  | accepted (hfile : b'.file = b.file) (haccepted : b'.accepted = b.accepted ++ [payload])
      (hdropped : b'.dropped = b.dropped) (henqueues : b'.enqueues = b.enqueues)
  | dropped (hfile : b'.file = b.file) (haccepted : b'.accepted = b.accepted)
      (hdropped : b'.dropped = b.dropped ++ [payload]) (henqueues : b'.enqueues = b.enqueues)
  | buffered (hfile : b'.file = (r.enqueued b payload).kept) (haccepted : b'.accepted = b.accepted)
      (hdropped : b'.dropped = b.dropped)
      (henqueues : b'.enqueues = b.enqueues ++ [r.enqueued b payload])

/-- The calls that leave the backlog alone. -/
def CycleCall.IsIdle : CycleCall → Prop
  | .collect _ | .now | .reportActionResult .. | .execute _ => True
  | _ => False

theorem handle_idle {c : CycleCall} (hc : CycleCall.IsIdle c) :
    (r.handle c b).2 = { b with calls := b.calls + 1 } := by
  cases c with
  | collect | now | reportActionResult | execute => rfl
  | enqueue | drain | send => exact hc.elim

/-- Between the worlds, only calls have been counted. -/
def Idle (b b' : Backlog) : Prop := b' = { b with calls := b'.calls }

theorem idle_of_only {α : Type} {p : Prog CycleCall CycleCall.Res AgentError α}
    (hp : Only CycleCall.IsIdle p) (b : Backlog) : Idle b (p.run r.handle b).2 := by
  have hI : ∀ c b₁, CycleCall.IsIdle c → Idle b b₁ → Idle b (r.handle c b₁).2 := by
    intro c b₁ hc hb₁
    rw [handle_idle hc]
    unfold Idle at hb₁ ⊢
    rw [hb₁]
  have hb : Idle b b := rfl
  exact (hp.runs (Idle b) hI hb).run

/-- A failing collector does not stop a collection. -/
theorem run_collectors (names : List String) (found : List MetricSample × List String)
    (b : Backlog) : ∃ found' b', ((names.map collector).foldlM AgentScheduler.collectFrom found).run
      r.handle b = (.ok found', b') ∧ Idle b b' := by
  have honly : Only CycleCall.IsIdle
      ((names.map collector).foldlM AgentScheduler.collectFrom found) := by
    rw [List.foldlM_map]
    refine Only.foldlM (fun found name => ?_) _ _
    exact ((only_perform trivial).bind fun _ => only_pure _).tryCatch fun _ => only_pure _
  suffices h : ∃ found' b', ((names.map collector).foldlM AgentScheduler.collectFrom found).run
      r.handle b = (.ok found', b') by
    obtain ⟨found', b', hrun⟩ := h
    have hidle := idle_of_only (r := r) honly b
    rw [hrun] at hidle
    exact ⟨found', b', hrun, hidle⟩
  clear honly
  induction names generalizing found b with
  | nil => exact ⟨found, b, rfl⟩
  | cons name names ih =>
    obtain ⟨found₁, b₁, hrun⟩ : ∃ found₁ b₁, (AgentScheduler.collectFrom found
        (collector name)).run r.handle b = (.ok found₁, b₁) := by
      unfold AgentScheduler.collectFrom collector
      rw [run_tryCatch, run_bind, run_perform]
      rcases r.handle (.collect name) b with ⟨e | samples, b₁⟩
      · exact ⟨_, _, rfl⟩
      · exact ⟨_, _, rfl⟩
    rw [List.map_cons, List.foldlM_cons, run_bind, hrun]
    exact ih found₁ b₁

theorem run_collect (b : Backlog) :
    ∃ payload b', r.scheduler.collect.run r.handle b = (.ok payload, b') ∧ Idle b b' := by
  obtain ⟨found, b₁, hrun, hidle⟩ := run_collectors (r := r) r.collectors ([], []) b
  refine ⟨⟨r.nodeId, r.now b₁.calls, found.1, found.2⟩, { b₁ with calls := b₁.calls + 1 }, ?_, ?_⟩
  · unfold AgentScheduler.collect
    have hcollectors : (r.scheduler.collectors.foldlM AgentScheduler.collectFrom ([], [])).run
        r.handle b = (.ok found, b₁) := hrun
    rw [run_bind, hcollectors]
    rfl
  · unfold Idle at hidle ⊢
    rw [hidle]

theorem only_executePendingActions (ack : Ack) :
    Only CycleCall.IsIdle (r.scheduler.executePendingActions ack) := by
  have hexecutor : r.scheduler.executor = if r.remediationEnabled then
      some fun action => (CycleCall.execute action).perform else none := rfl
  unfold AgentScheduler.executePendingActions
  split
  · exact only_pure _
  · rename_i execute hexecute
    rw [hexecutor] at hexecute
    split_ifs at hexecute
    obtain rfl := Option.some.inj hexecute
    induction ack.pendingActions with
    | nil => exact only_pure _
    | cons action actions ih =>
      have hreport : ∀ result, Only CycleCall.IsIdle
          (r.scheduler.reportResult action.actionId result) := by
        intro result
        refine Only.tryCatch (only_perform trivial) fun e => ?_
        split_ifs
        · exact only_pure _
        · exact only_throw _
      exact (only_perform trivial).bind fun result => (hreport result).bind fun _ => ih

theorem run_deliver (payload : NodeMetricsPayload) (b : Backlog) :
    Delivered r payload b ((r.scheduler.deliver payload).run r.handle b).2 := by
  unfold AgentScheduler.deliver
  rw [run_bind, run_attemptDelivery]
  rcases hsend : r.send b.sends with e | ack
  · cases he : e.isTransient with
    | true =>
      have hdelivery : delivery (.error e) = .failed := if_pos he
      have hsent : b.sent payload (.error e) = { b with sends := b.sends + 1 } := if_pos he
      rw [hdelivery, hsent]
      show Delivered r payload b ((CycleCall.enqueue payload).perform.run r.handle _).2
      rw [run_perform, handle_enqueue]
      exact .buffered rfl rfl rfl rfl
    | false =>
      have hdelivery : delivery (.error e) = .rejected := if_neg (by simp [he])
      have hsent : b.sent payload (.error e) =
          { b with dropped := b.dropped ++ [payload], sends := b.sends + 1 } :=
        if_neg (by simp [he])
      rw [hdelivery, hsent]
      exact .dropped rfl rfl rfl rfl
  · have honly : Only CycleCall.IsIdle (r.scheduler.executePendingActions ack) :=
      only_executePendingActions ack
    have hidle := idle_of_only (r := r) honly
      { b.sent payload (.ok ack) with calls := b.calls + 1 }
    show Delivered r payload b ((r.scheduler.executePendingActions ack).run r.handle
      { b.sent payload (.ok ack) with calls := b.calls + 1 }).2
    rw [hidle]
    exact .accepted rfl rfl rfl rfl

/-- The backlog once the batch of a cycle has been drained. -/
def drained (b : Backlog) : Backlog :=
  { b with file := b.file.drop AgentScheduler.defaultBufferDrainBatchSize, calls := b.calls + 1 }

theorem run_drainBuffer (hb : b.file.length ≤ r.maxEntries) :
    ∃ n b', r.scheduler.drainBuffer.run r.handle b = (.ok (), b') ∧
      Redelivered r (b.file.take AgentScheduler.defaultBufferDrainBatchSize) n (drained b) b' := by
  have hfits : (drained b).file.length +
      (b.file.take AgentScheduler.defaultBufferDrainBatchSize).length ≤ r.maxEntries := by
    unfold drained
    rw [List.length_drop, List.length_take]
    omega
  obtain ⟨n, b', hrun, hb'⟩ := run_redeliver _ hfits
  refine ⟨n, b', ?_, hb'⟩
  show ((CycleCall.drain _).perform >>= r.scheduler.redeliver).run r.handle b = _
  rw [run_bind, run_perform, handle_drain]
  exact hrun

/-- What a cycle does: it redelivers, collects one payload and delivers it. -/
theorem cycle_steps (hb : b.file.length ≤ r.maxEntries) :
    ∃ n b₁ payload, r.scheduler.drainBuffer.run r.handle b = (.ok (), b₁) ∧
      Redelivered r (b.file.take AgentScheduler.defaultBufferDrainBatchSize) n (drained b) b₁ ∧
      r.fresh b = some payload ∧ Delivered r payload b₁ (r.cycle b) := by
  obtain ⟨n, b₁, hdrain, hb₁⟩ := run_drainBuffer hb
  obtain ⟨payload, b₂, hcollect, hidle⟩ := run_collect (r := r) b₁
  refine ⟨n, b₁, payload, hdrain, hb₁, ?_, ?_⟩
  · unfold fresh
    rw [run_bind, hdrain]
    dsimp only
    rw [hcollect]
    rfl
  · have hdeliver := run_deliver (r := r) payload b₂
    rw [hidle] at hdeliver
    have hcycle : r.cycle b = ((r.scheduler.deliver payload).run r.handle b₂).2 := by
      unfold cycle AgentScheduler.runOnce
      rw [run_bind, hdrain]
      dsimp only
      rw [run_bind, hcollect]
    rw [hcycle, hidle]
    cases hdeliver with
    | accepted h₁ h₂ h₃ h₄ => exact .accepted h₁ h₂ h₃ h₄
    | dropped h₁ h₂ h₃ h₄ => exact .dropped h₁ h₂ h₃ h₄
    | buffered h₁ h₂ h₃ h₄ => exact .buffered h₁ h₂ h₃ h₄

/-! ## Conservation -/

/-- Every payload of the history is accepted, dropped, evicted or in the buffer, exactly once. -/
structure Conserved (r : AgentRun) (history : List NodeMetricsPayload) (b : Backlog) : Prop where
  perm : history.Perm (b.accepted ++ b.dropped ++ b.evicted ++ b.file)
  bounded : b.file.length ≤ r.maxEntries
  full : ∀ e ∈ b.enqueues, e.evicted ≠ [] → e.found.length = r.maxEntries

theorem evicted_of_none {es : List Enqueued} (henqueues : b'.enqueues = b.enqueues ++ es)
    (hes : ∀ e ∈ es, e.evicted = []) : b'.evicted = b.evicted := by
  unfold Backlog.evicted
  rw [henqueues, List.flatMap_append, List.flatMap_eq_nil_iff.2 hes, List.append_nil]

theorem Conserved.redelivered {history : List NodeMetricsPayload} (hb : Conserved r history b)
    {n : ℕ} (h : Redelivered r (b.file.take AgentScheduler.defaultBufferDrainBatchSize) n
      (drained b) b') : Conserved r history b' ∧ b'.evicted = b.evicted := by
  obtain ⟨es, henqueues, hes⟩ := h.enqueues
  have hevicted : b'.evicted = b.evicted := evicted_of_none henqueues hes
  refine ⟨⟨?_, ?_, fun e he hne => ?_⟩, hevicted⟩
  · rw [List.perm_iff_count]
    intro x
    have hperm := hb.perm.count_eq x
    have hgone := h.gone.count_eq x
    have hfile : b.file.count x = (b.file.take AgentScheduler.defaultBufferDrainBatchSize).count x +
        (drained b).file.count x := by
      rw [← List.count_append]
      exact congrArg (List.count x) (List.take_append_drop ..).symm
    generalize b.file.take AgentScheduler.defaultBufferDrainBatchSize = batch at *
    have hbatch : batch.count x = (batch.take n).count x + (batch.drop n).count x := by
      rw [← List.count_append, List.take_append_drop]
    rw [h.file, hevicted]
    simp only [List.count_append, drained] at hperm hgone hfile ⊢
    omega
  · have hbounded := hb.bounded
    rw [h.file]
    unfold drained
    simp only [List.length_append, List.length_drop, List.length_take]
    omega
  · rw [henqueues] at he
    rcases List.mem_append.1 he with he | he
    · exact hb.full e he hne
    · exact absurd (hes e he) hne

theorem Conserved.delivered {history : List NodeMetricsPayload} (hb : Conserved r history b)
    {payload : NodeMetricsPayload} (h : Delivered r payload b b') :
    Conserved r (history ++ [payload]) b' := by
  have hperm := fun x => hb.perm.count_eq x
  cases h with
  | accepted hfile haccepted hdropped henqueues =>
    refine ⟨?_, hfile ▸ hb.bounded, henqueues ▸ hb.full⟩
    rw [List.perm_iff_count]
    intro x
    unfold Backlog.evicted
    rw [hfile, haccepted, hdropped, henqueues]
    have hx := hperm x
    simp only [List.count_append, Backlog.evicted] at hx ⊢
    omega
  | dropped hfile haccepted hdropped henqueues =>
    refine ⟨?_, hfile ▸ hb.bounded, henqueues ▸ hb.full⟩
    rw [List.perm_iff_count]
    intro x
    unfold Backlog.evicted
    rw [hfile, haccepted, hdropped, henqueues]
    have hx := hperm x
    simp only [List.count_append, Backlog.evicted] at hx ⊢
    omega
  | buffered hfile haccepted hdropped henqueues =>
    refine ⟨?_, hfile ▸ length_kept_le, fun e he hne => ?_⟩
    · rw [List.perm_iff_count]
      intro x
      have hmoved := congrArg (List.count x) (evicted_append_kept r b payload)
      have hx := hperm x
      unfold Backlog.evicted at hx ⊢
      rw [hfile, haccepted, hdropped, henqueues, List.flatMap_append, List.flatMap_singleton]
      simp only [List.count_append] at hx hmoved ⊢
      omega
    · rw [henqueues] at he
      rcases List.mem_append.1 he with he | he
      · exact hb.full e he hne
      · obtain rfl := List.mem_singleton.1 he
        by_contra hlength
        have hbounded := hb.bounded
        have hlt : b.file.length < r.maxEntries :=
          Nat.lt_of_le_of_ne hbounded hlength
        exact hne (evicted_enqueued_of_lt hlt)

theorem collectedIn_succ {cycles : ℕ} {payload : NodeMetricsPayload}
    (h : r.fresh (r.after cycles) = some payload) :
    r.collectedIn (cycles + 1) = r.collectedIn cycles ++ [payload] := by
  show _ ++ (r.fresh (r.after cycles)).toList = _
  rw [h]
  rfl

theorem collectedIn_sublist {k cycles : ℕ} (hk : k ≤ cycles) :
    (r.collectedIn k).Sublist (r.collectedIn cycles) := by
  induction hk with
  | refl => exact List.Sublist.refl _
  | step _ ih => exact ih.trans (List.sublist_append_left ..)

theorem conserved_after (r : AgentRun) (cycles : ℕ) :
    Conserved r (r.collectedIn cycles) (r.after cycles) := by
  induction cycles with
  | zero => exact ⟨List.Perm.refl _, Nat.zero_le _, by simp [after]⟩
  | succ cycles ih =>
    obtain ⟨n, b₁, payload, -, hredelivered, hfresh, hdelivered⟩ := cycle_steps ih.bounded
    rw [collectedIn_succ hfresh]
    exact (ih.redelivered hredelivered).1.delivered hdelivered

end AgentRun

/-- For any settings, outcomes and number of cycles: every collected payload is accepted, dropped,
evicted or in the buffer, exactly once; the buffer is bounded, only an enqueue that finds it full
evicts, and a redelivery never does. -/
theorem delivery_conserves (r : AgentRun) (cycles : ℕ) :
    let b := r.after cycles
    (r.collectedIn cycles).Perm (b.accepted ++ b.dropped ++ b.evicted ++ b.file) ∧
      b.file.length ≤ r.maxEntries ∧
      (∀ e ∈ b.enqueues, e.evicted ≠ [] → e.found.length = r.maxEntries) ∧
      (r.scheduler.drainBuffer.run r.handle b).2.evicted = b.evicted := by
  intro b
  have hb : r.Conserved (r.collectedIn cycles) b := r.conserved_after cycles
  obtain ⟨n, b₁, hdrain, hredelivered⟩ := AgentRun.run_drainBuffer hb.bounded
  refine ⟨hb.perm, hb.bounded, hb.full, ?_⟩
  rw [hdrain]
  exact (hb.redelivered hredelivered).2

/-! ## The order of the buffer -/

/-- The buffer is in the order of collection, and so were the entries at each eviction, so that the
oldest of them went. -/
def InOrder (history : List NodeMetricsPayload) (b : Backlog) : Prop :=
  b.file.Sublist history ∧
    ∀ e ∈ b.enqueues, e.evicted ≠ [] → (e.found ++ [e.payload]).Sublist history

/-- The buffer holds one batch at most, or the next batch is redelivered without a failure that
stops it. -/
def AgentRun.RedeliversInOrder (r : AgentRun) (b : Backlog) : Prop :=
  b.file.length ≤ AgentScheduler.defaultBufferDrainBatchSize ∨
    ∀ i < AgentScheduler.defaultBufferDrainBatchSize, r.failsAt (b.sends + i) = false

instance (r : AgentRun) (b : Backlog) : Decidable (r.RedeliversInOrder b) := by
  unfold AgentRun.RedeliversInOrder
  infer_instance

section Order

variable {r : AgentRun} {b b₁ b' : Backlog} {history : List NodeMetricsPayload}
  {payload : NodeMetricsPayload} {n : ℕ}

theorem file_sublist_of_redelivered (hb : b.file.Sublist history) (hin : r.RedeliversInOrder b)
    (h : r.Redelivered (b.file.take AgentScheduler.defaultBufferDrainBatchSize) n
      (AgentRun.drained b) b₁) : b₁.file.Sublist history := by
  refine List.Sublist.trans ?_ hb
  rw [h.file]
  rcases hin with hshort | hpass
  · -- nothing stayed behind
    have hnil : (AgentRun.drained b).file = [] := List.drop_eq_nil_of_le hshort
    rw [hnil, List.nil_append]
    exact (List.drop_sublist ..).trans (List.take_sublist ..)
  · -- nothing was put back
    have hall : (b.file.take AgentScheduler.defaultBufferDrainBatchSize).drop n = [] := by
      refine List.drop_eq_nil_of_le (Nat.le_of_not_lt fun hn => ?_)
      have hlt : n < AgentScheduler.defaultBufferDrainBatchSize :=
        Nat.lt_of_lt_of_le hn (List.length_take_le ..)
      have hfails : r.failsAt (b.sends + n) = true := h.failed hn
      rw [hpass n hlt] at hfails
      cases hfails
    rw [hall, List.append_nil]
    exact List.drop_sublist ..

theorem InOrder.cycle (hb : InOrder history b) (hin : r.RedeliversInOrder b)
    (h : r.Redelivered (b.file.take AgentScheduler.defaultBufferDrainBatchSize) n
      (AgentRun.drained b) b₁)
    (h' : r.Delivered payload b₁ b') : InOrder (history ++ [payload]) b' := by
  have hfile := file_sublist_of_redelivered hb.1 hin h
  have hle : history.Sublist (history ++ [payload]) := List.sublist_append_left ..
  obtain ⟨es, henqueues, hes⟩ := h.enqueues
  have hold : ∀ e ∈ b₁.enqueues, e.evicted ≠ [] →
      (e.found ++ [e.payload]).Sublist (history ++ [payload]) := by
    intro e he hne
    rw [henqueues] at he
    rcases List.mem_append.1 he with he | he
    · exact (hb.2 e he hne).trans hle
    · exact absurd (hes e he) hne
  cases h' with
  | accepted hfile' _ _ henqueues' | dropped hfile' _ _ henqueues' =>
    exact ⟨hfile' ▸ hfile.trans hle, henqueues' ▸ hold⟩
  | buffered hfile' _ _ henqueues' =>
    have hfull : (b₁.file ++ [payload]).Sublist (history ++ [payload]) :=
      hfile.append (List.Sublist.refl _)
    refine ⟨hfile' ▸ (List.drop_sublist ..).trans hfull, fun e he hne => ?_⟩
    rw [henqueues'] at he
    rcases List.mem_append.1 he with he | he
    · exact hold e he hne
    · obtain rfl := List.mem_singleton.1 he
      exact hfull

/-- Two elements of a list without duplicates stand in one order only. -/
theorem sublist_pair_asymm {α : Type} {l : List α} (hl : l.Nodup) {x y : α}
    (hxy : [x, y].Sublist l) (hyx : [y, x].Sublist l) : False := by
  induction l with
  | nil => cases hxy
  | cons a l ih =>
    obtain ⟨ha, hl⟩ := List.nodup_cons.1 hl
    cases hxy with
    | cons _ hxy =>
      cases hyx with
      | cons _ hyx => exact ih hl hxy hyx
      | cons_cons _ hx => exact ha (hxy.subset (by simp))
    | cons_cons _ hy =>
      cases hyx with
      | cons _ hyx => exact ha (hyx.subset (by simp))
      | cons_cons _ hx => exact ha (hx.subset (by simp))

/-- A batch that is put back behind the entries that stayed is out of order. -/
theorem not_sublist_of_overtaken {batch rest l : List NodeMetricsPayload} (hl : l.Nodup)
    (hsub : (batch ++ rest).Sublist l) (hrest : rest ≠ []) (hn : n < batch.length) :
    ¬ (rest ++ batch.drop n).Sublist l := by
  intro hover
  obtain ⟨x, hx⟩ := List.exists_mem_of_ne_nil _ hrest
  have hback : batch.drop n ≠ [] := fun h => by
    have hle := List.drop_eq_nil_iff.1 h
    omega
  obtain ⟨y, hy⟩ := List.exists_mem_of_ne_nil _ hback
  have hxy : [x, y].Sublist (rest ++ batch.drop n) :=
    (List.singleton_sublist.2 hx).append (List.singleton_sublist.2 hy)
  have hyx : [y, x].Sublist (batch ++ rest) :=
    (List.singleton_sublist.2 (List.mem_of_mem_drop hy)).append (List.singleton_sublist.2 hx)
  exact sublist_pair_asymm hl (hxy.trans hover) (hyx.trans hsub)

theorem redeliversInOrder_of_inOrder (hnodup : (history ++ [payload]).Nodup)
    (hb : InOrder history b)
    (h : r.Redelivered (b.file.take AgentScheduler.defaultBufferDrainBatchSize) n
      (AgentRun.drained b) b₁)
    (h' : r.Delivered payload b₁ b') (hin : InOrder (history ++ [payload]) b') :
    r.RedeliversInOrder b := by
  by_contra hnot
  obtain ⟨hlong, hfail⟩ := not_or.1 hnot
  obtain ⟨i, hi, hfails⟩ : ∃ i, i < AgentScheduler.defaultBufferDrainBatchSize ∧
      r.failsAt (b.sends + i) = true := by
    simpa using hfail
  have hle : n ≤ i := by
    by_contra hni
    have hpassed : r.failsAt (b.sends + i) = false := h.passed i (Nat.lt_of_not_le hni)
    rw [hfails] at hpassed
    cases hpassed
  have hn : n < (b.file.take AgentScheduler.defaultBufferDrainBatchSize).length := by
    rw [List.length_take]
    omega
  have hrest : (AgentRun.drained b).file ≠ [] := fun hnil =>
    hlong (List.drop_eq_nil_iff.1 hnil)
  have hsub : (b.file.take AgentScheduler.defaultBufferDrainBatchSize ++
      (AgentRun.drained b).file).Sublist (history ++ [payload]) := by
    refine List.Sublist.trans ?_ (List.sublist_append_left history [payload])
    have hsplit : b.file.take AgentScheduler.defaultBufferDrainBatchSize ++
        (AgentRun.drained b).file = b.file := List.take_append_drop ..
    rw [hsplit]
    exact hb.1
  have hover : ¬ b₁.file.Sublist (history ++ [payload]) :=
    h.file ▸ not_sublist_of_overtaken hnodup hsub hrest hn
  cases h' with
  | accepted hfile _ _ _ | dropped hfile _ _ _ => exact hover (hfile ▸ hin.1)
  | buffered hfile _ _ henqueues =>
    have hfound : b₁.file.Sublist (b₁.file ++ [payload]) := List.sublist_append_left ..
    by_cases hevicted : (r.enqueued b₁ payload).evicted = []
    · have hkept : (r.enqueued b₁ payload).kept = b₁.file ++ [payload] := by
        rw [← AgentRun.evicted_append_kept (r := r), hevicted, List.nil_append]
      exact hover (hfound.trans (hkept ▸ hfile ▸ hin.1))
    · have hmem : r.enqueued b₁ payload ∈ b'.enqueues := by simp [henqueues]
      exact hover (hfound.trans (hin.2 _ hmem hevicted))

end Order

/-- In every run in which no batch of a longer backlog stops at a failure, the buffer stays in the
order of collection; and only in these, as long as no two payloads are equal. -/
theorem buffer_in_order (r : AgentRun) (cycles : ℕ) :
    ((∀ k < cycles, r.RedeliversInOrder (r.after k)) →
      ∀ k ≤ cycles, InOrder (r.collectedIn k) (r.after k)) ∧
    ((r.collectedIn cycles).Nodup → (∀ k ≤ cycles, InOrder (r.collectedIn k) (r.after k)) →
      ∀ k < cycles, r.RedeliversInOrder (r.after k)) := by
  constructor
  · intro hin k hk
    induction k with
    | zero => exact ⟨List.nil_sublist _, by simp [AgentRun.after]⟩
    | succ k ih =>
      obtain ⟨n, b₁, payload, -, hredelivered, hfresh, hdelivered⟩ :=
        AgentRun.cycle_steps (r.conserved_after k).bounded
      rw [AgentRun.collectedIn_succ hfresh]
      exact (ih (Nat.le_of_succ_le hk)).cycle (hin k hk) hredelivered hdelivered
  · intro hnodup hin k hk
    obtain ⟨n, b₁, payload, -, hredelivered, hfresh, hdelivered⟩ :=
      AgentRun.cycle_steps (r.conserved_after k).bounded
    have hnext := hin (k + 1) hk
    have hpre : (r.collectedIn (k + 1)).Sublist (r.collectedIn cycles) :=
      AgentRun.collectedIn_sublist hk
    rw [AgentRun.collectedIn_succ hfresh] at hnext hpre
    exact redeliversInOrder_of_inOrder (hnodup.sublist hpre) (hin k (Nat.le_of_lt hk)) hredelivered
      hdelivered hnext

namespace Scenario

/-- The Collector cannot be reached; every payload is stamped with its own second. -/
def outage : AgentRun where
  nodeId := "node-1"
  collectors := []
  remediationEnabled := false
  maxEntries := 1000
  send _ := .error ⟨.retryableTransportError "collector connection failed"
    (.endpoint "/api/v1/metrics"), rfl⟩
  collect _ := .ok []
  now calls := clock (Fin.ofNat 86400 calls)
  report _ := .ok ()
  execute _ := .ok ⟨.failed, none⟩

/-- The instants at which some payloads were collected. -/
def collectionTimes (payloads : List NodeMetricsPayload) : List Instant :=
  payloads.map fun p => p.collectedAt.instant

theorem collectionTimes_outage :
    (collectionTimes (outage.collectedIn 52)).Pairwise (· < ·) ∧
      ¬ (collectionTimes (outage.after 52).file).Pairwise (· < ·) := by
  decide +kernel

/-- After 52 failed cycles the first 50 payloads stand behind the 51st. -/
theorem not_buffer_in_order :
    ¬ ∀ (r : AgentRun) (cycles : ℕ), InOrder (r.collectedIn cycles) (r.after cycles) := by
  intro h
  obtain ⟨hcollected, hfile⟩ := collectionTimes_outage
  exact hfile (hcollected.sublist ((h outage 52).1.map _))

end Scenario

end ClusterPulse
