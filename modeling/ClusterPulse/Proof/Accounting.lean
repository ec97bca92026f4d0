import ClusterPulse.Network
import ClusterPulse.Proof.AgentCycles
import ClusterPulse.Proof.BufferFaults

/-!
# Accounting for payloads

Where every part of a scheduler keeps a ledger, of the payloads that have arrived and of those that the
buffer holds, so do its cycles: each payload that was there or is collected arrives, is evicted or
stays (`KeepsLedger.runForeverTelling`), and as long as deliveries succeed, fifty payloads of a backlog
arrive in every cycle (`KeepsLedger.drains`).
-/

namespace ClusterPulse

open Prog

/-- In `w`, `arrived` have arrived and the buffer holds `entries`. -/
abbrev PayloadLedger (σ : Type) : Type :=
  List NodeMetricsPayload → List NodeMetricsPayload → σ → Prop

variable {Op : Type} {Res : Op → Type} {σ : Type} {h : Handler Op Res AgentError σ}
  {L : PayloadLedger σ} {Good : NodeMetricsPayload → Prop} {E : AgentError → Prop} {max : ℤ}
  {arrived new entries evicted l l' rest : List NodeMetricsPayload} {w w' : σ}

/-- A run that ends as told. -/
abbrev Meets {α : Type} (h : Handler Op Res AgentError σ) (p : Prog Op Res AgentError α) (w : σ)
    (P : α → σ → Prop) (E : AgentError → σ → Prop) : Prop :=
  Runs h (fun _ _ => True) p w (Ends P E)

theorem Meets.map {α β : Type} {p : Prog Op Res AgentError α} {P : α → σ → Prop}
    {F : AgentError → σ → Prop} (f : α → β) (hp : Meets h p w P F) :
    Meets h (f <$> p) w (fun b w' => ∃ a, b = f a ∧ P a w') F := by
  refine Runs.map hp fun r w' hr => ?_
  cases r with
  | ok a => exact ⟨a, rfl, hr⟩
  | error e => exact hr

theorem meets_of_safe {α : Type} {p : Prog Op Res AgentError α} {I : σ → Prop} {R : σ → σ → Prop}
    (hp : Safe h I R E p) (hw : I w) :
    Meets h p w (fun _ w' => I w') fun e w' => E e ∧ I w' :=
  (hp w hw).mono (fun _ _ _ => trivial) fun _ _ hr => hr

/-! ## What becomes of a payload -/

/-- The entries and the payloads `l` have arrived, were evicted, or are in the buffer. -/
def Balanced (L : PayloadLedger σ) (max : ℤ) (arrived entries l : List NodeMetricsPayload)
    (w : σ) : Prop :=
  ∃ new evicted rest, L (arrived ++ new) rest w ∧ (entries ++ l).Perm (new ++ evicted ++ rest) ∧
    ((entries ++ l).length ≤ max → evicted = [])

theorem balanced_nil (hL : L arrived entries w) : Balanced L max arrived entries [] w :=
  ⟨[], [], entries, by rwa [List.append_nil], by simp, fun _ => rfl⟩

/-- First `l`, then `l'`. -/
theorem Balanced.after (h : Balanced L max (arrived ++ new) rest l' w)
    (hperm : (entries ++ l).Perm (new ++ evicted ++ rest))
    (hfull : (entries ++ l).length ≤ max → evicted = []) :
    Balanced L max arrived entries (l ++ l') w := by
  obtain ⟨new', evicted', rest', hL, hperm', hfull'⟩ := h
  refine ⟨new ++ new', evicted ++ evicted', rest', by rwa [← List.append_assoc], ?_, ?_⟩
  · rw [← List.append_assoc]
    refine (hperm.append_right l').trans ?_
    rw [List.append_assoc (new ++ evicted)]
    refine (hperm'.append_left (new ++ evicted)).trans ?_
    simp only [List.append_assoc]
    refine List.Perm.append_left new ?_
    simp only [← List.append_assoc]
    exact ((List.perm_append_comm).append_right evicted').append_right rest'
  · intro hle
    have hlength := hperm.length_eq
    simp only [List.length_append] at hle hlength hfull hfull'
    rw [hfull (by omega), hfull' (by omega), List.append_nil]

/-- What stays was there. -/
theorem good_of_perm (hgood : ∀ q ∈ entries ++ l, Good q)
    (hperm : (entries ++ l).Perm (new ++ evicted ++ rest)) : ∀ q ∈ rest, Good q :=
  fun q hq => hgood q (hperm.mem_iff.2 (List.mem_append_right _ hq))

/-! ## The parts of a scheduler -/

namespace AgentScheduler

/-- The parts of a scheduler keep the ledger; `Good` payloads survive in the buffer.  The clock and
the executor raise an `E` only, and so does a report, up to the transport errors. -/
structure KeepsLedger (h : Handler Op Res AgentError σ) (L : PayloadLedger σ)
    (Good : NodeMetricsPayload → Prop) (max : ℤ) (E : AgentError → Prop)
    (s : AgentScheduler Op Res) : Prop where
  drain : ∀ arrived entries n w, L arrived entries w → (∀ q ∈ entries, Good q) →
    Meets h (s.buffer.drain n) w
      (fun l w' => l = entries.take n ∧ L arrived (entries.drop n) w') fun _ _ => False
  enqueue : ∀ arrived entries payload w, L arrived entries w → (∀ q ∈ entries ++ [payload], Good q) →
    Meets h (s.buffer.enqueue payload) w
      (fun _ w' => L arrived (FileBuffer.evict max (entries ++ [payload])) w') fun _ _ => False
  send : ∀ arrived entries payload w, L arrived entries w →
    Meets h (s.transport.send payload) w (fun _ w' => L (arrived ++ [payload]) entries w')
      fun e w' => e.isTransportError = true → e.isFatal = false ∧ L arrived entries w'
  report : ∀ arrived entries actionId result w, L arrived entries w →
    Meets h (s.transport.reportActionResult actionId result) w (fun _ w' => L arrived entries w')
      fun e w' => OrTransport E e ∧ L arrived entries w'
  collect : ∀ c ∈ s.collectors, ∀ arrived entries w, L arrived entries w →
    Meets h c.collect w (fun _ w' => L arrived entries w') fun _ w' => L arrived entries w'
  now : ∀ arrived entries w, L arrived entries w →
    Meets h s.now w (fun _ w' => L arrived entries w') fun e _ => E e
  execute : ∀ execute, s.executor = some execute → ∀ action arrived entries w, L arrived entries w →
    Meets h (execute action) w (fun _ w' => L arrived entries w') fun e _ => E e

namespace KeepsLedger

variable {s : AgentScheduler Op Res}

/-- What an eviction takes comes first. -/
theorem exists_evicted (max : ℤ) (entries : List NodeMetricsPayload) :
    ∃ evicted, evicted ++ FileBuffer.evict max entries = entries ∧
      (entries.length ≤ max → evicted = []) := by
  unfold FileBuffer.evict
  split_ifs with hfull
  · exact ⟨entries.take (entries.length - max).toNat, List.take_append_drop .., fun hle =>
      absurd hle (not_le.2 hfull)⟩
  · exact ⟨[], rfl, fun _ => rfl⟩

theorem enqueueAll (hs : s.KeepsLedger h L Good max E) (hL : L arrived entries w)
    (hgood : ∀ q ∈ entries ++ l, Good q) :
    Meets h (s.enqueueAll l) w (fun _ w' => Balanced L max arrived entries l w') fun _ _ => False := by
  induction l generalizing entries w with
  | nil => exact balanced_nil hL
  | cons payload l ih =>
    have hpayload : ∀ q ∈ entries ++ [payload], Good q := fun q hq => hgood q (by
      simp only [List.mem_append, List.mem_cons, List.not_mem_nil, or_false] at hq ⊢
      tauto)
    refine (hs.enqueue arrived entries payload w hL hpayload).andThen fun _ w₁ h₁ => ?_
    obtain ⟨evicted, hsplit, hfull⟩ := exists_evicted max (entries ++ [payload])
    have hrest : ∀ q ∈ FileBuffer.evict max (entries ++ [payload]) ++ l, Good q := by
      intro q hq
      refine hgood q ?_
      rw [List.append_cons, ← hsplit]
      simp only [List.mem_append] at hq ⊢
      tauto
    refine (ih h₁ hrest).post fun r w' hr => ?_
    cases r with
    | error e => exact hr
    | ok _ =>
      have hr' : Balanced L max (arrived ++ []) (FileBuffer.evict max (entries ++ [payload])) l w' := by
        rwa [List.append_nil]
      have hperm : (entries ++ [payload]).Perm
          ([] ++ evicted ++ FileBuffer.evict max (entries ++ [payload])) := by simp [hsplit]
      exact hr'.after hperm hfull

theorem attemptDelivery (hs : s.KeepsLedger h L Good max E) (hL : L arrived entries w)
    (payload : NodeMetricsPayload) : Meets h (s.attemptDelivery payload) w
      (fun delivery w' => match delivery with
        | .acknowledged _ => L (arrived ++ [payload]) entries w'
        | .failed => L arrived entries w'
        | .rejected => False) fun _ _ => True := by
  refine Runs.tryCatch (Meets.map _ (hs.send arrived entries payload w hL)) ?_ ?_
  · rintro delivery w' ⟨ack, rfl, h'⟩
    exact h'
  · intro e w' he
    split_ifs with hfatal htransport
    · have htransport : e.isTransportError = true := by
        cases e with
        | fatalTransportError => rfl
        | _ => cases hfatal
      rw [(he htransport).1] at hfatal
      cases hfatal
    · exact (he htransport).2
    · trivial

theorem redeliver (hs : s.KeepsLedger h L Good max E) (hL : L arrived entries w)
    (hgood : ∀ q ∈ entries ++ l, Good q) :
    Meets h (s.redeliver l) w (fun _ w' => Balanced L max arrived entries l w') fun _ _ => True := by
  induction l generalizing arrived w with
  | nil => exact balanced_nil hL
  | cons payload l ih =>
    refine (hs.attemptDelivery hL payload).andThen fun delivery w₁ h₁ => ?_
    cases delivery with
    | rejected => exact h₁.elim
    | failed =>
      refine (hs.enqueueAll h₁ hgood).post fun r w' hr => ?_
      cases r with
      | error e => trivial
      | ok _ => exact hr
    | acknowledged ack =>
      have hrest : ∀ q ∈ entries ++ l, Good q := fun q hq => hgood q (by
        simp only [List.mem_append, List.mem_cons] at hq ⊢
        tauto)
      refine (ih h₁ hrest).post fun r w' hr => ?_
      cases r with
      | error e => trivial
      | ok _ =>
        have hperm : (entries ++ [payload]).Perm ([payload] ++ [] ++ entries) :=
          List.perm_append_comm
        exact Balanced.after hr hperm fun _ => rfl

/-- The payload is in no column yet. -/
theorem collects (hs : s.KeepsLedger h L Good max E) (hL : L arrived entries w) :
    Meets h s.collect w (fun _ w' => L arrived entries w') fun e _ => E e := by
  have hcollectors : Meets h (s.collectors.foldlM collectFrom ([], [])) w
      (fun _ w' => L arrived entries w') fun e _ => E e := by
    suffices hloop : ∀ (cs : List (MetricCollector Op Res)), (∀ c ∈ cs, c ∈ s.collectors) →
        ∀ found w, L arrived entries w → Meets h (cs.foldlM collectFrom found) w
          (fun _ w' => L arrived entries w') fun e _ => E e from
      hloop _ (fun _ hc => hc) _ _ hL
    intro cs hcs
    induction cs with
    | nil => exact fun _ _ hL => hL
    | cons c cs ih =>
      intro found w hL
      rw [List.foldlM_cons]
      have hpass : Meets h (collectFrom found c) w (fun _ w' => L arrived entries w')
          fun e _ => E e := by
        have hsamples := hs.collect c (hcs c List.mem_cons_self) arrived entries w hL
        refine Runs.tryCatch (Q := fun _ w' => L arrived entries w') ?_ (fun _ _ h₁ => h₁)
          fun _ _ h₁ => h₁
        exact hsamples.bind (fun _ _ h₁ => h₁) fun _ _ h₁ => h₁
      exact hpass.andThen fun found' w₁ h₁ =>
        ih (fun c' hc' => hcs c' (List.mem_cons_of_mem c hc')) found' w₁ h₁
  exact hcollectors.andThen fun found w₁ h₁ =>
    (hs.now arrived entries w₁ h₁).andThen fun _ _ h₂ => h₂

theorem executePendingActions (hs : s.KeepsLedger h L Good max E) (hL : L arrived entries w)
    (ack : Ack) : Meets h (s.executePendingActions ack) w (fun _ w' => L arrived entries w')
      fun e _ => E e := by
  unfold AgentScheduler.executePendingActions
  split
  · exact hL
  · rename_i execute hexecute
    induction ack.pendingActions generalizing w with
    | nil => exact hL
    | cons action actions ih =>
      refine (hs.execute execute hexecute action arrived entries w hL).andThen fun result w₁ h₁ => ?_
      have hreport : Meets h (s.reportResult action.actionId result) w₁
          (fun _ w' => L arrived entries w') fun e _ => E e := by
        refine (hs.report arrived entries _ _ w₁ h₁).tryCatch (fun _ _ h₂ => h₂) fun e w₂ h₂ => ?_
        split_ifs with htransport
        · exact h₂.2
        · exact h₂.1.resolve_left htransport
      exact hreport.andThen fun _ w₂ h₂ => ih h₂

theorem deliver (hs : s.KeepsLedger h L Good max E) (hL : L arrived entries w)
    {payload : NodeMetricsPayload} (hgood : ∀ q ∈ entries ++ [payload], Good q) :
    Meets h (s.deliver payload) w (fun _ w' => Balanced L max arrived entries [payload] w')
      fun _ _ => True := by
  refine (hs.attemptDelivery hL payload).andThen fun delivery w₁ h₁ => ?_
  cases delivery with
  | rejected => exact h₁.elim
  | failed =>
    refine (hs.enqueue arrived entries payload w₁ h₁ hgood).post fun r w' hr => ?_
    cases r with
    | error e => trivial
    | ok _ =>
      obtain ⟨evicted, hsplit, hfull⟩ := exists_evicted max (entries ++ [payload])
      exact ⟨[], evicted, _, by rwa [List.append_nil], by simp [hsplit], hfull⟩
  | acknowledged ack =>
    refine (hs.executePendingActions h₁ ack).post fun r w' hr => ?_
    cases r with
    | error e => trivial
    | ok _ => exact ⟨[payload], [], entries, hr, List.perm_append_comm, fun _ => rfl⟩

/-- The batch is taken out of the buffer before it is redelivered. -/
theorem drainBuffer (hs : s.KeepsLedger h L Good max E) (hL : L arrived entries w)
    (hgood : ∀ q ∈ entries, Good q) :
    Meets h s.drainBuffer w (fun _ w' => Balanced L max arrived entries [] w') fun _ _ => True := by
  refine (hs.drain arrived entries _ w hL hgood).bind (fun l w₁ h₁ => ?_) fun _ _ hfalse =>
    hfalse.elim
  obtain ⟨rfl, h₁⟩ := h₁
  have hperm : (entries.drop defaultBufferDrainBatchSize ++
      entries.take defaultBufferDrainBatchSize).Perm entries := by
    refine List.perm_append_comm.trans ?_
    rw [List.take_append_drop]
  refine (hs.redeliver h₁ fun q hq => hgood q (hperm.mem_iff.1 hq)).post fun r w' hr => ?_
  cases r with
  | error e => trivial
  | ok _ =>
    obtain ⟨new, evicted, rest, hL', hperm', hfull⟩ := hr
    refine ⟨new, evicted, rest, hL', ?_, fun hle => hfull ?_⟩
    · rw [List.append_nil]
      exact hperm.symm.trans hperm'
    · rwa [hperm.length_eq, ← List.append_nil entries]

theorem runOnceTelling (hs : s.KeepsLedger h L Good max E) (hL : L arrived entries w)
    (hgood : ∀ q ∈ entries, Good q) : Meets h s.runOnceTelling w
      (fun payload w' => Good payload → Balanced L max arrived entries [payload] w')
      fun _ _ => True := by
  refine (hs.drainBuffer hL hgood).andThen fun _ w₁ h₁ => ?_
  obtain ⟨new, evicted, rest, h₁, hperm, hfull⟩ := h₁
  refine (hs.collects h₁).bind (fun payload w₂ h₂ => ?_) fun _ _ _ => trivial
  by_cases hpayload : Good payload
  · have hrest : ∀ q ∈ rest ++ [payload], Good q := by
      intro q hq
      obtain hq | hq := List.mem_append.1 hq
      · exact good_of_perm (by simpa using hgood) hperm q hq
      · rwa [List.mem_singleton.1 hq]
    exact (hs.deliver h₂ hrest).andThen fun _ w₃ h₃ _ => h₃.after hperm hfull
  · -- nothing is said of a payload that would not survive in the buffer
    exact Runs.bind (Q := fun _ _ => True) (runs_of_run trivial)
      (fun _ _ _ hgood' => absurd hgood' hpayload) fun _ _ _ => trivial

/-- Every payload that was there or is collected has arrived, was evicted, or is in the buffer. -/
theorem runForeverTelling (hs : s.KeepsLedger h L Good max E) {shouldStop : Prog Op Res AgentError Bool}
    {sleep : Prog Op Res AgentError Unit}
    (hstop : ∀ arrived entries w, L arrived entries w →
      Meets h shouldStop w (fun _ w' => L arrived entries w') fun _ _ => True)
    (hsleep : ∀ arrived entries w, L arrived entries w →
      Meets h sleep w (fun _ w' => L arrived entries w') fun _ _ => True)
    (cycles : ℕ) (hL : L arrived entries w) (hgood : ∀ q ∈ entries, Good q) :
    Meets h (s.runForeverTelling shouldStop sleep cycles) w
      (fun told w' => (∀ q ∈ told.1, Good q) → Balanced L max arrived entries told.1 w')
      fun _ _ => True := by
  induction cycles generalizing arrived entries w with
  | zero => exact fun _ => balanced_nil hL
  | succ cycles ih =>
    refine (hstop arrived entries w hL).andThen fun stop w₁ h₁ => ?_
    cases stop with
    | true => exact fun _ => balanced_nil h₁
    | false =>
      refine (hs.runOnceTelling h₁ hgood).andThen fun payload w₂ h₂ => ?_
      by_cases hpayload : Good payload
      · obtain ⟨new, evicted, rest, h₂, hperm, hfull⟩ := h₂ hpayload
        have hall : ∀ q ∈ entries ++ [payload], Good q := by
          intro q hq
          obtain hq | hq := List.mem_append.1 hq
          · exact hgood q hq
          · rwa [List.mem_singleton.1 hq]
        refine (hsleep _ _ w₂ h₂).andThen fun _ w₃ h₃ => ?_
        refine (ih h₃ (good_of_perm hall hperm)).andThen fun told w₄ h₄ htold => ?_
        exact (h₄ (List.forall_mem_cons.1 htold).2).after hperm hfull
      · refine Runs.bind (Q := fun _ _ => True) (runs_of_run trivial) (fun _ w₃ _ => ?_)
          fun _ _ _ => trivial
        refine Runs.bind (Q := fun _ _ => True) (runs_of_run trivial) (fun told w₄ _ htold => ?_)
          fun _ _ _ => trivial
        exact absurd (htold payload List.mem_cons_self) hpayload

/-! ## While deliveries succeed -/

/-- Every payload arrives that is sent and satisfies `F`, and only such payloads are collected. -/
structure Delivers (h : Handler Op Res AgentError σ) (L : PayloadLedger σ)
    (F : NodeMetricsPayload → Prop) (s : AgentScheduler Op Res) : Prop where
  send : ∀ arrived entries payload w, F payload → L arrived entries w →
    Meets h (s.transport.send payload) w (fun _ w' => L (arrived ++ [payload]) entries w')
      fun _ _ => False
  collected : Yields h (fun _ => True) F s.collect

section Delivers

variable {F : NodeMetricsPayload → Prop} {payload : NodeMetricsPayload}

theorem attemptDelivery_ok (hs : Delivers h L F s) (hpayload : F payload) (hL : L arrived entries w) :
    Meets h (s.attemptDelivery payload) w
      (fun delivery w' => (∃ ack, delivery = .acknowledged ack) ∧ L (arrived ++ [payload]) entries w')
      fun _ _ => False := by
  refine Runs.tryCatch (Meets.map _ (hs.send arrived entries payload w hpayload hL)) ?_
    fun _ _ hfalse => hfalse.elim
  rintro delivery w' ⟨ack, rfl, h'⟩
  exact ⟨⟨ack, rfl⟩, h'⟩

theorem redeliver_ok (hs : Delivers h L F s) (hl : ∀ q ∈ l, F q) (hL : L arrived entries w) :
    Meets h (s.redeliver l) w (fun _ w' => L (arrived ++ l) entries w') fun _ _ => False := by
  induction l generalizing arrived w with
  | nil =>
    show L (arrived ++ []) entries w
    rwa [List.append_nil]
  | cons payload l ih =>
    obtain ⟨hpayload, hl⟩ := List.forall_mem_cons.1 hl
    refine (attemptDelivery_ok hs hpayload hL).andThen fun delivery w₁ h₁ => ?_
    obtain ⟨⟨ack, rfl⟩, h₁⟩ := h₁
    have hrest := ih hl h₁
    rwa [List.append_assoc] at hrest

theorem runOnceTelling_ok (hs : s.KeepsLedger h L Good max E) (hsend : Delivers h L F s)
    (hL : L arrived entries w) (hgood : ∀ q ∈ entries, Good q) (hF : ∀ q ∈ entries, F q) :
    Meets h s.runOnceTelling w
      (fun payload w' => L (arrived ++ entries.take defaultBufferDrainBatchSize ++ [payload])
        (entries.drop defaultBufferDrainBatchSize) w') fun e _ => E e := by
  have hdrain : Meets h s.drainBuffer w
      (fun _ w' => L (arrived ++ entries.take defaultBufferDrainBatchSize)
        (entries.drop defaultBufferDrainBatchSize) w') fun e _ => E e := by
    refine (hs.drain arrived entries _ w hL hgood).bind (fun l w₁ h₁ => ?_) fun _ _ hfalse =>
      hfalse.elim
    obtain ⟨rfl, h₁⟩ := h₁
    refine (redeliver_ok hsend (fun q hq => hF q (List.mem_of_mem_take hq)) h₁).post
      fun r w' hr => ?_
    cases r with
    | error e => exact hr.elim
    | ok _ => exact hr
  refine hdrain.andThen fun _ w₁ h₁ => ?_
  have hcollect : Runs h (fun _ _ => True) s.collect w₁ fun r _ => ∀ payload, r = .ok payload →
      F payload :=
    runs_of_run fun payload hr => hsend.collected w₁ trivial payload hr
  refine ((hs.collects h₁).and hcollect).bind (fun payload w₂ h₂ => ?_) fun _ _ he => he.1
  have hdeliver : Meets h (s.deliver payload) w₂
      (fun _ w' => L (arrived ++ entries.take defaultBufferDrainBatchSize ++ [payload])
        (entries.drop defaultBufferDrainBatchSize) w') fun e _ => E e := by
    refine (attemptDelivery_ok hsend (h₂.2 payload rfl) h₂.1).bind (fun delivery w₃ h₃ => ?_)
      fun _ _ hfalse => hfalse.elim
    obtain ⟨⟨ack, rfl⟩, h₃⟩ := h₃
    exact hs.executePendingActions h₃ ack
  exact hdeliver.andThen fun _ _ h₃ => h₃

/-- In so many cycles, fifty times as many entries arrive, and the payloads of the cycles. -/
theorem drains (hs : s.KeepsLedger h L Good max E) (hsend : Delivers h L F s)
    {shouldStop : Prog Op Res AgentError Bool} {sleep : Prog Op Res AgentError Unit}
    (hstop : ∀ arrived entries w, L arrived entries w →
      Meets h shouldStop w (fun _ w' => L arrived entries w') fun e _ => E e)
    (hsleep : ∀ arrived entries w, L arrived entries w →
      Meets h sleep w (fun _ w' => L arrived entries w') fun e _ => E e)
    (cycles : ℕ) (hL : L arrived entries w) (hgood : ∀ q ∈ entries, Good q)
    (hF : ∀ q ∈ entries, F q) :
    Meets h (s.runForeverTelling shouldStop sleep cycles) w
      (fun told w' => (told.2 = false → told.1.length = cycles) ∧ ∃ new,
        L (arrived ++ new) (entries.drop (defaultBufferDrainBatchSize * told.1.length)) w' ∧
        new.Perm (entries.take (defaultBufferDrainBatchSize * told.1.length) ++ told.1))
      fun e _ => E e := by
  induction cycles generalizing arrived entries w with
  | zero => exact ⟨fun _ => rfl, [], by simpa using hL, by simp⟩
  | succ cycles ih =>
    refine (hstop arrived entries w hL).andThen fun stop w₁ h₁ => ?_
    cases stop with
    | true => exact ⟨nofun, [], by simpa using h₁, by simp⟩
    | false =>
      refine (runOnceTelling_ok hs hsend h₁ hgood hF).andThen fun payload w₂ h₂ => ?_
      refine (hsleep _ _ w₂ h₂).andThen fun _ w₃ h₃ => ?_
      have hrest : ∀ q ∈ entries.drop defaultBufferDrainBatchSize, q ∈ entries := fun q hq =>
        List.mem_of_mem_drop hq
      refine (ih h₃ (fun q hq => hgood q (hrest q hq)) fun q hq => hF q (hrest q hq)).andThen
        fun told w₄ h₄ => ?_
      obtain ⟨hlength, new, h₄, hperm⟩ := h₄
      refine ⟨fun hrunning => by rw [List.length_cons, hlength hrunning],
        entries.take defaultBufferDrainBatchSize ++ payload :: new, ?_, ?_⟩
      · rw [List.length_cons, Nat.mul_succ, Nat.add_comm, ← List.drop_drop]
        simpa using h₄
      · rw [List.length_cons, Nat.mul_succ, Nat.add_comm, List.take_add, List.append_assoc]
        exact ((hperm.cons payload).trans List.perm_middle.symm).append_left _

end Delivers

end KeepsLedger

end AgentScheduler

end ClusterPulse
