import ClusterPulse.Collector.Scheduler
import Mathlib.Data.List.Basic

/-!
# At most one scheduler loop

One stop event serves every thread the scheduler ever starts, and `stop` forgets a thread that has
not ended when `join` gives up.  A thread that `start` finds still able to run jobs loses its stop
signal and goes on next to the new one; as long as no `start` finds such a thread, there is one loop
at most, and a stopped thread begins no further pass.
-/

namespace ClusterPulse

namespace LoopThread

/-- The thread may still run a job: it has jobs, and its wait has not been ended by the event. -/
def canRunJobs (schedules : List JobSchedule) (t : LoopThread) : Bool :=
  match t.phase with
  | .started => !schedules.isEmpty
  | .woken => false
  | .finished => false
  | _ => true

/-- The thread is inside a job. -/
def runsJob (t : LoopThread) : Bool :=
  match t.phase with
  | .running _ _ => true
  | _ => false

theorem canRunJobs_of_runsJob {schedules : List JobSchedule} {t : LoopThread}
    (h : t.runsJob = true) : t.canRunJobs schedules = true := by
  unfold runsJob at h
  unfold canRunJobs
  cases hphase : t.phase <;> simp_all

/-- A stopped thread has begun no pass since, and if it can still run jobs then it is awake and will
find the event set. -/
def Obeys (schedules : List JobSchedule) (stopEvent : Bool) (t : LoopThread) : Prop :=
  ∀ n ∈ t.stoppedAt, t.passes = n ∧
    (t.canRunJobs schedules = true → stopEvent = true ∧ ∀ deadline, t.phase ≠ .waiting deadline)

theorem obeys_new (schedules : List JobSchedule) (stopEvent : Bool) :
    Obeys schedules stopEvent .new := nofun

/-- A thread that can run no more jobs obeys whatever becomes of the event. -/
theorem Obeys.of_not_canRunJobs {schedules : List JobSchedule} {stopEvent stopEvent' : Bool}
    {t : LoopThread} (h : t.Obeys schedules stopEvent) (ht : t.canRunJobs schedules = false) :
    t.Obeys schedules stopEvent' := fun n hn =>
  ⟨(h n hn).1, fun hcan => absurd (ht.symm.trans hcan) Bool.false_ne_true⟩

/-! ### The stop signal -/

section Notified

variable {schedules : List JobSchedule} {t : LoopThread}

theorem notified_stoppedAt : t.notified.stoppedAt = t.stoppedAt := by
  unfold notified
  split <;> rfl

theorem notified_passes : t.notified.passes = t.passes := by
  unfold notified
  split <;> rfl

theorem notified_phase_ne_waiting (deadline : ℚ) : t.notified.phase ≠ .waiting deadline := by
  unfold notified
  split
  · exact nofun
  · rename_i h
    exact h deadline

theorem canRunJobs_notified (h : t.notified.canRunJobs schedules = true) :
    t.canRunJobs schedules = true := by
  unfold notified at h
  split at h
  · cases h
  · exact h

theorem Obeys.notified {stopEvent : Bool} (h : t.Obeys schedules stopEvent) :
    t.notified.Obeys schedules true := fun n hn =>
  ⟨notified_passes.trans (h n (notified_stoppedAt ▸ hn)).1,
    fun _ => ⟨rfl, notified_phase_ne_waiting⟩⟩

theorem Obeys.markStopped (h : t.Obeys schedules true)
    (hawake : ∀ deadline, t.phase ≠ .waiting deadline) : t.markStopped.Obeys schedules true := by
  intro n hn
  have hn : t.stoppedAt.getD t.passes = n := by simpa [LoopThread.markStopped] using hn
  refine ⟨?_, fun _ => ⟨rfl, hawake⟩⟩
  show t.passes = n
  cases hstopped : t.stoppedAt with
  | none => rwa [hstopped] at hn
  | some m =>
    rw [hstopped] at hn
    obtain rfl : m = n := hn
    exact (h m hstopped).1

end Notified

end LoopThread

/-! ## One step of a thread -/

namespace PeriodicJobScheduler

open LoopThread

variable {s : PeriodicJobScheduler} {t : LoopThread}

theorem waitPhase_of_stopEvent (h : s.stopEvent = true) (timeout : Double) :
    s.waitPhase timeout = .finished := if_pos h

/-- A thread that can run no more jobs never can again. -/
theorem canRunJobs_of_threadStep (h : (s.threadStep t).canRunJobs s.schedules = true) :
    t.canRunJobs s.schedules = true := by
  unfold threadStep at h
  unfold canRunJobs
  cases hphase : t.phase with
  | started =>
    rw [hphase] at h
    by_cases hempty : s.schedules.isEmpty = true
    · simp [hempty, canRunJobs] at h
    · simp [hempty]
  | woken =>
    rw [hphase] at h
    cases h
  | finished =>
    rw [hphase] at h
    simp only [canRunJobs, hphase] at h
    cases h
  | _ => rfl

theorem stoppedAt_threadStep : (s.threadStep t).stoppedAt = t.stoppedAt := by
  unfold threadStep
  split
  case h_1 => split_ifs <;> rfl
  case h_3 => split_ifs <;> rfl
  case h_5 =>
    split
    · rfl
    · split_ifs <;> rfl
  all_goals rfl

/-- Only a thread that is asleep begins a pass. -/
theorem passes_threadStep (h : ∀ deadline, t.phase ≠ .waiting deadline) :
    (s.threadStep t).passes = t.passes := by
  unfold threadStep
  split
  case h_1 => split_ifs <;> rfl
  case h_3 deadline hphase => exact absurd hphase (h deadline)
  case h_5 =>
    split
    · rfl
    · split_ifs <;> rfl
  all_goals rfl

/-- Only a thread that finds the event clear falls asleep. -/
theorem waiting_of_threadStep {deadline : ℚ} (hstop : s.stopEvent = true)
    (h : (s.threadStep t).phase = .waiting deadline) : t.phase = .waiting deadline := by
  unfold threadStep at h
  split at h
  case h_1 => split_ifs at h
  case h_2 =>
    rw [waitPhase_of_stopEvent hstop] at h
    cases h
  case h_3 =>
    split_ifs at h
    exact h
  case h_5 =>
    split at h
    · cases h
    · split_ifs at h
  case h_7 => exact h
  all_goals cases h

/-- A stopped thread begins no pass. -/
theorem obeys_threadStep (h : t.Obeys s.schedules s.stopEvent) :
    (s.threadStep t).Obeys s.schedules s.stopEvent := by
  intro n hn
  obtain ⟨hpasses, hcan⟩ := h n (stoppedAt_threadStep ▸ hn)
  by_cases hlive : t.canRunJobs s.schedules = true
  · obtain ⟨hstop, hawake⟩ := hcan hlive
    exact ⟨(passes_threadStep hawake).trans hpasses,
      fun _ => ⟨hstop, fun deadline hd => hawake deadline (waiting_of_threadStep hstop hd)⟩⟩
  · have hawake : ∀ deadline, t.phase ≠ .waiting deadline := fun deadline hd =>
      hlive (by rw [canRunJobs, hd])
    exact ⟨(passes_threadStep hawake).trans hpasses,
      fun hcan' => absurd (canRunJobs_of_threadStep hcan') hlive⟩

end PeriodicJobScheduler

/-! ## Lists of threads -/

section Lists

variable {α : Type} {p : α → Bool} {f : α → α}

theorem countP_modify_le (hf : ∀ a, p (f a) = true → p a = true) (l : List α) (i : ℕ) :
    (l.modify i f).countP p ≤ l.countP p := by
  induction l generalizing i with
  | nil => simp
  | cons a l ih =>
    cases i with
    | zero =>
      rw [List.modify_zero_cons, List.countP_cons, List.countP_cons]
      have ha := hf a
      by_cases hfa : p (f a) = true
      · simp [hfa, ha hfa]
      · simp [hfa]
    | succ i =>
      have hi := ih i
      rw [List.modify_succ_cons, List.countP_cons, List.countP_cons]
      omega

theorem countP_map_le (hf : ∀ a, p (f a) = true → p a = true) (l : List α) :
    (l.map f).countP p ≤ l.countP p := by
  rw [List.countP_map]
  exact List.countP_mono_left fun a _ h => hf a h

theorem forall_mem_modify {Q : α → Prop} (hf : ∀ a, Q a → Q (f a)) {l : List α}
    (h : ∀ a ∈ l, Q a) (i : ℕ) : ∀ a ∈ l.modify i f, Q a := by
  induction l generalizing i with
  | nil => simp
  | cons a l ih =>
    obtain ⟨ha, hl⟩ := List.forall_mem_cons.1 h
    cases i with
    | zero => exact List.forall_mem_cons.2 ⟨hf a ha, hl⟩
    | succ i => exact List.forall_mem_cons.2 ⟨ha, ih hl i⟩

end Lists

/-! ## Runs -/

namespace PeriodicJobScheduler

open LoopThread

/-- One loop: at most one thread can run jobs, at most one is inside a job, and a thread that `stop`
was called for has begun no pass since. -/
structure OneLoop (s : PeriodicJobScheduler) : Prop where
  one_thread : s.threads.countP (canRunJobs s.schedules) ≤ 1
  no_overlap : s.threads.countP runsJob ≤ 1
  stays_stopped : ∀ t ∈ s.threads, ∀ n ∈ t.stoppedAt, t.passes = n

/-- A `start` that makes a new thread finds none that can still run jobs. -/
def StartsAlone (s : PeriodicJobScheduler) : SchedulerEvent → Prop
  | .start => s.Spawns → s.threads.countP (canRunJobs s.schedules) = 0
  | _ => True

instance (s : PeriodicJobScheduler) : (e : SchedulerEvent) → Decidable (s.StartsAlone e)
  | .start => inferInstanceAs (Decidable (_ → _))
  | .stop _ => isTrue trivial
  | .joinReturns => isTrue trivial
  | .thread _ => isTrue trivial
  | .elapse _ => isTrue trivial

/-- The invariant behind `OneLoop`. -/
structure Orderly (s : PeriodicJobScheduler) : Prop where
  one_thread : s.threads.countP (canRunJobs s.schedules) ≤ 1
  no_jobs : s.schedules.isEmpty = true → s.threads.countP (canRunJobs s.schedules) = 0
  obeys : ∀ t ∈ s.threads, t.Obeys s.schedules s.stopEvent

variable {s : PeriodicJobScheduler}

theorem orderly_init (schedules : List JobSchedule) : Orderly (init schedules) :=
  ⟨Nat.zero_le _, fun _ => rfl, by simp [init]⟩

theorem Orderly.oneLoop (h : Orderly s) : OneLoop s where
  one_thread := h.one_thread
  no_overlap := le_trans (List.countP_mono_left fun _ _ => canRunJobs_of_runsJob) h.one_thread
  stays_stopped t ht n hn := (h.obeys t ht n hn).1

/-- What happens to the threads one by one, as long as none gets able to run jobs. -/
theorem Orderly.of_le {s' : PeriodicJobScheduler} (h : Orderly s)
    (hschedules : s'.schedules = s.schedules)
    (hle : s'.threads.countP (canRunJobs s.schedules) ≤ s.threads.countP (canRunJobs s.schedules))
    (hobeys : ∀ t ∈ s'.threads, t.Obeys s.schedules s'.stopEvent) : Orderly s' where
  one_thread := hschedules ▸ hle.trans h.one_thread
  no_jobs hempty := by
    rw [hschedules] at hempty ⊢
    have hnone := h.no_jobs hempty
    omega
  obeys := hschedules ▸ hobeys

theorem countP_start (hspawns : s.Spawns) : s.start.threads.countP (canRunJobs s.schedules) =
    s.threads.countP (canRunJobs s.schedules) + if s.schedules.isEmpty then 0 else 1 := by
  have hthreads : s.start.threads = s.threads ++ [LoopThread.new] := by
    rw [start, if_pos hspawns]
  rw [hthreads, List.countP_append, List.countP_singleton]
  by_cases hempty : s.schedules.isEmpty = true <;> simp [canRunJobs, LoopThread.new, hempty]

theorem Orderly.start (h : Orderly s) (hC : s.StartsAlone .start) : Orderly s.start := by
  by_cases hspawns : s.Spawns
  · have hcount := countP_start hspawns
    have hnone : s.threads.countP (canRunJobs s.schedules) = 0 := hC hspawns
    have hstart : s.start = { s with
        stopEvent := false
        thread := some s.threads.length
        threads := s.threads ++ [.new] } := if_pos hspawns
    rw [hnone, Nat.zero_add] at hcount
    rw [hstart] at hcount ⊢
    refine ⟨?_, fun hempty => ?_, fun t ht => ?_⟩
    · rw [hcount]
      split_ifs <;> omega
    · rw [hcount, if_pos hempty]
    · rcases List.mem_append.1 ht with ht | ht
      · exact (h.obeys t ht).of_not_canRunJobs (by simpa using List.countP_eq_zero.1 hnone t ht)
      · obtain rfl := List.mem_singleton.1 ht
        exact obeys_new _ _
  · rw [PeriodicJobScheduler.start, if_neg hspawns]
    exact h

theorem Orderly.stop (h : Orderly s) (timeoutSeconds : Double) :
    Orderly (s.stop timeoutSeconds) := by
  unfold PeriodicJobScheduler.stop
  split
  · rename_i i _ _
    have hnotified := countP_map_le (p := canRunJobs s.schedules) (f := LoopThread.notified)
      (fun _ => canRunJobs_notified) s.threads
    have hmarked := countP_modify_le (p := canRunJobs s.schedules) (f := LoopThread.markStopped)
      (fun _ ht => ht) (s.threads.map LoopThread.notified) i
    have hawake : ∀ t ∈ s.threads.map LoopThread.notified,
        t.Obeys s.schedules true ∧ ∀ deadline, t.phase ≠ .waiting deadline := by
      intro t ht
      obtain ⟨t₀, ht₀, rfl⟩ := List.mem_map.1 ht
      exact ⟨(h.obeys t₀ ht₀).notified, notified_phase_ne_waiting⟩
    exact h.of_le rfl (hmarked.trans hnotified) fun t ht =>
      (forall_mem_modify (fun t ht => ⟨ht.1.markStopped ht.2, ht.2⟩) hawake i t ht).1
  · exact h

theorem Orderly.joinReturns (h : Orderly s) : Orderly s.joinReturns := by
  unfold PeriodicJobScheduler.joinReturns
  split
  · split_ifs
    · exact h
    · exact h.of_le rfl le_rfl h.obeys
  · exact h

theorem Orderly.threadStep (h : Orderly s) (i : ℕ) : Orderly (s.step (.thread i)) :=
  h.of_le rfl (countP_modify_le (fun _ => canRunJobs_of_threadStep) s.threads i)
    (forall_mem_modify (fun _ ht => obeys_threadStep ht) h.obeys i)

theorem Orderly.step {e : SchedulerEvent} (h : Orderly s) (hC : s.StartsAlone e) :
    Orderly (s.step e) := by
  cases e with
  | start => exact h.start hC
  | stop timeoutSeconds => exact h.stop timeoutSeconds
  | joinReturns => exact h.joinReturns
  | thread i => exact h.threadStep i
  | elapse nanoseconds => exact h.of_le rfl le_rfl h.obeys

/-- A new thread beside another one that can run jobs makes two loops. -/
theorem Orderly.startsAlone {e : SchedulerEvent} (h : Orderly s) (hone : OneLoop (s.step e)) :
    s.StartsAlone e := by
  cases e with
  | start =>
    intro hspawns
    by_cases hempty : s.schedules.isEmpty = true
    · exact h.no_jobs hempty
    · have hcount := countP_start hspawns
      have hschedules : s.start.schedules = s.schedules := by
        rw [PeriodicJobScheduler.start, if_pos hspawns]
      have hle : s.start.threads.countP (canRunJobs s.start.schedules) ≤ 1 := hone.one_thread
      rw [hschedules] at hle
      rw [if_neg hempty] at hcount
      omega
  | _ => trivial

/-- In every state of a run there is one loop, exactly if no `start` makes a thread beside another
one that can still run jobs. -/
theorem oneLoop_iff (schedules : List JobSchedule) (events : List SchedulerEvent) :
    Machine.Throughout step OneLoop (init schedules) events ↔
      Machine.Meets step StartsAlone (init schedules) events :=
  Machine.throughout_iff_meets Orderly (fun _ => Orderly.oneLoop) (fun _ _ h hC => h.step hC)
    (fun _ _ h => h.startsAlone) (orderly_init schedules)

namespace Scenario

/-- A job that is due every second. -/
def everySecond : List JobSchedule := [⟨"job", 1, by decide +kernel⟩]

/-- The job is still running when `stop` gives up on its thread after a second; `start` follows, and
both threads get to their jobs. -/
def slowJob : List SchedulerEvent :=
  [.start, .thread 0, .thread 0, .elapse 1000000000, .thread 0, .thread 0, .stop 1,
    .elapse 1000000000, .joinReturns, .start, .thread 1, .thread 1, .elapse 1000000000, .thread 1,
    .thread 1]

/-- A job that outlives `stop` overlaps the jobs of the next thread. -/
theorem not_oneLoop : ¬ ∀ (schedules : List JobSchedule) (events : List SchedulerEvent),
    Machine.Throughout step OneLoop (init schedules) events := by
  intro h
  have hoverlap := (h everySecond slowJob).last.no_overlap
  exact absurd hoverlap (by decide +kernel)

end Scenario

end PeriodicJobScheduler

end ClusterPulse
