import ClusterPulse.Collector.JobLoop

/-!
# When the jobs run

Every entry is due one interval after the loop began or after the last run of its job ended, and a
pass runs the entries that are due at the reading it goes by.  The invariant is over all entries at
once: a slow or raising job moves the time for the others, but never their due times.
-/

namespace ClusterPulse

open Prog JobLoop

/-! ## The law -/

/-- One pass: what has happened before it, the reading it goes by, the entries as it finds them and the
runs it makes. -/
structure JobPass where
  trace : List LoopEvent
  now : ℚ
  entries : List LoopEntry
  runs : List JobRun

/-- The passes of a loop, as far as it comes. -/
def passesOf (env : LoopEnvironment) : ℕ → List LoopEntry → LoopWorld → List JobPass
  | 0, _, _ => []
  | passes + 1, entries, w =>
    match (awaitDue entries).run env.handle w with
    | (.ok (some now), w₁) =>
      match (JobLoop.pass now 0 entries).run env.handle w₁ with
      | (.ok entries', w₂) =>
        ⟨w₁.trace, now, entries, w₂.runs.drop w₁.runs.length⟩ :: passesOf env passes entries' w₂
      | (.error _, w₂) => [⟨w₁.trace, now, entries, w₂.runs.drop w₁.runs.length⟩]
    | _ => []

/-- The passes of `_run_loop`. -/
def passesOfRunLoop (env : LoopEnvironment) (schedules : List ExactSchedule) (passes : ℕ)
    (w : LoopWorld) : List JobPass :=
  if schedules.isEmpty then []
  else match (makeEntries schedules).run env.handle w with
    | (.ok entries, w₁) => passesOf env passes entries w₁
    | (.error _, _) => []

/-- The positions of the entries that are due, from the position `k` on. -/
def duePositions (now : ℚ) (k : ℕ) (entries : List LoopEntry) : List ℕ :=
  ((entries.zipIdx k).filter fun p => decide (p.1.nextDue ≤ now)).map Prod.snd

/-- The reading that the job at a position counts from: as long as it has not run, the one its entry was
made with (the entries are made in order, with the first readings), and then the one taken right after
its last run. -/
inductive CountsFrom (events : List LoopEvent) (position : ℕ) (t : ℚ) : Prop where
  | made (hnever : ∀ r, .ran r ∈ events → r.position ≠ position)
    (hmade : events[position]? = some (.reading t))
  | ran {before after : List LoopEvent} {r : JobRun} (hposition : r.position = position)
    (hevents : events = before ++ .ran r :: .reading t :: after)
    (hlast : ∀ r', .ran r' ∈ after → r'.position ≠ position)

/-- Between the end of the first run and the start of the second there is at least the interval, if
they are runs of one job. -/
def Apart (schedules : List ExactSchedule) (r r' : JobRun) : Prop :=
  r'.position = r.position →
    ∃ s, schedules[r.position]? = some s ∧ r.finish + s.intervalSeconds ≤ r'.start

/-- What an execution that begins at `began`, with the runs of `earlier` behind it, makes of the
passes to come: its result and the world it leaves. -/
structure SchedulingLaw (schedules : List ExactSchedule) (began : ℚ) (earlier : List JobRun)
    (passes : List JobPass) (result : Except LoopError Unit) (w : LoopWorld) : Prop where
  /-- No job starts before its interval is over. -/
  notEarly : ∀ r ∈ w.runs, ∃ s, schedules[r.position]? = some s ∧
    began + s.intervalSeconds ≤ r.start
  /-- Two runs of a job are apart. -/
  spaced : w.runs.Pairwise (Apart schedules)
  /-- A pass goes by the last reading before it. -/
  passesRead : ∀ p ∈ passes, p.trace <+: w.trace ∧ p.trace.getLast? = some (.reading p.now)
  /-- It goes through one entry for each schedule, in order. -/
  passesVisitAll : ∀ p ∈ passes, p.entries.map LoopEntry.schedule = schedules
  /-- A job is due one interval after the reading that it counts from. -/
  dueTimes : ∀ p ∈ passes, ∀ x ∈ p.entries.zipIdx, ∃ t,
    CountsFrom p.trace x.2 t ∧ x.1.nextDue = t + x.1.schedule.intervalSeconds
  /-- A pass runs the jobs that are due, each once and in the order of the schedules. -/
  passesRunDue : ∀ p ∈ passes, p.runs.map JobRun.position = duePositions p.now 0 p.entries
  /-- Outside the passes no job runs. -/
  runsInPasses : w.runs = earlier ++ passes.flatMap JobPass.runs
  /-- The runs that a pass has behind it are those of the passes before. -/
  runsBefore : ∀ before p after, passes = before ++ p :: after →
    p.trace.filterMap LoopEvent.run? = earlier ++ before.flatMap JobPass.runs
  /-- Nothing happens after a wait that observes the stop event. -/
  stops : ∀ before after, w.trace = before ++ .waited true :: after → after = []
  /-- No exception of a job ends the loop. -/
  contained : result ≠ .error .jobException

/-! ## The invariant -/

/-- The runs so far keep to the law, and no wait has observed the stop event. -/
structure InTime (schedules : List ExactSchedule) (began : ℚ) (w : LoopWorld) : Prop where
  began_le : began ≤ w.time
  notEarly : ∀ r ∈ w.runs, ∃ s, schedules[r.position]? = some s ∧
    began + s.intervalSeconds ≤ r.start
  spaced : w.runs.Pairwise (Apart schedules)
  running : .waited true ∉ w.trace

/-- The entry is due one interval after the reading that its job counts from, and so no earlier than one
interval after the loop began and after every run of its job. -/
structure DueLate (schedules : List ExactSchedule) (began : ℚ) (w : LoopWorld) (position : ℕ)
    (entry : LoopEntry) : Prop where
  schedule : schedules[position]? = some entry.schedule
  began_le : began + entry.schedule.intervalSeconds ≤ entry.nextDue
  runs_le : ∀ r ∈ w.runs, r.position = position →
    r.finish + entry.schedule.intervalSeconds ≤ entry.nextDue
  counts : ∃ t, CountsFrom w.trace position t ∧
    entry.nextDue = t + entry.schedule.intervalSeconds

/-- All entries from the position `k` on. -/
def AllDueLate (schedules : List ExactSchedule) (began : ℚ) (w : LoopWorld) (k : ℕ)
    (entries : List LoopEntry) : Prop :=
  ∀ p ∈ entries.zipIdx k, DueLate schedules began w p.2 p.1

section Calls

variable (env : LoopEnvironment) {schedules : List ExactSchedule} {began : ℚ} {w w' : LoopWorld}
  {k : ℕ} {entry : LoopEntry}

theorem runs_of_trace {events : List LoopEvent} (h : w'.trace = w.trace ++ events) :
    w'.runs = w.runs ++ events.filterMap LoopEvent.run? := by
  unfold LoopWorld.runs
  rw [h, List.filterMap_append]

theorem mem_filterMap_run? {events : List LoopEvent} {r : JobRun} :
    r ∈ events.filterMap LoopEvent.run? ↔ .ran r ∈ events := by
  rw [List.mem_filterMap]
  constructor
  · rintro ⟨event, hevent, hrun⟩
    cases event with
    | ran r' => exact Option.some.inj hrun ▸ hevent
    | reading | waited => cases hrun
  · exact fun hevent => ⟨.ran r, hevent, rfl⟩

/-- What happens later does not change what a job counts from, but for its own runs. -/
theorem CountsFrom.append {events later : List LoopEvent} {t : ℚ} (h : CountsFrom events k t)
    (hnew : ∀ r, .ran r ∈ later → r.position ≠ k) : CountsFrom (events ++ later) k t := by
  cases h with
  | made hnever hmade =>
    refine .made (fun r hr => ?_) ?_
    · exact (List.mem_append.1 hr).elim (hnever r) (hnew r)
    · obtain ⟨hk, -⟩ := List.getElem?_eq_some_iff.1 hmade
      rw [List.getElem?_append_left hk, hmade]
  | @ran before after r hposition hevents hlast =>
    have hall : events ++ later = before ++ .ran r :: .reading t :: (after ++ later) := by
      rw [hevents, List.append_assoc]
      rfl
    refine .ran hposition hall fun r' hr' => ?_
    exact (List.mem_append.1 hr').elim (hlast r') (hnew r')

theorem DueLate.of_events (h : DueLate schedules began w k entry) {events : List LoopEvent}
    (htrace : w'.trace = w.trace ++ events) (hnew : ∀ r, .ran r ∈ events → r.position ≠ k) :
    DueLate schedules began w' k entry where
  schedule := h.schedule
  began_le := h.began_le
  runs_le r hr hk := by
    rw [runs_of_trace htrace, List.mem_append] at hr
    rcases hr with hr | hr
    · exact h.runs_le r hr hk
    · exact absurd hk (hnew r (mem_filterMap_run?.1 hr))
  counts := by
    obtain ⟨t, ht, hdue⟩ := h.counts
    rw [htrace]
    exact ⟨t, ht.append hnew, hdue⟩

/-- What a reading of the clock leaves. -/
theorem exists_run_monotonic (w : LoopWorld) : ∃ t w',
    env.handle .monotonic w = (.ok t, w') ∧ w.time ≤ t ∧ t ≤ w'.time ∧
      w'.trace = w.trace ++ [.reading t] := by
  refine ⟨_, _, rfl, ?_, ?_, rfl⟩
  · exact le_add_of_nonneg_right (env.delay w.calls).2
  · exact le_add_of_nonneg_right (env.duration w.calls).2

theorem runs_of_reading {t : ℚ} (h : w'.trace = w.trace ++ [.reading t]) : w'.runs = w.runs :=
  (runs_of_trace h).trans (List.append_nil _)

theorem InTime.of_reading (h : InTime schedules began w) {t : ℚ} (hle : w.time ≤ w'.time)
    (htrace : w'.trace = w.trace ++ [.reading t]) : InTime schedules began w' where
  began_le := h.began_le.trans hle
  notEarly := runs_of_reading htrace ▸ h.notEarly
  spaced := runs_of_reading htrace ▸ h.spaced
  running := by
    rw [htrace, List.mem_append, List.mem_singleton]
    rintro (hmem | heq)
    · exact h.running hmem
    · cases heq

/-- A run of a job, with its exception contained. -/
theorem exists_run_runContained (w : LoopWorld) (position : ℕ) (schedule : ExactSchedule) :
    ∃ r w', (runContained position schedule).run env.handle w = (.ok (), w') ∧
      r.position = position ∧ w.time ≤ r.start ∧ r.start ≤ r.finish ∧ r.finish ≤ w'.time ∧
      w'.trace = w.trace ++ [.ran r] := by
  refine ⟨⟨position, _, _, env.raises w.calls⟩,
    (env.handle (.run position schedule.jobName) w).2, ?_, rfl, ?_, ?_, le_rfl, rfl⟩
  · unfold runContained
    rw [run_tryCatch, run_perform]
    unfold LoopEnvironment.handle
    dsimp only
    cases env.raises w.calls <;> rfl
  · exact le_add_of_nonneg_right (env.delay w.calls).2
  · exact le_add_of_nonneg_right (env.duration w.calls).2

end Calls

/-! ## A pass -/

section Pass

variable (env : LoopEnvironment) {schedules : List ExactSchedule} {began now : ℚ}
  {w w' : LoopWorld} {k : ℕ} {entry entry' : LoopEntry} {entries entries' : List LoopEntry}

/-- From `w` to `w'` the jobs at the positions ran, in this order, and the invariant was kept. -/
structure Ran (schedules : List ExactSchedule) (began : ℚ) (w w' : LoopWorld)
    (positions : List ℕ) : Prop where
  inTime : InTime schedules began w'
  time_le : w.time ≤ w'.time
  events : ∃ events, w'.trace = w.trace ++ events ∧
    (events.filterMap LoopEvent.run?).map JobRun.position = positions

theorem Ran.refl (h : InTime schedules began w) : Ran schedules began w w [] :=
  ⟨h, le_rfl, [], (List.append_nil _).symm, rfl⟩

theorem Ran.runs {ps : List ℕ} (h : Ran schedules began w w' ps) :
    ∃ new, w'.runs = w.runs ++ new ∧ new.map JobRun.position = ps := by
  obtain ⟨events, htrace, hps⟩ := h.events
  exact ⟨_, runs_of_trace htrace, hps⟩

theorem Ran.runs_eq (h : Ran schedules began w w' []) : w'.runs = w.runs := by
  obtain ⟨new, hruns, hnew⟩ := h.runs
  rw [hruns, List.map_eq_nil_iff.1 hnew, List.append_nil]

theorem Ran.trans {w'' : LoopWorld} {ps ps' : List ℕ} (h : Ran schedules began w w' ps)
    (h' : Ran schedules began w' w'' ps') : Ran schedules began w w'' (ps ++ ps') := by
  obtain ⟨events, htrace, hps⟩ := h.events
  obtain ⟨events', htrace', hps'⟩ := h'.events
  refine ⟨h'.inTime, h.time_le.trans h'.time_le, events ++ events', ?_, ?_⟩
  · rw [htrace', htrace, List.append_assoc]
  · rw [List.filterMap_append, List.map_append, hps, hps']

/-- The runs of other positions do not touch what is known of an entry. -/
theorem Ran.dueLate {ps : List ℕ} (h : Ran schedules began w w' ps) (hk : k ∉ ps)
    (hdue : DueLate schedules began w k entry) : DueLate schedules began w' k entry := by
  obtain ⟨events, htrace, rfl⟩ := h.events
  refine hdue.of_events htrace fun r hr hrk => hk (hrk ▸ ?_)
  exact List.mem_map_of_mem (mem_filterMap_run?.2 hr)

/-- The run of an entry that is due keeps to the law. -/
theorem InTime.of_ran (h : InTime schedules began w) (hdue : DueLate schedules began w k entry)
    (hnow : entry.nextDue ≤ w.time) {r : JobRun} (hposition : r.position = k)
    (hstart : w.time ≤ r.start) (hfinish : r.start ≤ r.finish) (htime : r.finish ≤ w'.time)
    (htrace : w'.trace = w.trace ++ [.ran r]) : InTime schedules began w' := by
  have hruns : w'.runs = w.runs ++ [r] := runs_of_trace htrace
  have hschedule : schedules[r.position]? = some entry.schedule := hposition ▸ hdue.schedule
  refine ⟨?_, fun r' hr' => ?_, ?_, ?_⟩
  · linarith [h.began_le]
  · rw [hruns, List.mem_append, List.mem_singleton] at hr'
    rcases hr' with hr' | rfl
    · exact h.notEarly r' hr'
    · exact ⟨_, hschedule, by linarith [hdue.began_le]⟩
  · rw [hruns, List.pairwise_append]
    refine ⟨h.spaced, List.pairwise_singleton _ _, fun r' hr' r'' hr'' hsame => ?_⟩
    obtain rfl := List.mem_singleton.1 hr''
    have hle := hdue.runs_le r' hr' (hsame.symm.trans hposition)
    exact ⟨_, hsame ▸ hschedule, by linarith⟩
  · rw [htrace, List.mem_append, List.mem_singleton]
    rintro (hmem | heq)
    · exact h.running hmem
    · cases heq

/-- One entry of a pass that goes by the reading `now`. -/
theorem exists_run_visit (h : InTime schedules began w) (hdue : DueLate schedules began w k entry)
    (hnow : now ≤ w.time) :
    ∃ entry' w', (visit now k entry).run env.handle w = (.ok entry', w') ∧
      Ran schedules began w w' (if entry.nextDue ≤ now then [k] else []) ∧
      DueLate schedules began w' k entry' ∧ entry'.schedule = entry.schedule := by
  by_cases hle : entry.nextDue ≤ now
  · obtain ⟨r, w₁, hrun, hposition, hstart, hfinish, htime, htrace⟩ :=
      exists_run_runContained env w k entry.schedule
    have h₁ : InTime schedules began w₁ :=
      h.of_ran hdue (hle.trans hnow) hposition hstart hfinish htime htrace
    have hruns : w₁.runs = w.runs ++ [r] := runs_of_trace htrace
    obtain ⟨t, w₂, hread, hlate, htime₂, htrace₂⟩ := exists_run_monotonic env w₁
    have hruns₂ : w₂.runs = w.runs ++ [r] := (runs_of_reading htrace₂).trans hruns
    have hboth : w₂.trace = w.trace ++ [.ran r, .reading t] := by
      rw [htrace₂, htrace, List.append_assoc]
      rfl
    rw [if_pos hle]
    refine ⟨{ entry with nextDue := t + entry.schedule.intervalSeconds }, w₂, ?_,
      ⟨h₁.of_reading (hlate.trans htime₂) htrace₂, by linarith, _, hboth, ?_⟩,
      ⟨hdue.schedule, ?_, fun r' hr' hk => ?_, t, ?_, rfl⟩, rfl⟩
    · unfold visit
      rw [if_pos hle, run_bind, hrun]
      dsimp only
      rw [run_bind, run_perform, hread]
      rfl
    · show [r.position] = [k]
      rw [hposition]
    · show began + entry.schedule.intervalSeconds ≤ t + entry.schedule.intervalSeconds
      linarith [h₁.began_le]
    · show r'.finish + entry.schedule.intervalSeconds ≤ t + entry.schedule.intervalSeconds
      rw [hruns₂, List.mem_append, List.mem_singleton] at hr'
      rcases hr' with hr' | rfl
      · have hbefore := hdue.runs_le r' hr' hk
        have hpos := entry.schedule.intervalSeconds_pos
        linarith
      · linarith
    · exact .ran hposition hboth fun r' hr' => absurd hr' List.not_mem_nil
  · rw [if_neg hle]
    refine ⟨entry, w, ?_, .refl h, hdue, rfl⟩
    unfold visit
    rw [if_neg hle]
    rfl

theorem duePositions_cons (now : ℚ) (k : ℕ) (entry : LoopEntry) (entries : List LoopEntry) :
    duePositions now k (entry :: entries) =
      (if entry.nextDue ≤ now then [k] else []) ++ duePositions now (k + 1) entries := by
  unfold duePositions
  rw [List.zipIdx_cons, List.filter_cons]
  by_cases hle : entry.nextDue ≤ now <;> simp [hle]

theorem lt_of_mem_duePositions {i : ℕ} (hi : i ∈ duePositions now (k + 1) entries) : k < i := by
  unfold duePositions at hi
  obtain ⟨p, hp, rfl⟩ := List.mem_map.1 hi
  have hle := List.le_snd_of_mem_zipIdx (List.mem_of_mem_filter hp)
  omega

/-- A pass from the position `k` on: the entries before are not touched. -/
theorem exists_run_pass (h : InTime schedules began w)
    (hdue : AllDueLate schedules began w k entries) (hnow : now ≤ w.time) :
    ∃ entries' w', (JobLoop.pass now k entries).run env.handle w = (.ok entries', w') ∧
      Ran schedules began w w' (duePositions now k entries) ∧
      AllDueLate schedules began w' k entries' ∧
      entries'.map LoopEntry.schedule = entries.map LoopEntry.schedule := by
  induction entries generalizing w k with
  | nil => exact ⟨[], w, rfl, .refl h, hdue, rfl⟩
  | cons entry entries ih =>
    obtain ⟨hentry, hrest⟩ := List.forall_mem_cons.1 hdue
    obtain ⟨entry', w₁, hvisit, hran, hentry', hschedule⟩ := exists_run_visit env h hentry hnow
    -- The run of this entry has its own position, so the later entries are due as late as before.
    have hrest₁ : AllDueLate schedules began w₁ (k + 1) entries := by
      intro p hp
      refine hran.dueLate ?_ (hrest p hp)
      have hlt := List.le_snd_of_mem_zipIdx hp
      split_ifs
      · simp only [List.mem_singleton]
        omega
      · exact List.not_mem_nil
    obtain ⟨entries', w₂, hpass, hran₂, hrest₂, hschedules⟩ :=
      ih hran.inTime hrest₁ (hnow.trans hran.time_le)
    refine ⟨entry' :: entries', w₂, ?_, ?_, ?_, ?_⟩
    · unfold JobLoop.pass
      rw [run_bind, hvisit]
      dsimp only
      rw [run_bind, hpass]
      rfl
    · rw [duePositions_cons]
      exact hran.trans hran₂
    · refine List.forall_mem_cons.2 ⟨hran₂.dueLate ?_ hentry', hrest₂⟩
      exact fun hk => absurd (lt_of_mem_duePositions hk) (lt_irrefl _)
    · rw [List.map_cons, List.map_cons, hschedule, hschedules]

end Pass

/-! ## The loop -/

section Loop

variable (env : LoopEnvironment) {schedules : List ExactSchedule} {began : ℚ}
  {w w' : LoopWorld} {k : ℕ} {entries : List LoopEntry}

/-- A reading of the clock, as a run of no job. -/
theorem exists_run_read (h : InTime schedules began w) : ∃ t w',
    env.handle .monotonic w = (.ok t, w') ∧ Ran schedules began w w' [] ∧ w.time ≤ t ∧
      t ≤ w'.time ∧ w'.trace = w.trace ++ [.reading t] := by
  obtain ⟨t, w', hread, hlate, htime, htrace⟩ := exists_run_monotonic env w
  have hle := hlate.trans htime
  exact ⟨t, w', hread, ⟨h.of_reading hle htrace, hle, _, htrace, rfl⟩, hlate, htime, htrace⟩

/-- The entries as they are made, each with a reading of its own. -/
theorem exists_run_makeEntries (h : InTime schedules began w) (hruns : w.runs = []) (k : ℕ)
    (hlength : w.trace.length = k) (rest : List ExactSchedule) (hrest : schedules.drop k = rest) :
    ∃ entries w', (makeEntries rest).run env.handle w = (.ok entries, w') ∧
      Ran schedules began w w' [] ∧ AllDueLate schedules began w' k entries ∧
      entries.map LoopEntry.schedule = rest := by
  induction rest generalizing w k with
  | nil => exact ⟨[], w, rfl, .refl h, fun p hp => absurd hp List.not_mem_nil, rfl⟩
  | cons schedule rest ih =>
    obtain ⟨t, w₁, hread, hran, hlate, -, htrace⟩ := exists_run_read env h
    have hruns₁ : w₁.runs = [] := hran.runs_eq.trans hruns
    have hlength₁ : w₁.trace.length = k + 1 := by
      rw [htrace, List.length_append, hlength, List.length_singleton]
    have hdrop : schedules.drop (k + 1) = rest := by
      rw [← List.drop_drop, hrest]
      rfl
    obtain ⟨entries, w₂, hmake, hran₂, hall, hschedules⟩ :=
      ih hran.inTime hruns₁ (k + 1) hlength₁ hdrop
    have hhere : schedules[k]? = some schedule := by
      rw [← List.head?_drop, hrest]
      rfl
    have hcounts : CountsFrom w₁.trace k t := by
      refine .made (fun r hr => ?_) ?_
      · have hmem : r ∈ w₁.runs := mem_filterMap_run?.2 hr
        rw [hruns₁] at hmem
        cases hmem
      · rw [htrace, ← hlength]
        simp
    have hentry : DueLate schedules began w₁ k ⟨schedule, t + schedule.intervalSeconds⟩ := by
      refine ⟨hhere, ?_, fun r hr => ?_, t, hcounts, rfl⟩
      · show began + schedule.intervalSeconds ≤ t + schedule.intervalSeconds
        linarith [h.began_le]
      · rw [hruns₁] at hr
        cases hr
    refine ⟨⟨schedule, t + schedule.intervalSeconds⟩ :: entries, w₂, ?_, hran.trans hran₂,
      List.forall_mem_cons.2 ⟨hran₂.dueLate List.not_mem_nil hentry, hall⟩, ?_⟩
    · unfold makeEntries
      rw [run_bind, run_perform, hread]
      dsimp only
      rw [run_bind, hmake]
      rfl
    · rw [List.map_cons, hschedules]

/-- The three ways in which the wait ends. -/
inductive Awaited (schedules : List ExactSchedule) (began : ℚ) (w : LoopWorld) :
    Except LoopError (Option ℚ) → LoopWorld → Prop where
  | due {now : ℚ} {w' : LoopWorld} (hran : Ran schedules began w w' []) (hnow : now ≤ w'.time)
    (hread : w'.trace.getLast? = some (.reading now)) :
    Awaited schedules began w (.ok (some now)) w'
  | stopped {w₁ w' : LoopWorld} (hran : Ran schedules began w w₁ [])
    (htrace : w'.trace = w₁.trace ++ [.waited true]) : Awaited schedules began w (.ok none) w'
  | overflow {w' : LoopWorld} (hran : Ran schedules began w w' []) :
    Awaited schedules began w (.error .overflowError) w'

theorem handle_wait_cases (h : InTime schedules began w) (timeout : ℚ) :
    ((env.handle (.wait timeout) w).1 = .error .overflowError ∧
      Ran schedules began w (env.handle (.wait timeout) w).2 []) ∨
    ((env.handle (.wait timeout) w).1 = .ok true ∧
      (env.handle (.wait timeout) w).2.trace = w.trace ++ [.waited true]) ∨
    ((env.handle (.wait timeout) w).1 = .ok false ∧
      Ran schedules began w (env.handle (.wait timeout) w).2 []) := by
  have hle : w.time ≤ w.time + env.delay w.calls + env.duration w.calls := by
    have hdelay : (0 : ℚ) ≤ env.delay w.calls := (env.delay w.calls).2
    have hduration : (0 : ℚ) ≤ env.duration w.calls := (env.duration w.calls).2
    linarith
  have hbegan := h.began_le.trans hle
  unfold LoopEnvironment.handle
  dsimp only
  by_cases htimeout : PeriodicJobScheduler.timeoutMax < timeout
  · rw [if_pos htimeout]
    exact .inl ⟨rfl, ⟨hbegan, h.notEarly, h.spaced, h.running⟩, hle, [],
      (List.append_nil _).symm, rfl⟩
  · rw [if_neg htimeout]
    cases env.stops w.calls with
    | true => exact .inr (.inl ⟨rfl, rfl⟩)
    | false =>
      have hruns : ∀ time calls, (⟨time, calls, w.trace ++ [.waited false]⟩ : LoopWorld).runs =
          w.runs := fun time calls => (runs_of_trace rfl).trans (List.append_nil _)
      refine .inr (.inr ⟨rfl, ⟨hbegan, ?_, ?_, ?_⟩, hle, [.waited false], rfl, rfl⟩)
      · rw [hruns]
        exact h.notEarly
      · rw [hruns]
        exact h.spaced
      · simp [h.running]

theorem awaited_run (h : InTime schedules began w) (entries : List LoopEntry) :
    Awaited schedules began w ((awaitDue entries).run env.handle w).1
      ((awaitDue entries).run env.handle w).2 := by
  obtain ⟨t, w₁, hread, hran, -⟩ := exists_run_read env h
  unfold awaitDue
  rw [run_bind, run_perform, hread]
  dsimp only
  rw [run_bind, run_perform]
  have hcases := handle_wait_cases env hran.inTime (max (waitSeconds entries t) 0)
  rcases hwait : env.handle (.wait (max (waitSeconds entries t) 0)) w₁ with ⟨answer, w₂⟩
  rw [hwait] at hcases
  obtain ⟨rfl, hran₂⟩ | ⟨rfl, htrace⟩ | ⟨rfl, hran₂⟩ := hcases
  · exact .overflow (hran.trans hran₂)
  · exact .stopped hran htrace
  · obtain ⟨now, w₃, hread₃, hran₃, -, hnow, htrace⟩ := exists_run_read env hran₂.inTime
    simp only [Bool.false_eq_true, if_false]
    rw [run_bind, run_perform, hread₃]
    have hlast : w₃.trace.getLast? = some (.reading now) := by
      rw [htrace, List.getLast?_concat]
    exact .due ((hran.trans hran₂).trans hran₃) hnow hlast

/-- A loop that makes no pass any more. -/
theorem SchedulingLaw.of_ran {result : Except LoopError Unit} (h : Ran schedules began w w' [])
    (hresult : result ≠ .error .jobException) :
    SchedulingLaw schedules began w.runs [] result w' where
  notEarly := h.inTime.notEarly
  spaced := h.inTime.spaced
  passesRead p hp := absurd hp List.not_mem_nil
  passesVisitAll p hp := absurd hp List.not_mem_nil
  dueTimes p hp := absurd hp List.not_mem_nil
  passesRunDue p hp := absurd hp List.not_mem_nil
  runsInPasses := by rw [h.runs_eq, List.flatMap_nil, List.append_nil]
  runsBefore before p after heq := by simp at heq
  stops before after htrace := by
    refine absurd ?_ h.inTime.running
    rw [htrace]
    simp
  contained := hresult

/-- A loop that observes the stop event. -/
theorem SchedulingLaw.of_stopped {w₁ : LoopWorld} (h : Ran schedules began w w₁ [])
    (htrace : w'.trace = w₁.trace ++ [.waited true]) :
    SchedulingLaw schedules began w.runs [] (.ok ()) w' := by
  have hruns : w'.runs = w₁.runs := (runs_of_trace htrace).trans (List.append_nil _)
  have hlaw : SchedulingLaw schedules began w.runs [] (.ok ()) w₁ := .of_ran h fun he => by cases he
  refine { hlaw with
    notEarly := hruns ▸ hlaw.notEarly
    spaced := hruns ▸ hlaw.spaced
    passesRead := fun p hp => absurd hp List.not_mem_nil
    runsInPasses := hruns ▸ hlaw.runsInPasses
    stops := fun before after heq => ?_ }
  -- The event is the last of the trace and occurs in it only once.
  rw [htrace] at heq
  cases after using List.reverseRecOn with
  | nil => rfl
  | append_singleton after event =>
    rw [← List.cons_append, ← List.append_assoc] at heq
    obtain ⟨hinit, -⟩ := List.append_inj' heq rfl
    refine absurd ?_ h.inTime.running
    rw [hinit]
    simp

/-- Nothing that has happened is forgotten. -/
theorem trace_prefix_run {α : Type} (p : Loop α) (w : LoopWorld) :
    w.trace <+: (p.run env.handle w).2.trace := by
  induction p generalizing w with
  | pure a => exact List.prefix_rfl
  | throw e => exact List.prefix_rfl
  | call c k ih =>
    have hcall : w.trace <+: (env.handle c w).2.trace := by
      unfold LoopEnvironment.handle
      cases c with
      | monotonic => exact List.prefix_append _ _
      | run => exact List.prefix_append _ _
      | wait timeout =>
        dsimp only
        split_ifs
        · exact List.prefix_rfl
        · exact List.prefix_append _ _
    exact hcall.trans (ih _ _)

/-- A pass before the rest of the loop. -/
theorem SchedulingLaw.cons {passes : List JobPass} {result : Except LoopError Unit}
    {w₁ w₂ : LoopWorld} {p : JobPass} (hlaw : SchedulingLaw schedules began w₂.runs passes result w')
    (htrace : p.trace = w₁.trace) (hleads : w₁.trace <+: w'.trace)
    (hread : p.trace.getLast? = some (.reading p.now))
    (hschedules : p.entries.map LoopEntry.schedule = schedules)
    (hdue : AllDueLate schedules began w₁ 0 p.entries) (hruns : w₂.runs = w₁.runs ++ p.runs)
    (hpositions : p.runs.map JobRun.position = duePositions p.now 0 p.entries) :
    SchedulingLaw schedules began w₁.runs (p :: passes) result w' where
  notEarly := hlaw.notEarly
  spaced := hlaw.spaced
  passesRead := List.forall_mem_cons.2 ⟨⟨htrace ▸ hleads, hread⟩, hlaw.passesRead⟩
  passesVisitAll := List.forall_mem_cons.2 ⟨hschedules, hlaw.passesVisitAll⟩
  dueTimes := List.forall_mem_cons.2 ⟨fun x hx => htrace ▸ (hdue x hx).counts, hlaw.dueTimes⟩
  passesRunDue := List.forall_mem_cons.2 ⟨hpositions, hlaw.passesRunDue⟩
  runsInPasses := by
    rw [hlaw.runsInPasses, hruns, List.flatMap_cons, List.append_assoc]
  runsBefore before q after heq := by
    cases before with
    | nil =>
      obtain ⟨rfl, -⟩ := List.cons.inj heq
      rw [htrace, List.flatMap_nil, List.append_nil]
      rfl
    | cons first before =>
      obtain ⟨rfl, hrest⟩ := List.cons.inj heq
      rw [hlaw.runsBefore before q after hrest, hruns, List.flatMap_cons, List.append_assoc]
  stops := hlaw.stops
  contained := hlaw.contained

/-- The law of the loop: one pass keeps the invariant, and the rest of the loop goes on from it. -/
theorem loopLaw (passes : ℕ) (h : InTime schedules began w)
    (hdue : AllDueLate schedules began w 0 entries)
    (hschedules : entries.map LoopEntry.schedule = schedules) :
    SchedulingLaw schedules began w.runs (passesOf env passes entries w)
      ((loop passes entries).run env.handle w).1 ((loop passes entries).run env.handle w).2 := by
  induction passes generalizing entries w with
  | zero => exact .of_ran (.refl h) fun he => by cases he
  | succ passes ih =>
    have hawaited := awaited_run env h entries
    unfold loop passesOf
    rw [run_bind]
    rcases hrun : (awaitDue entries).run env.handle w with ⟨answer, w₁⟩
    rw [hrun] at hawaited
    cases hawaited with
    | overflow hran => exact .of_ran hran fun he => by cases he
    | stopped hran htrace => exact .of_stopped hran htrace
    | @due now _ hran hnow hread =>
      dsimp only
      have hdue₁ : AllDueLate schedules began w₁ 0 entries := fun p hp =>
        hran.dueLate List.not_mem_nil (hdue p hp)
      obtain ⟨entries', w₂, hpass, hran₂, hdue₂, hschedules₂⟩ :=
        exists_run_pass env hran.inTime hdue₁ hnow
      obtain ⟨new, hruns, hnew⟩ := hran₂.runs
      have hlaw := ih hran₂.inTime hdue₂ (hschedules₂.trans hschedules)
      obtain ⟨events, htrace, -⟩ := hran₂.events
      have hleads : w₁.trace <+: w₂.trace := htrace ▸ List.prefix_append _ _
      rw [run_bind, hpass]
      dsimp only
      rw [hruns, List.drop_left, ← hran.runs_eq]
      exact hlaw.cons rfl (hleads.trans (trace_prefix_run env _ _)) hread hschedules hdue₁ hruns
        hnew

end Loop

/-- Every execution of `_run_loop` keeps to the scheduling law, whatever the clock, the durations and
the exceptions of the jobs. -/
theorem schedulingLaw (env : LoopEnvironment) (schedules : List ExactSchedule) (passes : ℕ)
    (began : ℚ) :
    SchedulingLaw schedules began []
      (passesOfRunLoop env schedules passes { time := began })
      ((runLoop schedules passes).run env.handle { time := began }).1
      ((runLoop schedules passes).run env.handle { time := began }).2 := by
  have h : InTime schedules began { time := began } :=
    ⟨le_rfl, fun r hr => absurd hr List.not_mem_nil, List.Pairwise.nil, List.not_mem_nil⟩
  unfold runLoop passesOfRunLoop
  by_cases hempty : schedules.isEmpty = true
  · rw [if_pos hempty, if_pos hempty]
    exact .of_ran (.refl h) fun he => by cases he
  · rw [if_neg hempty, if_neg hempty]
    obtain ⟨entries, w, hmake, hran, hdue, hschedules⟩ :=
      exists_run_makeEntries env h rfl 0 rfl schedules rfl
    have hnone : w.runs = [] := hran.runs_eq
    have hlaw := loopLaw env passes hran.inTime hdue hschedules
    rw [hnone] at hlaw
    rw [run_bind, hmake]
    exact hlaw

namespace Scenario

/-- Every call takes a second, and every run of a job raises. -/
def raisingLoop : LoopEnvironment := ⟨fun _ => 0, fun _ => 1, fun _ => false, fun _ => true⟩

/-- The second job joins the first as soon as it is due. -/
example : ((JobLoop.runLoop [⟨"retention", 2, two_pos⟩, ⟨"staleness", 8, Nat.ofNat_pos⟩] 3).run
    raisingLoop.handle { time := 0 }).2.runs.map JobRun.position = [0, 0, 1, 0] := by
  decide +kernel

end Scenario

end ClusterPulse
