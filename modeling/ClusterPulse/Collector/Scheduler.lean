import ClusterPulse.Lib.Double
import ClusterPulse.Lib.Machine

/-!
# The job scheduler

`PeriodicJobScheduler` runs the background jobs on one daemon thread, which sleeps in a wait on the
stop event.  The machine below takes one step for each statement of a thread that another thread can
see, and for each part of `start` and `stop`: `stop` sets the event and then waits in `join`, for a
bounded time, and `start` clears the event before it makes a new thread.

Every thread that was ever started stays in the list, whether or not the scheduler still knows it.
-/

namespace ClusterPulse

/-- A job and how often it should run. -/
structure JobSchedule where
  jobName : String
  intervalSeconds : Double
  intervalSeconds_pos : ¬ intervalSeconds ≤ 0 := by decide +kernel
deriving DecidableEq

/-- A schedule with its next due time. -/
structure JobEntry where
  schedule : JobSchedule
  nextDue : Double
deriving DecidableEq

/-- Where a thread is in `_run_loop`. -/
inductive LoopPhase where
  /-- Before the first statement. -/
  | started
  /-- About to look at the stop event. -/
  | looping
  /-- Asleep in the wait, until the deadline. -/
  | waiting (deadline : ℚ)
  /-- The wait was ended by the event and returns `True`. -/
  | woken
  /-- In the pass that began at `now`, about to look at an entry. -/
  | passing (now : Double) (position : ℕ)
  /-- In the pass that began at `now`, inside the job of an entry. -/
  | running (now : Double) (position : ℕ)
  | finished
deriving DecidableEq

/-- A thread that runs `_run_loop`, with the history of its passes. -/
structure LoopThread where
  phase : LoopPhase
  entries : List JobEntry
  /-- How many passes it has begun. -/
  passes : ℕ
  /-- How many passes it had begun when `stop` set the event for it. -/
  stoppedAt : Option ℕ
deriving DecidableEq

structure PeriodicJobScheduler where
  schedules : List JobSchedule
  stopEvent : Bool
  /-- `_thread`, as its position among the threads. -/
  thread : Option ℕ
  /-- Every thread ever started. -/
  threads : List LoopThread
  /-- Until when a call of `stop` waits in `join`. -/
  joining : Option ℚ
  /-- The monotonic clock, in nanoseconds. -/
  clock : ℕ
deriving DecidableEq

/-- What happens next: a call of `start` or `stop`, the return of `join`, a step of a thread, or the
passing of time. -/
inductive SchedulerEvent where
  | start
  | stop (timeoutSeconds : Double)
  | joinReturns
  | thread (i : ℕ)
  | elapse (nanoseconds : ℕ)

namespace LoopThread

/-- A thread that was just started. -/
def new : LoopThread := ⟨.started, [], 0, none⟩

/-- `is_alive`. -/
def isAlive (t : LoopThread) : Bool := t.phase != .finished

/-- What `set` on the event does to a thread: one that sleeps in the wait is woken. -/
def notified (t : LoopThread) : LoopThread :=
  match t.phase with
  | .waiting _ => { t with phase := .woken }
  | _ => t

/-- What `stop` adds to the history of its thread. -/
def markStopped (t : LoopThread) : LoopThread :=
  { t with stoppedAt := some (t.stoppedAt.getD t.passes) }

end LoopThread

namespace PeriodicJobScheduler

/-- The scheduler as it is constructed. -/
def init (schedules : List JobSchedule) : PeriodicJobScheduler :=
  ⟨schedules, false, none, [], none, 0⟩

/-- `time.monotonic()`. -/
def monotonic (s : PeriodicJobScheduler) : Double := .ofRat (s.clock / 1000000000)

/-- `threading.TIMEOUT_MAX`, in seconds. -/
def timeoutMax : ℚ := 9223372036

/-- When a lock that is acquired with a timeout gives up; none if it raises at once. -/
def deadline (s : PeriodicJobScheduler) : Double → Option ℚ
  | .fin q => if q ≤ timeoutMax then some (s.clock / 1000000000 + q) else none
  | _ => none

/-! ## The thread -/

/-- `min(entry.next_due for entry in entries) - time.monotonic()`. -/
def waitSeconds (s : PeriodicJobScheduler) : List JobEntry → Double
  | [] => 0
  | e :: entries => (entries.map JobEntry.nextDue).foldl Double.pyMin e.nextDue - s.monotonic

/-- The wait on the event: it returns at once if the event is set, and does not sleep if there is
nothing to wait for.  A timeout that is too large raises, and nothing catches that. -/
def waitPhase (s : PeriodicJobScheduler) (timeout : Double) : LoopPhase :=
  if s.stopEvent then .finished
  else if 0 < timeout then ((s.deadline timeout).map LoopPhase.waiting).getD .finished
  else .waiting (s.clock / 1000000000)

/-- The next step of a thread.  A job takes as long as it takes: its next step is its end, with a
result or an exception that `_run_contained` logs. -/
def threadStep (s : PeriodicJobScheduler) (t : LoopThread) : LoopThread :=
  match t.phase with
  | .started =>
    if s.schedules.isEmpty then { t with phase := .finished }
    else
      { t with
        phase := .looping
        entries := s.schedules.map fun schedule =>
          ⟨schedule, s.monotonic + schedule.intervalSeconds⟩ }
  | .looping =>
    { t with phase := s.waitPhase (Double.pyMax (s.waitSeconds t.entries) 0) }
  | .waiting deadline =>
    if deadline ≤ s.clock / 1000000000 then
      { t with phase := .passing s.monotonic 0, passes := t.passes + 1 }
    else t
  | .woken => { t with phase := .finished }
  | .passing now position =>
    match t.entries[position]? with
    | none => { t with phase := .looping }
    | some entry =>
      if entry.nextDue ≤ now then { t with phase := .running now position }
      else { t with phase := .passing now (position + 1) }
  | .running now position =>
    { t with
      phase := .passing now (position + 1)
      entries := t.entries.modify position fun entry =>
        { entry with nextDue := s.monotonic + entry.schedule.intervalSeconds } }
  | .finished => t

/-! ## The caller -/

/-- `is_running`. -/
def isRunning (s : PeriodicJobScheduler) : Bool :=
  (s.thread.bind fun i => s.threads[i]?).any LoopThread.isAlive

/-- `start` makes a new thread. -/
def Spawns (s : PeriodicJobScheduler) : Prop := s.joining = none ∧ s.isRunning = false

instance (s : PeriodicJobScheduler) : Decidable s.Spawns := inferInstanceAs (Decidable (_ ∧ _))

def start (s : PeriodicJobScheduler) : PeriodicJobScheduler :=
  if s.Spawns then
    { s with
      stopEvent := false
      thread := some s.threads.length
      threads := s.threads ++ [.new] }
  else s

/-- `stop`, up to its wait in `join`.  A timeout that is too large raises there. -/
def stop (s : PeriodicJobScheduler) (timeoutSeconds : Double) : PeriodicJobScheduler :=
  match s.joining, s.thread with
  | none, some i =>
    { s with
      stopEvent := true
      threads := (s.threads.map LoopThread.notified).modify i LoopThread.markStopped
      joining := s.deadline (Double.pyMax timeoutSeconds 0) }
  | _, _ => s

/-- `join` returns when the thread has ended or the timeout is over; either way the scheduler
forgets the thread. -/
def joinReturns (s : PeriodicJobScheduler) : PeriodicJobScheduler :=
  match s.joining with
  | some deadline =>
    if s.isRunning && decide ((s.clock : ℚ) / 1000000000 < deadline) then s
    else { s with joining := none, thread := none }
  | none => s

/-- The state after an event; `start` and `stop` are called one at a time, so neither is called
while an earlier `stop` waits. -/
def step (s : PeriodicJobScheduler) : SchedulerEvent → PeriodicJobScheduler
  | .start => s.start
  | .stop timeoutSeconds => s.stop timeoutSeconds
  | .joinReturns => s.joinReturns
  | .thread i => { s with threads := s.threads.modify i s.threadStep }
  | .elapse nanoseconds => { s with clock := s.clock + nanoseconds }

end PeriodicJobScheduler

end ClusterPulse
