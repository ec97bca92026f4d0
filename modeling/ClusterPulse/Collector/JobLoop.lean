import ClusterPulse.Collector.Scheduler
import ClusterPulse.Lib.Program
import Mathlib.Data.NNRat.Defs

/-!
# One execution of the job loop

`_run_loop` as a program that reads the monotonic clock, waits on the stop event and runs the jobs,
with exact arithmetic.  A `LoopEnvironment` decides what the code cannot: how much time passes
before and during each call, whether a wait sees the stop event, and which runs of a job raise.
-/

namespace ClusterPulse

/-- A job and how often it should run, in exact seconds. -/
structure ExactSchedule where
  jobName : String
  intervalSeconds : ℚ
  intervalSeconds_pos : 0 < intervalSeconds
deriving DecidableEq

/-- A schedule with its next due time. -/
structure LoopEntry where
  schedule : ExactSchedule
  nextDue : ℚ
deriving DecidableEq

/-- What the loop asks of the outside.  A job is told by the position of its schedule. -/
inductive LoopCall where
  | monotonic
  | wait (timeout : ℚ)
  | run (position : ℕ) (jobName : String)
deriving DecidableEq

@[reducible] def LoopCall.Res : LoopCall → Type
  | .monotonic => ℚ
  | .wait _ => Bool
  | .run .. => Unit

inductive LoopError where
  /-- An `Exception` out of a job. -/
  | jobException
  /-- A wait for longer than the platform can wait. -/
  | overflowError
  /-- The process was stopped here. -/
  | interrupted
deriving DecidableEq

namespace JobLoop

abbrev Loop (α : Type) : Type := Prog LoopCall LoopCall.Res LoopError α

/-- `[_Entry(schedule, time.monotonic()) for schedule in schedules]`. -/
def makeEntries : List ExactSchedule → Loop (List LoopEntry)
  | [] => return []
  | schedule :: schedules => do
    let now ← Prog.perform LoopCall.monotonic
    let entries ← makeEntries schedules
    return ⟨schedule, now + schedule.intervalSeconds⟩ :: entries

/-- Run a job and contain its exception. -/
def runContained (position : ℕ) (schedule : ExactSchedule) : Loop Unit :=
  (Prog.perform (LoopCall.run position schedule.jobName)).tryCatch fun
    | LoopError.jobException => return ()
    | e => .throw e

/-- `min(entry.next_due for entry in entries) - now`. -/
def waitSeconds (entries : List LoopEntry) (now : ℚ) : ℚ :=
  (entries.map LoopEntry.nextDue).min?.getD now - now

/-- Wait until the first entry is due.  The answer is the reading that the pass goes by, or none if
the stop event is set. -/
def awaitDue (entries : List LoopEntry) : Loop (Option ℚ) := do
  let now ← Prog.perform LoopCall.monotonic
  if ← Prog.perform (LoopCall.wait (max (waitSeconds entries now) 0)) then return none
  let now ← Prog.perform LoopCall.monotonic
  return some now

/-- What a pass does with the entry at `position`. -/
def visit (now : ℚ) (position : ℕ) (entry : LoopEntry) : Loop LoopEntry := do
  if entry.nextDue ≤ now then
    runContained position entry.schedule
    let finished ← Prog.perform LoopCall.monotonic
    return { entry with nextDue := finished + entry.schedule.intervalSeconds }
  else return entry

/-- One pass over the entries from `position` on. -/
def pass (now : ℚ) (position : ℕ) : List LoopEntry → Loop (List LoopEntry)
  | [] => return []
  | entry :: entries => do
    let entry ← visit now position entry
    let entries ← pass now (position + 1) entries
    return entry :: entries

/-- The `while True` loop.  The process is stopped after `passes` passes, if the loop has not ended
by then. -/
def loop : ℕ → List LoopEntry → Loop Unit
  | 0, _ => .throw .interrupted
  | passes + 1, entries => do
    match ← awaitDue entries with
    | none => return ()
    | some now =>
      let entries ← pass now 0 entries
      loop passes entries

/-- `_run_loop`. -/
def runLoop (schedules : List ExactSchedule) (passes : ℕ) : Loop Unit := do
  if schedules.isEmpty then return ()
  let entries ← makeEntries schedules
  loop passes entries

end JobLoop

/-! ## The outside -/

/-- A run of the job at a position. -/
structure JobRun where
  position : ℕ
  start : ℚ
  finish : ℚ
  raised : Bool
deriving DecidableEq

inductive LoopEvent where
  | reading (t : ℚ)
  | waited (stopObserved : Bool)
  | ran (run : JobRun)
deriving DecidableEq

/-- The time, and what has happened so far. -/
structure LoopWorld where
  time : ℚ
  calls : ℕ := 0
  trace : List LoopEvent := []
deriving DecidableEq

/-- What the outside does at the `n`-th call. -/
structure LoopEnvironment where
  /-- The time that passes before the call. -/
  delay : ℕ → ℚ≥0
  /-- The time that the call takes. -/
  duration : ℕ → ℚ≥0
  /-- Whether a wait sees the stop event. -/
  stops : ℕ → Bool
  /-- Whether a job raises. -/
  raises : ℕ → Bool

/-- A call in an environment.  A reading of the clock is of the moment at which the call begins, and
a wait takes as long as it takes, whatever its timeout. -/
def LoopEnvironment.handle (env : LoopEnvironment) :
    Handler LoopCall LoopCall.Res LoopError LoopWorld := fun c w =>
  let start : ℚ := w.time + env.delay w.calls
  let finish : ℚ := start + env.duration w.calls
  match c with
  | .monotonic => (.ok start, ⟨finish, w.calls + 1, w.trace ++ [.reading start]⟩)
  | .wait timeout =>
    if PeriodicJobScheduler.timeoutMax < timeout then
      (.error .overflowError, ⟨finish, w.calls + 1, w.trace⟩)
    else (.ok (env.stops w.calls), ⟨finish, w.calls + 1, w.trace ++ [.waited (env.stops w.calls)]⟩)
  | .run position _ =>
    (if env.raises w.calls then .error .jobException else .ok (),
      ⟨finish, w.calls + 1, w.trace ++ [.ran ⟨position, start, finish, env.raises w.calls⟩]⟩)

/-- The runs in a trace. -/
def LoopEvent.run? : LoopEvent → Option JobRun
  | .ran run => some run
  | _ => none

/-- The runs so far, in order. -/
def LoopWorld.runs (w : LoopWorld) : List JobRun := w.trace.filterMap LoopEvent.run?

end ClusterPulse
