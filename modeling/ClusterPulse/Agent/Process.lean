import ClusterPulse.Agent.Buffer
import ClusterPulse.Agent.Collectors
import ClusterPulse.Agent.Remediation
import ClusterPulse.Cluster
import ClusterPulse.Collector.Authentication
import ClusterPulse.Lib.FileChanges

/-!
# The Agent's process

`main` on a node: the settings, then the scheduler with the HTTP transport, the buffer file, the four
collectors and the executor, each making calls of its own, and its loop.  A `Node` is what the process
works on: one filesystem, in which the buffer file lies and the executor removes entries, and `ω`, what
lies behind the network.

The process may be killed between any two calls, and started again.
-/

namespace ClusterPulse

/-! ## Calls -/

inductive PsutilCall where
  | cpuPercent
  | virtualMemory
  | diskUsage (path : String)
  | netIoCounters
deriving DecidableEq

@[reducible] def PsutilCall.Res : PsutilCall → Type
  | .cpuPercent => Double
  | .virtualMemory => VirtualMemory
  | .diskUsage _ => DiskUsage
  | .netIoCounters => Option NetIoCounters

/-- What is made before the loop out of what is not written here. -/
inductive Preparation where
  /-- `AgentSettings()`. -/
  | settings
  /-- The `httpx.Client` of the transport. -/
  | client
deriving DecidableEq

/-- What the process asks of the node. -/
inductive NodeCall where
  | prepare (step : Preparation)
  | psutil (reading : PsutilCall)
  | now
  /-- A call of the buffer on the filesystem. -/
  | path (call : PathCall)
  /-- A call of the executor on the filesystem. -/
  | fs (op : FsCall)
  | post (request : HttpRequest)
  | shouldStop
  | sleep (seconds : Double)

@[reducible] def NodeCall.Res : NodeCall → Type
  | .prepare _ => Unit
  | .psutil reading => reading.Res
  | .now => Datetime
  | .path call => call.Res
  | .fs op => Except ExecutorError op.Res
  | .post _ => HttpResponse
  | .shouldStop => Bool
  | .sleep _ => Unit

/-- A signal during the call is handled. -/
def NodeCall.isHandled : NodeCall → Bool
  | .prepare .settings => false
  | _ => true

/-- What runs on a node. -/
abbrev NodeProgram (α : Type) : Type := Prog NodeCall NodeCall.Res AgentError α

namespace NodeProgram

def perform (c : NodeCall) : NodeProgram c.Res := Prog.perform c

def ask (call : PathCall) : NodeProgram call.Res := perform (.path call)

/-- The steps of `p` on the file at `path`. -/
def onFile {α : Type} (path : PurePath) (p : Prog FileStep FileStep.Res AgentError α) :
    NodeProgram α :=
  FileBuffer.atPath ask path p

/-- The calls of `p` on the filesystem; what `p` raises is none of the Agent's own exceptions. -/
def onFilesystem {α : Type} (p : FsProg α) : NodeProgram α :=
  p.interpret (fun op => perform (.fs op)) >>= fun r =>
    Prog.lift (r.mapError fun e => .exception e.message)

def psutil : Psutil NodeCall NodeCall.Res where
  cpuPercent := perform (.psutil .cpuPercent)
  virtualMemory := perform (.psutil .virtualMemory)
  diskUsage path := perform (.psutil (.diskUsage path))
  netIoCounters := perform (.psutil .netIoCounters)

end NodeProgram

/-! ## The process -/

/-- The loop of `run_forever`: whether it ends within so many cycles. -/
def AgentScheduler.runForever {Op : Type} {Res : Op → Type} (s : AgentScheduler Op Res)
    (shouldStop : Prog Op Res AgentError Bool) (sleep : Prog Op Res AgentError Unit) :
    ℕ → Prog Op Res AgentError Bool
  | 0 => return false
  | cycles + 1 => do
    if ← shouldStop then return true
    s.runOnce
    sleep
    s.runForever shouldStop sleep cycles

/-- The settings that the process reads. -/
structure AgentProcessSettings extends AgentSettings where
  collectionIntervalSeconds : Double := 30
  bufferPath : String := "./agent_buffer.jsonl"
  remediationAllowedDirectories : String := ""

namespace AgentProcessSettings

open NodeProgram

variable (settings : AgentProcessSettings)

/-- The same comprehension as that of the tokens of a Collector. -/
def remediationAllowedDirectorySet : Finset String :=
  tokenSet settings.remediationAllowedDirectories

def http : HttpTransport NodeCall NodeCall.Res where
  client request := perform (.post request)
  retryAttempts := settings.httpRetryAttempts

def transport : Transport NodeCall NodeCall.Res := settings.http.transport

/-- The path of the buffer file. -/
def path : PurePath := .parse settings.bufferPath.toList

def buffer (j : PydanticJson) : MetricsBuffer NodeCall NodeCall.Res :=
  FileBuffer.buffer
    { readAll := onFile settings.path (FileBuffer.readFile j)
      writeAll := fun entries => onFile settings.path (FileBuffer.writeFile j entries)
      maxEntries := settings.bufferMaxEntries }

def executor (repr : TextRepr) : Option (PendingAction → NodeProgram ActionResult) :=
  if settings.remediationEnabled then
    some fun action => onFilesystem
      (PlaybookExecutor.execute repr ⟨settings.remediationAllowedDirectorySet⟩ action)
  else none

def collectors (cpu : MetricCollector NodeCall NodeCall.Res) :
    List (MetricCollector NodeCall NodeCall.Res) :=
  [cpu, psutil.memoryCollector, psutil.diskCollector defaultDiskMountPath, psutil.networkCollector]

/-- The scheduler, once the first collector is there. -/
def schedulerWith (j : PydanticJson) (repr : TextRepr)
    (cpu : MetricCollector NodeCall NodeCall.Res) : AgentScheduler NodeCall NodeCall.Res where
  nodeId := settings.nodeId
  collectors := collectors cpu
  transport := settings.transport
  buffer := settings.buffer j
  now := perform .now
  executor := settings.executor repr

def buildScheduler (j : PydanticJson) (repr : TextRepr) :
    NodeProgram (AgentScheduler NodeCall NodeCall.Res) := do
  perform (.prepare .client)
  FileBuffer.init ask settings.path
  let cpu ← psutil.cpuCollector
  return settings.schedulerWith j repr cpu

/-- `AgentSettings()`, of which `settings` come. -/
def loadSettings : NodeProgram Unit :=
  (perform (.prepare .settings)).tryCatch fun _ =>
    .throw (.configurationError "failed to load agent settings")

/-- `main`, for so many cycles at most. -/
def main (j : PydanticJson) (repr : TextRepr) (cycles : ℕ) : NodeProgram Bool := do
  loadSettings
  let scheduler ← settings.buildScheduler j repr
  scheduler.runForever (perform .shouldStop)
    (perform (.sleep settings.collectionIntervalSeconds)) cycles

end AgentProcessSettings

/-! ## The node -/

structure Node (ω : Type) where
  /-- The filesystem. -/
  disk : FsWorld
  /-- What lies behind the network. -/
  outside : ω
  /-- `_shutdown_requested`. -/
  shutdownRequested : Bool := false
  calls : ℕ := 0

/-- What decides the answers, besides the node; `n` counts the calls. -/
structure NodeEnvironment (ω : Type) where
  prepare : ℕ → Preparation → Except AgentError Unit
  psutil : ℕ → (reading : PsutilCall) → Except AgentError reading.Res
  now : ℕ → Datetime
  /-- Whether a call of the buffer fails. -/
  fileFault : ℕ → Option OSError
  /-- What a write that failed left in its file, if it got so far as to open it. -/
  torn : ℕ → Option (List UInt8)
  fs : FsEnvironment
  post : ℕ → HttpRequest → ω → Except AgentError HttpResponse × ω
  /-- Whether a signal to shut down has arrived since the call before. -/
  signal : ℕ → Bool

namespace NodeEnvironment

variable {ω : Type} (env : NodeEnvironment ω)

def embeddedNul : AgentError := .exception "embedded null byte"

/-- The answer to a call that returns something, which may fail. -/
def answer {α : Type} (n : ℕ) (result : Option α) : Except OSError α :=
  match env.fileFault n, result with
  | some e, _ => .error e
  | none, some a => .ok a
  | none, none => .error ⟨env.fs.strerror n⟩

/-- The tree after a call that makes it `changed`, or fails and leaves it as `failed`. -/
def outcome (n : ℕ) (changed : Option FileTree) (failed t : FileTree) : FileTree :=
  match env.fileFault n with
  | some _ => failed
  | none => changed.getD t

/-- What a write that failed leaves. -/
def tornTree (n : ℕ) (t : FileTree) (path : PurePath) : FileTree :=
  ((env.torn n).bind fun content => env.fs.write t path content).getD t

/-- The answer to a call of the buffer, the `n`-th of the process, and the tree after it. -/
def pathAnswer (n : ℕ) (t : FileTree) : (call : PathCall) → Except AgentError call.Res × FileTree
  | .mkdir path =>
    if path.hasNul then (.error embeddedNul, t)
    else match env.fileFault n, env.fs.mkdir t path with
      | some e, _ => (.ok (.error (.osError e)), t)
      | none, .ok t' => (.ok (.ok ()), t')
      | none, .error .fileNotFound => (.ok (.error .fileNotFound), t)
      | none, .error .fileExists => (.ok (.error (.osError ⟨env.fs.strerror n⟩)), t)
  | .isDir path =>
    (.ok (if path.hasNul then .ok false else env.answer n (some (env.fs.isDir t path))), t)
  | .exists? path =>
    (.ok (if path.hasNul then .ok false else env.answer n (some (env.fs.exists? t path))), t)
  | .touch path =>
    if path.hasNul then (.error embeddedNul, t)
    else
      let changed := env.fs.touch t path
      (.ok (env.answer n (changed.map fun _ => ())), env.outcome n changed t t)
  | .readText path =>
    if path.hasNul then (.error embeddedNul, t)
    else (.ok (env.answer n (env.fs.read t path)), t)
  | .writeText path content =>
    if path.hasNul then (.error embeddedNul, t)
    else
      let changed := env.fs.write t path content
      (.ok (env.answer n (changed.map fun _ => ())), env.outcome n changed (env.tornTree n t path) t)
  | .replace source target =>
    if source.hasNul || target.hasNul then (.error embeddedNul, t)
    else
      let changed := env.fs.replace t source target
      (.ok (env.answer n (changed.map fun _ => ())), env.outcome n changed t t)

/-- `time.sleep`: the nanoseconds have to fit into 64 bits, and a negative time is refused. -/
def slept : Double → Except AgentError Unit
  | .fin q =>
    if q * 1000000000 < -2 ^ 63 ∨ 2 ^ 63 ≤ q * 1000000000 then
      .error (.exception "timestamp too large to convert to C PyTime_t")
    else if q < 0 then .error (.exception "sleep length must be non-negative")
    else .ok ()
  | .inf _ => .error (.exception "timestamp too large to convert to C PyTime_t")
  | .nan => .error (.exception "Invalid value NaN (not a number)")

/-- The answers on a node.  The handlers of the signals are installed once there are settings. -/
def handle : Handler NodeCall NodeCall.Res AgentError (Node ω) := fun c w =>
  let w' : Node ω :=
    { w with
      calls := w.calls + 1
      shutdownRequested := w.shutdownRequested || (c.isHandled && env.signal w.calls) }
  match c with
  | .prepare step => (env.prepare w.calls step, w')
  | .psutil reading => (env.psutil w.calls reading, w')
  | .now => (.ok (env.now w.calls), w')
  | .path call =>
    let (r, tree) := env.pathAnswer w.calls w.disk.tree call
    (r, { w' with disk := { w.disk with tree } })
  | .fs op =>
    let (r, disk) := FsProg.handler env.fs op w.disk
    (.ok r, { w' with disk })
  | .post request =>
    let (r, outside) := env.post w.calls request w.outside
    (r, { w' with outside })
  | .shouldStop => (.ok w'.shutdownRequested, w')
  | .sleep seconds => (slept seconds, w')

end NodeEnvironment

/-! ## Lives -/

/-- One start of the process, which is killed after so many calls if it has not ended before. -/
structure Life where
  cycles : ℕ
  calls : ℕ

/-- The node as a new process finds it. -/
def Node.started {ω : Type} (w : Node ω) : Node ω := { w with shutdownRequested := false }

/-- The node after these starts of the process. -/
def AgentProcessSettings.lives {ω : Type} (settings : AgentProcessSettings) (j : PydanticJson)
    (repr : TextRepr) (env : NodeEnvironment ω) : List Life → Node ω → Node ω
  | [], w => w
  | life :: rest, w =>
    settings.lives j repr env rest
      ((settings.main j repr life.cycles).nextN env.handle life.calls w.started).2

end ClusterPulse
