import ClusterPulse.Agent.Process
import ClusterPulse.Lib.Safety

/-!
# A safe Agent

A cycle calls its collectors, the transport, the buffer, the clock and the executor.  Where each of
these is safe, so is the loop: what a collector raises becomes a collection error, and a transport
error goes no further than the delivery (`PartsSafe.runForever`).  Only payloads that the buffer or the
collectors return are sent, so what holds of these may be used there.
-/

namespace ClusterPulse

open Prog

variable {Op : Type} {Res : Op → Type} {σ : Type} {h : Handler Op Res AgentError σ} {I : σ → Prop}
  {R : σ → σ → Prop} {E : AgentError → Prop} {P : NodeMetricsPayload → Prop}

/-- A transport error, or one of the others. -/
def OrTransport (E : AgentError → Prop) (e : AgentError) : Prop := e.isTransportError = true ∨ E e

/-! ## Delivering over HTTP -/

section Transport

variable {t : HttpTransport Op Res}

theorem safe_withRetry {α : Type} {p : Prog Op Res AgentError α} (hp : Safe h I R E p) :
    Safe h I R E (t.withRetry p) := by
  unfold HttpTransport.withRetry
  generalize (t.retryAttempts - 1).toNat = more
  induction more with
  | zero => exact hp
  | succ more ih =>
    refine hp.tryCatch fun e he => ?_
    split_ifs
    · exact ih
    · exact safe_throw he

end Transport

/-! ## Cycles -/

namespace AgentScheduler

/-- The parts of a scheduler are safe, each up to the exceptions that a cycle handles; payloads are
sent that satisfy `P`. -/
structure PartsSafe (h : Handler Op Res AgentError σ) (I : σ → Prop) (R : σ → σ → Prop)
    (E : AgentError → Prop) (P : NodeMetricsPayload → Prop) (s : AgentScheduler Op Res) : Prop where
  collect : ∀ c ∈ s.collectors, Safe h I R (fun _ => True) c.collect
  collected : Yields h I P s.collect
  drained : ∀ n, Yields h I (fun payloads => ∀ p ∈ payloads, P p) (s.buffer.drain n)
  send : ∀ payload, P payload → Safe h I R (OrTransport E) (s.transport.send payload)
  report : ∀ actionId result, Safe h I R (OrTransport E)
    (s.transport.reportActionResult actionId result)
  enqueue : ∀ payload, Safe h I R E (s.buffer.enqueue payload)
  drain : ∀ n, Safe h I R E (s.buffer.drain n)
  now : Safe h I R E s.now
  execute : ∀ execute, s.executor = some execute → ∀ action, Safe h I R E (execute action)

variable {s : AgentScheduler Op Res}

theorem PartsSafe.attemptDelivery (hs : s.PartsSafe h I R E P) {payload : NodeMetricsPayload}
    (hpayload : P payload) : Safe h I R E (s.attemptDelivery payload) := by
  refine ((hs.send payload hpayload).map _).tryCatch fun e he => ?_
  split_ifs with hfatal htransport
  · exact safe_pure _
  · exact safe_pure _
  · exact safe_throw (he.resolve_left htransport)

theorem PartsSafe.enqueueAll (hs : s.PartsSafe h I R E P) (payloads : List NodeMetricsPayload) :
    Safe h I R E (s.enqueueAll payloads) := by
  induction payloads with
  | nil => exact safe_pure _
  | cons payload rest ih => exact (hs.enqueue payload).bind fun _ => ih

theorem PartsSafe.redeliver (hs : s.PartsSafe h I R E P) (payloads : List NodeMetricsPayload)
    (hpayloads : ∀ p ∈ payloads, P p) : Safe h I R E (s.redeliver payloads) := by
  induction payloads with
  | nil => exact safe_pure _
  | cons payload rest ih =>
    obtain ⟨hpayload, hrest⟩ := List.forall_mem_cons.1 hpayloads
    refine (hs.attemptDelivery hpayload).bind fun delivery => ?_
    cases delivery with
    | failed => exact hs.enqueueAll _
    | acknowledged | rejected => exact ih hrest

theorem PartsSafe.collects (hs : s.PartsSafe h I R E P) : Safe h I R E s.collect := by
  refine Safe.bind ?_ fun found => hs.now.bind fun _ => safe_pure _
  refine Safe.foldlM _ (fun found c hc => ?_) _
  exact ((hs.collect c hc).bind fun _ => safe_pure _).tryCatch fun _ _ => safe_pure _

theorem PartsSafe.executeAll (hs : s.PartsSafe h I R E P)
    {execute : PendingAction → Prog Op Res AgentError ActionResult}
    (hexecute : s.executor = some execute) (actions : List PendingAction) :
    Safe h I R E (s.executeAll execute actions) := by
  induction actions with
  | nil => exact safe_pure _
  | cons action rest ih =>
    refine (hs.execute execute hexecute action).bind fun result => Safe.bind ?_ fun _ => ih
    refine (hs.report _ _).tryCatch fun e he => ?_
    split_ifs with htransport
    · exact safe_pure _
    · exact safe_throw (he.resolve_left htransport)

theorem PartsSafe.deliver (hs : s.PartsSafe h I R E P) {payload : NodeMetricsPayload}
    (hpayload : P payload) : Safe h I R E (s.deliver payload) := by
  refine (hs.attemptDelivery hpayload).bind fun delivery => ?_
  cases delivery with
  | rejected => exact safe_pure _
  | failed => exact hs.enqueue payload
  | acknowledged ack =>
    show Safe h I R E (s.executePendingActions ack)
    unfold executePendingActions
    split
    · exact safe_pure _
    · rename_i execute hexecute
      exact hs.executeAll hexecute _

theorem PartsSafe.runOnce (hs : s.PartsSafe h I R E P) : Safe h I R E s.runOnce := by
  have hdrain : Safe h I R E s.drainBuffer :=
    (hs.drain _).bind_yields (hs.drained _) fun drained hdrained => hs.redeliver drained hdrained
  exact hdrain.bind fun _ => hs.collects.bind_yields hs.collected fun _ hpayload =>
    hs.deliver hpayload

theorem PartsSafe.runForever (hs : s.PartsSafe h I R E P) {shouldStop : Prog Op Res AgentError Bool}
    {sleep : Prog Op Res AgentError Unit} (hstop : Safe h I R E shouldStop)
    (hsleep : Safe h I R E sleep) (cycles : ℕ) :
    Safe h I R E (s.runForever shouldStop sleep cycles) := by
  induction cycles with
  | zero => exact safe_pure _
  | succ cycles ih =>
    refine hstop.bind fun stop => ?_
    cases stop with
    | true => exact safe_pure _
    | false => exact hs.runOnce.bind fun _ => hsleep.bind fun _ => ih

end AgentScheduler

/-! ## Programs on the node -/

section Node

variable {ω : Type} {env : NodeEnvironment ω} {w : Node ω} {α : Type}

open NodeProgram (ask onFile onFilesystem)

/-- The steps on the file at `path`, each of which is one call of the process, or none. -/
def NodeEnvironment.fileSteps (env : NodeEnvironment ω) (path : PurePath) :
    Handler FileStep FileStep.Res AgentError (Node ω) := fun step w =>
  (FileBuffer.stepAt ask path step).run env.handle w

theorem run_ask (call : PathCall) : (ask call).run env.handle w = env.handle (.path call) w :=
  run_perform (NodeCall.path call) w

theorem runs_ask {R : Node ω → Node ω → Prop} {call : PathCall}
    (h : R w ((ask call).run env.handle w).2) :
    Runs env.handle R (ask call) w fun r w' => (r, w') = (ask call).run env.handle w := by
  rw [run_ask] at h ⊢
  exact runs_perform h rfl

theorem runs_stepAt {R : Node ω → Node ω → Prop} {path : PurePath} {step : FileStep}
    (h : R w (env.fileSteps path step w).2) :
    Runs env.handle R (FileBuffer.stepAt ask path step) w fun r w' =>
      (r, w') = env.fileSteps path step w := by
  unfold NodeEnvironment.fileSteps at h ⊢
  unfold FileBuffer.stepAt at h ⊢
  cases step with
  | readText => exact runs_ask h
  | writeText content =>
    cases htmp : FileBuffer.tmpPath path with
    | error e => exact rfl
    | ok tmp =>
      rw [htmp] at h
      exact runs_ask h
  | replace =>
    cases htmp : FileBuffer.tmpPath path with
    | error e => exact rfl
    | ok tmp =>
      rw [htmp] at h
      exact runs_ask h

theorem runs_onFile {R : Node ω → Node ω → Prop} {Q : Except AgentError α → Node ω → Prop}
    {path : PurePath} {p : Prog FileStep FileStep.Res AgentError α}
    (hp : Runs (env.fileSteps path) R p w Q) : Runs env.handle R (onFile path p) w Q := by
  refine (Runs.interpret (fun step w' hstep => ?_) hp).bind (fun r w' hr => ?_) fun e w' he => ?_
  · refine (runs_stepAt hstep).result.post fun r w'' hr => ?_
    obtain ⟨r₀, rfl, hr⟩ := hr
    rw [← hr]
    exact ⟨rfl, rfl⟩
  · obtain ⟨r₀, hr, hQ⟩ := hr
    obtain rfl := Except.ok.inj hr
    exact runs_lift hQ
  · obtain ⟨r₀, hr, -⟩ := he
    cases hr

/-- The calls of the executor on the filesystem. -/
def NodeEnvironment.fsCalls (env : NodeEnvironment ω) :
    Handler FsCall FsCall.Res ExecutorError (Node ω) := fun op w =>
  ((FsProg.handler env.fs op w.disk).1, (env.handle (.fs op) w).2)

theorem projects_fsCalls (env : NodeEnvironment ω) :
    Projects Node.disk env.fsCalls (FsProg.handler env.fs) := fun _ _ => ⟨rfl, rfl⟩

theorem run_onFilesystem (p : FsProg α) :
    ((onFilesystem p).run env.handle w).1 =
      (p.run (FsProg.handler env.fs) w.disk).1.mapError fun e => .exception e.message := by
  have hinterpret : (p.interpret fun op => NodeProgram.perform (.fs op)).run env.handle w =
      (.ok (p.run env.fsCalls w).1, (p.run env.fsCalls w).2) :=
    run_interpret (fun op w => run_perform (NodeCall.fs op) w) p w
  unfold onFilesystem
  rw [run_bind, hinterpret, ← ((projects_fsCalls env).run p w).1]
  rcases (p.run env.fsCalls w).1 with e | a
  · rfl
  · rfl

end Node

/-! ## The process -/

/-- The collector that the constructor of `CpuCollector` leaves behind. -/
def NodeProgram.cpu : MetricCollector NodeCall NodeCall.Res :=
  ⟨"CpuCollector", cpuSamples <$> NodeProgram.psutil.cpuPercent⟩

namespace AgentProcessSettings

variable (settings : AgentProcessSettings)

/-- What comes before the first reading. -/
def setUp : NodeProgram Unit := do
  loadSettings
  NodeProgram.perform (.prepare .client)
  FileBuffer.init NodeProgram.ask settings.path

/-- The first reading, and what comes after it. -/
def loop (j : PydanticJson) (repr : TextRepr) (cycles : ℕ) : NodeProgram Bool := do
  let _ ← NodeProgram.psutil.cpuPercent
  (settings.schedulerWith j repr NodeProgram.cpu).runForever (NodeProgram.perform .shouldStop)
    (NodeProgram.perform (.sleep settings.collectionIntervalSeconds)) cycles

theorem main_eq (j : PydanticJson) (repr : TextRepr) (cycles : ℕ) :
    settings.main j repr cycles = settings.setUp >>= fun _ => settings.loop j repr cycles := by
  unfold main setUp buildScheduler Psutil.cpuCollector
  simp only [bind_assoc, pure_bind]
  rfl

end AgentProcessSettings

section Process

variable {h : Handler NodeCall NodeCall.Res AgentError σ} {settings : AgentProcessSettings}
  {j : PydanticJson} {repr : TextRepr}

open NodeProgram (ask onFile onFilesystem)

theorem safe_collectors
    (hpsutil : ∀ reading, Safe h I R (fun _ => True) (NodeProgram.perform (.psutil reading)))
    {cpu : MetricCollector NodeCall NodeCall.Res} (hcpu : Safe h I R (fun _ => True) cpu.collect) :
    ∀ c ∈ AgentProcessSettings.collectors cpu, Safe h I R (fun _ => True) c.collect := by
  intro c hc
  simp only [AgentProcessSettings.collectors, List.mem_cons, List.not_mem_nil, or_false] at hc
  obtain rfl | rfl | rfl | rfl := hc
  · exact hcpu
  · exact (hpsutil .virtualMemory).map _
  · exact (hpsutil (.diskUsage _)).map _
  · refine (hpsutil .netIoCounters).bind fun counters => ?_
    cases counters with
    | none => exact safe_throw trivial
    | some counters => exact safe_pure _

/-- The calls of the constructor of the buffer. -/
def PathCall.IsSetUp : PathCall → Prop
  | .mkdir _ | .isDir _ | .exists? _ | .touch _ => True
  | _ => False

section Init

variable (hask : ∀ call : PathCall, call.IsSetUp → Safe h I R (fun _ => True) (ask call))
include hask

theorem safe_mkdir {missing : NodeProgram Unit} (hmissing : Safe h I R (fun _ => True) missing)
    (path : PurePath) : Safe h I R (fun _ => True) (FileBuffer.mkdir ask missing path) := by
  refine (hask (.mkdir path) trivial).bind fun made => ?_
  rcases made with (_ | e) | _
  · exact hmissing
  · refine (hask (.isDir path) trivial).bind fun isDir => ?_
    rcases isDir with e' | (_ | _)
    · exact safe_throw trivial
    · exact safe_throw trivial
    · exact safe_pure _
  · exact safe_pure _

theorem safe_mkdirParents (parts : ℕ) (path : PurePath) :
    Safe h I R (fun _ => True) (FileBuffer.mkdirParents ask parts path) := by
  induction parts generalizing path with
  | zero => exact safe_mkdir hask (safe_throw trivial) path
  | succ parts ih =>
    refine safe_mkdir hask ((ih path.parent).bind fun _ => ?_) path
    exact safe_mkdir hask (safe_throw trivial) path

theorem safe_init (path : PurePath) : Safe h I R (fun _ => True) (FileBuffer.init ask path) := by
  refine (safe_mkdirParents hask _ _).bind fun _ => ?_
  refine (hask (.exists? path) trivial).bind fun found => ?_
  rcases found with e | (_ | _)
  · exact safe_throw trivial
  · exact (hask (.touch path) trivial).bind fun _ => safe_lift fun _ _ => trivial
  · exact safe_pure _

end Init

/-- The calls of the process are safe, in the groups in which it makes them. -/
structure CallsSafe (h : Handler NodeCall NodeCall.Res AgentError σ) (I : σ → Prop)
    (R : σ → σ → Prop) (E : AgentError → Prop) (P : NodeMetricsPayload → Prop)
    (settings : AgentProcessSettings) (j : PydanticJson) (repr : TextRepr) : Prop where
  prepare : ∀ step, Safe h I R (fun _ => True) (NodeProgram.perform (.prepare step))
  init : Safe h I R (fun _ => True) (FileBuffer.init ask settings.path)
  psutil : ∀ reading, Safe h I R (fun _ => True) (NodeProgram.perform (.psutil reading))
  startup : Safe h I R E (NodeProgram.perform (.psutil .cpuPercent))
  now : Safe h I R E (NodeProgram.perform .now)
  collected : Yields h I P (settings.schedulerWith j repr NodeProgram.cpu).collect
  read : Safe h I R E (onFile settings.path (FileBuffer.readFile j))
  readable : Yields h I (fun payloads => ∀ p ∈ payloads, P p)
    (onFile settings.path (FileBuffer.readFile j))
  write : ∀ entries, Safe h I R E (onFile settings.path (FileBuffer.writeFile j entries))
  send : ∀ payload, P payload → Safe h I R (OrTransport E) (settings.http.sendOnce payload)
  report : ∀ actionId result, Safe h I R (OrTransport E)
    (settings.http.reportActionResultOnce actionId result)
  execute : settings.remediationEnabled = true → ∀ action, Safe h I R E (onFilesystem
    (PlaybookExecutor.execute repr ⟨settings.remediationAllowedDirectorySet⟩ action))
  shouldStop : Safe h I R E (NodeProgram.perform .shouldStop)
  sleep : Safe h I R E (NodeProgram.perform (.sleep settings.collectionIntervalSeconds))

/-- What is drained was read. -/
theorem CallsSafe.drained (hcalls : CallsSafe h I R E P settings j repr) (n : ℕ) :
    Yields h I (fun payloads => ∀ p ∈ payloads, P p) ((settings.buffer j).drain n) :=
  hcalls.readable.bind fun _ hentries =>
    (yields_trivial (onFile settings.path (FileBuffer.writeFile j _))).bind fun _ _ =>
      yields_pure fun p hp => hentries p (List.mem_of_mem_take hp)

theorem CallsSafe.partsSafe (hcalls : CallsSafe h I R E P settings j repr) :
    (settings.schedulerWith j repr NodeProgram.cpu).PartsSafe h I R E P where
  collect := safe_collectors hcalls.psutil ((hcalls.psutil .cpuPercent).map _)
  collected := hcalls.collected
  drained := hcalls.drained
  send payload hpayload := safe_withRetry (hcalls.send payload hpayload)
  report actionId result := safe_withRetry (hcalls.report actionId result)
  enqueue payload := hcalls.read.bind fun _ => hcalls.write _
  drain n := hcalls.read.bind fun _ => (hcalls.write _).bind fun _ => safe_pure _
  now := hcalls.now
  execute := by
    intro execute hexecute action
    change settings.executor repr = some execute at hexecute
    unfold AgentProcessSettings.executor at hexecute
    split_ifs at hexecute with hopt
    obtain rfl := Option.some.inj hexecute
    exact hcalls.execute hopt action

theorem CallsSafe.loop (hcalls : CallsSafe h I R E P settings j repr) (cycles : ℕ) :
    Safe h I R E (settings.loop j repr cycles) :=
  hcalls.startup.bind fun _ =>
    hcalls.partsSafe.runForever hcalls.shouldStop hcalls.sleep cycles

theorem CallsSafe.main (hcalls : CallsSafe h I R E P settings j repr) (cycles : ℕ) :
    Safe h I R (fun _ => True) (settings.main j repr cycles) := by
  have hload : Safe h I R (fun _ => True) AgentProcessSettings.loadSettings :=
    (hcalls.prepare .settings).tryCatch fun _ _ => safe_throw trivial
  have hsetUp : Safe h I R (fun _ => True) settings.setUp :=
    hload.bind fun _ => (hcalls.prepare .client).bind fun _ => hcalls.init
  rw [settings.main_eq]
  exact hsetUp.bind fun _ => (hcalls.loop cycles).mono fun _ _ => trivial

end Process

end ClusterPulse
