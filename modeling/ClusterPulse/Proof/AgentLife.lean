import ClusterPulse.Proof.BufferSite
import ClusterPulse.Proof.BufferText

/-!
# What ends an Agent

An Agent runs until a signal arrives.  Short of that, only a few things end it (`EndsProcess`): before
the loop the settings, the client of the transport, the constructor of the buffer or the first reading
of the processor fail; in the loop `time.sleep` refuses the interval, an allowed directory has a NUL in
its path, a request fails in a way that the transport does not classify, what answers is not an
acknowledgement, a payload has a number that is not finite, or the path of the buffer has no name.  A
buffer file that is not text would be one more; but no Agent leaves one behind, whatever fails and
wherever it is killed (`ended_by`).
-/

namespace ClusterPulse

open Prog FileTree FsProg FileBuffer
open NodeProgram (ask onFile onFilesystem)

variable {ω : Type} {env : NodeEnvironment ω} {settings : AgentProcessSettings} {j : PydanticJson}
  {repr : TextRepr} {t₀ : FileTree} {start : Node ω}

/-! ## What a payload comes from -/

/-- The samples that a collector makes of a reading. -/
def PsutilCall.samples : (reading : PsutilCall) → reading.Res → List MetricSample
  | .cpuPercent, usage => cpuSamples usage
  | .virtualMemory, vm => memorySamples vm
  | .diskUsage path, usage => diskSamples path usage
  | .netIoCounters, counters => (counters.map networkSamples).getD []

/-- A sample of something that was read. -/
abbrev IsRead (env : NodeEnvironment ω) (sample : MetricSample) : Prop :=
  ∃ n reading found, env.psutil n reading = .ok found ∧ sample ∈ PsutilCall.samples reading found

/-- What a file of the buffer's name holds: what it held in the tree `t₀`, or what an Agent has
written. -/
inductive BufferContent (j : PydanticJson) (path : PurePath) (t₀ : FileTree) (content : List UInt8) :
    Prop
  | initial (d : Location) (h : t₀.node? (d ++ [path.name]) = some (.file content)) :
    BufferContent j path t₀ content
  | written (entries : List NodeMetricsPayload) (h : content = TextFile.encode (j.fileText entries)) :
    BufferContent j path t₀ content

/-- What the process may send. -/
inductive MaySend (env : NodeEnvironment ω) (j : PydanticJson) (path : PurePath) (t₀ : FileTree)
    (payload : NodeMetricsPayload) : Prop
  | collected (h : ∀ sample ∈ payload.samples, IsRead env sample) : MaySend env j path t₀ payload
  | buffered (content : List UInt8) (entries : List NodeMetricsPayload)
      (h : BufferContent j path t₀ content) (hentries : decodeFile j content = .ok entries)
      (hpayload : payload ∈ entries) : MaySend env j path t₀ payload

/-! ## Why the process ends -/

/-- Why a process that finds the node as `start` may end with an exception, if the filesystem was `t₀`
before the first one. -/
inductive EndsProcess (env : NodeEnvironment ω) (settings : AgentProcessSettings) (j : PydanticJson)
    (t₀ : FileTree) (start : Node ω) : AgentError → Prop
  | settings (n : ℕ) (e : AgentError) (h : env.prepare n .settings = .error e) :
    EndsProcess env settings j t₀ start (.configurationError "failed to load agent settings")
  | client (n : ℕ) (e : AgentError) (h : env.prepare n .client = .error e) :
    EndsProcess env settings j t₀ start e
  /-- `FileBuffer.__init__` raises. -/
  | construction (w : Node ω) (e : AgentError) (hdisk : w.disk = start.disk)
      (h : ((FileBuffer.init ask settings.path).run env.handle w).1 = .error e) :
    EndsProcess env settings j t₀ start e
  /-- The reading in the constructor of `CpuCollector`. -/
  | startup (n : ℕ) (e : AgentError) (h : env.psutil n .cpuPercent = .error e) :
    EndsProcess env settings j t₀ start e
  | interval (e : AgentError)
      (h : NodeEnvironment.slept settings.collectionIntervalSeconds = .error e) :
    EndsProcess env settings j t₀ start e
  | nulPath (path : String) (hopt : settings.remediationEnabled = true)
      (hpath : path ∈ settings.remediationAllowedDirectorySet) (hnul : '\x00' ∈ path.toList) :
    EndsProcess env settings j t₀ start (.exception "embedded null byte")
  | unclassified (n : ℕ) (request : HttpRequest) (outside : ω) (e : AgentError)
      (h : (env.post n request outside).1 = .error e)
      (hkind : (HttpTransport.classify request e).isTransportError = false) :
    EndsProcess env settings j t₀ start (HttpTransport.classify request e)
  | notAnAck (n : ℕ) (payload : NodeMetricsPayload) (outside : ω) (response : HttpResponse)
      (h : (env.post n (.metrics payload) outside).1 = .ok response)
      (hstatus : response.statusCode < HttpTransport.httpClientErrorThreshold)
      (hack : response.ack = none) :
    EndsProcess env settings j t₀ start (.validationError "response is not an Ack")
  | notFinite (payload : NodeMetricsPayload) (hpayload : MaySend env j settings.path t₀ payload)
      (hfinite : payload.isFinite = false) :
    EndsProcess env settings j t₀ start
      (.exception "Out of range float values are not JSON compliant")
  /-- There is no temporary file beside a path without a name. -/
  | nameless (e : AgentError) (h : tmpPath settings.path = .error e) :
    EndsProcess env settings j t₀ start e

/-- A file of the buffer's name is text, wherever it is, and no link has its name or that of the
temporary file. -/
def HasText (env : FsEnvironment) (path : PurePath) (t : FileTree) : Prop :=
  Site env path (fun _ => True) (fun content => ∃ text, TextFile.decode content = some text) t

/-- It is one of the known texts. -/
def Lasts (env : NodeEnvironment ω) (j : PydanticJson) (path : PurePath) (t₀ : FileTree)
    (w : Node ω) : Prop :=
  Site env.fs path (fun _ => True) (fun content =>
    (∃ text, TextFile.decode content = some text) ∧ BufferContent j path t₀ content) w.disk.tree

theorem lasts_of_hasText {w : Node ω} (h : HasText env.fs settings.path w.disk.tree) :
    Lasts env j settings.path w.disk.tree w where
  holder := h.holder
  main d hD node hnode := by
    obtain hdir | ⟨content, rfl, htext⟩ := h.main d hD node hnode
    · exact .inl hdir
    · exact .inr ⟨content, rfl, htext, .initial d hnode⟩
  tmp := h.tmp

/-- An exception for one of the reasons; where the path of the buffer has a NUL, the constructor has
raised already. -/
abbrev Ending (env : NodeEnvironment ω) (settings : AgentProcessSettings) (j : PydanticJson)
    (t₀ : FileTree) (start : Node ω) (e : AgentError) : Prop :=
  EndsProcess env settings j t₀ start e ∨ settings.path.hasNul = true

/-- The program leaves the buffer file one of the known texts, and raises an `E` only. -/
abbrev Lasting {α : Type} (env : NodeEnvironment ω) (settings : AgentProcessSettings)
    (j : PydanticJson) (t₀ : FileTree) (E : AgentError → Prop) (p : NodeProgram α) : Prop :=
  Safe env.handle (Lasts env j settings.path t₀) (fun _ _ => True) E p

/-! ## The buffer file -/

section File

/-- The known texts are payloads. -/
theorem decodeFile_of_text {content : List UInt8}
    (h : (∃ text, TextFile.decode content = some text) ∧ BufferContent j settings.path t₀ content) :
    ∃ entries, decodeFile j content = .ok entries := by
  obtain ⟨⟨text, htext⟩, -⟩ := h
  exact ⟨j.payloadsIn text, by rw [decodeFile, htext]⟩

/-- A read that fails counts as an empty file, and the text of a file decodes. -/
theorem lasting_read : Lasting env settings j t₀ (Ending env settings j t₀ start)
    (onFile settings.path (readFile j)) := by
  intro w hw
  refine (runs_readSite (fun _ => decodeFile_of_text) hw).mono (fun _ _ h => ⟨trivial, h.2⟩)
    fun r w' hr => ?_
  cases r with
  | ok entries => exact hr.2
  | error e => exact ⟨.inr hr.1, hr.2⟩

theorem yields_read : Yields env.handle (Lasts env j settings.path t₀)
    (fun payloads => ∀ p ∈ payloads, MaySend env j settings.path t₀ p)
    (onFile settings.path (readFile j)) := by
  intro w hw entries hentries
  have hend := (runs_readSite (fun _ => decodeFile_of_text) hw).run
  rw [hentries] at hend
  obtain ⟨rfl | ⟨content, hcontent, hdecode⟩, -⟩ := hend
  · exact nofun
  · exact fun p hp => .buffered content entries hcontent.2 hdecode hp

/-- The file is replaced only after all of its text is in the temporary file. -/
theorem lasting_write (entries : List NodeMetricsPayload) :
    Lasting env settings j t₀ (Ending env settings j t₀ start)
      (onFile settings.path (writeFile j entries)) := by
  intro w hw
  refine (runs_writeSite ⟨⟨_, TextFile.decode_encode _⟩, .written entries rfl⟩ hw).mono
    (fun _ _ h => ⟨trivial, h.2⟩) fun r w' hr => ?_
  cases r with
  | ok _ => exact hr
  | error e => exact ⟨hr.1.imp_left fun htmp => .nameless e htmp, hr.2⟩

theorem lasting_init : Lasting env settings j t₀ (fun _ => True)
    (FileBuffer.init ask settings.path) := by
  refine safe_init (fun call hcall => ?_) _
  refine safe_perform (fun w hw => ⟨trivial, ?_⟩) fun _ _ _ _ => trivial
  have hempty : (∃ text, TextFile.decode [] = some text) ∧ BufferContent j settings.path t₀ [] :=
    ⟨⟨[], rfl⟩, .written [] rfl⟩
  exact Site.setUp hw hempty hcall (pathStep env w.calls w.disk.tree call)

end File

/-! ## The other calls -/

section Calls

variable {E : AgentError → Prop}

theorem lasting_perform {c : NodeCall} (hdisk : ∀ w, (env.handle c w).2.disk = w.disk)
    (hraise : ∀ w e, (env.handle c w).1 = .error e → E e) :
    Lasting env settings j t₀ E (NodeProgram.perform c) := by
  refine safe_perform (fun w hw => ⟨trivial, ?_⟩) fun w e _ he => hraise w e he
  unfold Lasts
  rwa [hdisk]

/-- The executor raises only where an allowed directory has a NUL in its path. -/
theorem raised_onFilesystem {action : PendingAction} {w : Node ω} {e : AgentError}
    (he : ((onFilesystem (PlaybookExecutor.execute repr ⟨settings.remediationAllowedDirectorySet⟩
      action)).run env.handle w).1 = .error e) :
    (∃ path ∈ settings.remediationAllowedDirectorySet, '\x00' ∈ path.toList) ∧
      e = .exception "embedded null byte" := by
  rw [run_onFilesystem] at he
  have hraised : ∃ e₀, ((PlaybookExecutor.execute repr ⟨settings.remediationAllowedDirectorySet⟩
      action).run (handler env.fs) w.disk).1 = .error e₀ ∧ e = .exception e₀.message := by
    cases hr : ((PlaybookExecutor.execute repr ⟨settings.remediationAllowedDirectorySet⟩
        action).run (handler env.fs) w.disk).1 with
    | ok result =>
      rw [hr] at he
      cases he
    | error e₀ =>
      rw [hr] at he
      exact ⟨e₀, rfl, (Except.error.inj he).symm⟩
  obtain ⟨e₀, hraised, rfl⟩ := hraised
  by_cases hpermits : ∃ path, PlaybookExecutor.Permits ⟨settings.remediationAllowedDirectorySet⟩
      action path
  · obtain ⟨path, hpermits⟩ := hpermits
    by_cases hnul : '\x00' ∈ path.toList
    · rw [run_execute_nul hpermits hnul] at hraised
      obtain rfl := Except.error.inj hraised
      exact ⟨⟨path, hpermits.2.2, hnul⟩, rfl⟩
    · have hrun := (runs_execute env.fs repr w.disk hpermits hnul).run
      rw [hraised] at hrun
      exact hrun.elim
  · obtain ⟨result, hrun, -⟩ := run_execute_of_not_permits env.fs repr w.disk
      (not_exists.1 hpermits)
    rw [hrun] at hraised
    cases hraised

theorem lasting_onFilesystem (hopt : settings.remediationEnabled = true) (action : PendingAction) :
    Lasting env settings j t₀ (Ending env settings j t₀ start) (onFilesystem
      (PlaybookExecutor.execute repr ⟨settings.remediationAllowedDirectorySet⟩ action)) := by
  have hsafe : Lasting env settings j t₀ (fun _ => True) (onFilesystem
      (PlaybookExecutor.execute repr ⟨settings.remediationAllowedDirectorySet⟩ action)) :=
    ((executes_onFilesystem hopt action).keep fun _ _ h hw => Site.of_le hw h.removed.le).relax
      fun _ _ _ => trivial
  refine hsafe.outcome fun w e _ he => ?_
  obtain ⟨⟨path, hpath, hnul⟩, rfl⟩ := raised_onFilesystem he
  exact .inl (.nulPath path hopt hpath hnul)

/-- A response to the request, with a status below 400. -/
def Answers (env : NodeEnvironment ω) (request : HttpRequest) (response : HttpResponse) : Prop :=
  (∃ n outside, (env.post n request outside).1 = .ok response) ∧
    response.statusCode < HttpTransport.httpClientErrorThreshold

theorem orTransport_of_checkStatus {response : HttpResponse} {e : AgentError}
    (h : HttpTransport.checkStatus response = .error e) : OrTransport E e := by
  unfold HttpTransport.checkStatus at h
  split_ifs at h
  · obtain rfl := Except.error.inj h
    exact .inl rfl
  · obtain rfl := Except.error.inj h
    exact .inl rfl

theorem statusCode_of_checkStatus {response response' : HttpResponse}
    (h : HttpTransport.checkStatus response = .ok response') :
    response' = response ∧ response.statusCode < HttpTransport.httpClientErrorThreshold := by
  unfold HttpTransport.checkStatus at h
  split_ifs at h with hserver hclient
  exact ⟨(Except.ok.inj h).symm, not_le.1 hclient⟩

theorem runs_post (request : HttpRequest) (hfinite : request.isFinite = true) {w : Node ω}
    (hw : Lasts env j settings.path t₀ w) :
    Runs env.handle (fun _ w' => True ∧ Lasts env j settings.path t₀ w') (settings.http.post request) w
      (Ends (fun response w' => Answers env request response ∧ Lasts env j settings.path t₀ w')
        fun e w' => OrTransport (Ending env settings j t₀ start) e ∧
          Lasts env j settings.path t₀ w') := by
  unfold HttpTransport.post
  rw [HttpTransport.clientPost_eq hfinite]
  refine Runs.andThen (P := fun response w' =>
    (∃ n outside, (env.post n request outside).1 = .ok response) ∧
      Lasts env j settings.path t₀ w') ?_ fun response w' h => ?_
  · refine (runs_perform (Q := fun r w' => (env.post w.calls request w.outside).1 = r ∧
      Lasts env j settings.path t₀ w') ⟨trivial, hw⟩ ⟨rfl, hw⟩).tryCatch
        (fun response w' h => ⟨⟨_, _, h.1⟩, h.2⟩) fun e w' h => ?_
    refine ⟨?_, h.2⟩
    cases hkind : (HttpTransport.classify request e).isTransportError with
    | true => exact .inl hkind
    | false => exact .inr (.inl (.unclassified _ request _ e h.1 hkind))
  · refine runs_lift ?_
    cases hcheck : HttpTransport.checkStatus response with
    | error e => exact ⟨orTransport_of_checkStatus hcheck, h.2⟩
    | ok response' =>
      obtain ⟨rfl, hstatus⟩ := statusCode_of_checkStatus hcheck
      exact ⟨⟨h.1, hstatus⟩, h.2⟩

theorem lasting_sendOnce (payload : NodeMetricsPayload)
    (hpayload : MaySend env j settings.path t₀ payload) :
    Lasting env settings j t₀ (OrTransport (Ending env settings j t₀ start))
      (settings.http.sendOnce payload) := by
  intro w hw
  cases hfinite : payload.isFinite with
  | false =>
    rw [HttpTransport.sendOnce_of_not_isFinite hfinite]
    exact ⟨.inr (.inl (.notFinite payload hpayload hfinite)), hw⟩
  | true =>
    refine (runs_post (.metrics payload) hfinite hw).andThen fun response w' h =>
      runs_lift ?_
    obtain ⟨⟨⟨n, outside, hpost⟩, hstatus⟩, hw'⟩ := h
    unfold HttpTransport.decodeAck
    cases hack : response.ack with
    | some ack => exact hw'
    | none => exact ⟨.inr (.inl (.notAnAck n payload outside response hpost hstatus hack)), hw'⟩

theorem lasting_report (actionId : ℕ) (result : ActionResult) :
    Lasting env settings j t₀ (OrTransport (Ending env settings j t₀ start))
      (settings.http.reportActionResultOnce actionId result) := fun _ hw =>
  (runs_post (.actionResult actionId result) rfl hw).andThen fun _ _ h => h.2

theorem yields_psutil (reading : PsutilCall) : Yields env.handle (fun _ => True)
    (fun found => ∃ n, env.psutil n reading = .ok found)
    (NodeProgram.perform (.psutil reading)) := by
  intro w _ found hfound
  rw [NodeProgram.perform, run_perform] at hfound
  exact ⟨w.calls, hfound⟩

theorem yields_samples (reading : PsutilCall) {f : reading.Res → List MetricSample}
    (hf : ∀ found, f found = reading.samples found) : Yields env.handle (fun _ => True)
      (fun samples => ∀ sample ∈ samples, IsRead env sample)
      (f <$> NodeProgram.perform (.psutil reading)) := by
  refine (yields_psutil reading).map f fun found h sample hsample => ?_
  obtain ⟨n, hn⟩ := h
  exact ⟨n, reading, found, hn, hf found ▸ hsample⟩

theorem yields_collectors : ∀ c ∈ AgentProcessSettings.collectors NodeProgram.cpu,
    Yields env.handle (fun _ => True) (fun samples => ∀ sample ∈ samples, IsRead env sample)
      c.collect := by
  intro c hc
  simp only [AgentProcessSettings.collectors, List.mem_cons, List.not_mem_nil, or_false] at hc
  obtain rfl | rfl | rfl | rfl := hc
  · exact yields_samples .cpuPercent fun _ => rfl
  · exact yields_samples .virtualMemory fun _ => rfl
  · exact yields_samples (.diskUsage defaultDiskMountPath) fun _ => rfl
  · refine (yields_psutil .netIoCounters).bind fun counters h => ?_
    obtain ⟨n, hn⟩ := h
    cases counters with
    | none => exact fun _ _ _ hraised => by cases hraised
    | some counters =>
      exact yields_pure fun sample hsample => ⟨n, .netIoCounters, some counters, hn, hsample⟩

/-- What is collected was read. -/
theorem yields_collect : Yields env.handle (fun _ => True)
    (fun payload => ∀ sample ∈ payload.samples, IsRead env sample)
    (settings.schedulerWith j repr NodeProgram.cpu).collect := by
  have hfound : Yields env.handle (fun _ => True)
      (fun found : List MetricSample × List String => ∀ sample ∈ found.1, IsRead env sample)
      ((AgentProcessSettings.collectors NodeProgram.cpu).foldlM AgentScheduler.collectFrom
        ([], [])) := by
    refine Yields.foldlM _ (fun found hfound c hc => ?_) nofun
    refine Yields.tryCatch ((yields_collectors c hc).bind fun samples hsamples =>
      yields_pure fun sample hsample => ?_) fun e => yields_pure hfound
    rcases List.mem_append.1 hsample with hsample | hsample
    · exact hfound sample hsample
    · exact hsamples sample hsample
  exact hfound.bind fun found h => (yields_trivial _).bind fun _ _ => yields_pure h

theorem lasting_calls (start : Node ω) : CallsSafe env.handle (Lasts env j settings.path t₀)
    (fun _ _ => True) (Ending env settings j t₀ start) (MaySend env j settings.path t₀) settings j
    repr where
  prepare step := lasting_perform (c := .prepare step) (fun _ => rfl) fun _ _ _ => trivial
  init := lasting_init
  psutil reading := lasting_perform (c := .psutil reading) (fun _ => rfl) fun _ _ _ => trivial
  startup := lasting_perform (c := .psutil .cpuPercent) (fun _ => rfl) fun w e he =>
    .inl (.startup w.calls e he)
  now := lasting_perform (c := .now) (fun _ => rfl) fun w e he => by cases he
  collected _ _ _ hpayload := .collected (yields_collect _ trivial _ hpayload)
  read := lasting_read
  readable := yields_read
  write := lasting_write
  send := lasting_sendOnce
  report := lasting_report
  execute := lasting_onFilesystem
  shouldStop := lasting_perform (c := .shouldStop) (fun _ => rfl) fun w e he => by cases he
  sleep := lasting_perform (c := .sleep _) (fun _ => rfl) fun _ e he => .inl (.interval e he)

end Calls

/-! ## Lives -/

theorem lasts_lives {settings : AgentProcessSettings} (lives : List Life) {w : Node ω}
    (hw : Lasts env j settings.path t₀ w) :
    Lasts env j settings.path t₀ (settings.lives j repr env lives w) := by
  induction lives generalizing w with
  | nil => exact hw
  | cons life rest ih =>
    have hmain : Lasting env settings j t₀ (fun _ => True) (settings.main j repr life.cycles) :=
      (lasting_calls w).main _
    have hstarted : Lasts env j settings.path t₀ w.started := hw
    exact ih (hmain.moment hstarted life.calls).2

/-- The constructor of the buffer does not return where the path has a NUL. -/
theorem hasNul_of_init {w w' : Node ω}
    (h : (FileBuffer.init ask settings.path).run env.handle w = (.ok (), w')) :
    settings.path.hasNul = false := by
  by_contra hnul
  rw [Bool.not_eq_false] at hnul
  have hraises : Runs env.handle (fun _ _ => True) (FileBuffer.init ask settings.path) w
      fun r _ => r ≠ .ok () := by
    refine Runs.bind (Q := fun _ _ => True) (runs_of_run trivial) (fun _ w₁ _ => ?_)
      fun _ _ _ => nofun
    have hmissing : (env.pathAnswer w₁.calls w₁.disk.tree (.exists? settings.path)).1 =
        .ok (.ok false) := by
      simp [NodeEnvironment.pathAnswer, hnul]
    refine (runs_ask trivial).bind (fun found w₂ hfound => ?_) fun _ _ _ => nofun
    have heq := (congrArg Prod.fst hfound).trans ((ask_answer env w₁ _).trans hmissing)
    obtain rfl := Except.ok.inj heq
    have htouch : (env.pathAnswer w₂.calls w₂.disk.tree (.touch settings.path)).1 =
        .error NodeEnvironment.embeddedNul := by
      simp [NodeEnvironment.pathAnswer, hnul]
    refine (runs_ask trivial).bind (fun touched w₃ htouched => ?_) fun _ _ _ => nofun
    cases (congrArg Prod.fst htouched).trans ((ask_answer env w₂ _).trans htouch)
  exact hraises.run (by rw [h])

/-- What comes before the first reading. -/
theorem ends_setUp (start : Node ω) {w : Node ω} (hdisk : w.disk = start.disk)
    (hw : Lasts env j settings.path t₀ w) :
    Runs env.handle (fun _ _ => True) settings.setUp w
      (Ends (fun _ w' => settings.path.hasNul = false ∧ Lasts env j settings.path t₀ w')
        fun e _ => EndsProcess env settings j t₀ start e) := by
  have hload : Runs env.handle (fun _ _ => True) AgentProcessSettings.loadSettings w
      (Ends (fun _ w' => w'.disk = w.disk) fun e _ => EndsProcess env settings j t₀ start e) := by
    refine (runs_perform (Q := fun r w' => env.prepare w.calls .settings = r ∧ w'.disk = w.disk)
      trivial ⟨rfl, rfl⟩).tryCatch ?_ ?_
    · exact fun _ _ h => h.2
    · exact fun e _ h => .settings w.calls e h.1
  refine hload.andThen fun _ w₁ h₁ => ?_
  have hclient : Runs env.handle (fun _ _ => True) (NodeProgram.perform (.prepare .client)) w₁
      (Ends (fun _ w' => w'.disk = w.disk) fun e _ => EndsProcess env settings j t₀ start e) := by
    refine (runs_perform (Q := fun r w' => env.prepare w₁.calls .client = r ∧ w'.disk = w₁.disk)
      trivial ⟨rfl, rfl⟩).post fun r w' h => ?_
    cases r with
    | ok _ => exact h.2.trans h₁
    | error e => exact .client w₁.calls e h.1
  refine hclient.andThen fun _ w₂ h₂ => ?_
  have hw₂ : Lasts env j settings.path t₀ w₂ := by
    unfold Lasts
    rwa [h₂]
  have hlasts := (lasting_init w₂ hw₂).run
  refine runs_of_run ?_
  rcases hrun : (FileBuffer.init ask settings.path).run env.handle w₂ with ⟨e | _, w₃⟩
  · exact .construction w₂ e (h₂.trans hdisk) (by rw [hrun])
  · rw [hrun] at hlasts
    exact ⟨hasNul_of_init hrun, hlasts⟩

/-! ## Signals -/

/-- A signal has arrived since the call number `start`, if the process knows of one. -/
def Signalled (env : NodeEnvironment ω) (start : ℕ) (w : Node ω) : Prop :=
  start ≤ w.calls ∧ (w.shutdownRequested = true → ∃ n, start ≤ n ∧ env.signal n = true)

theorem signalled_handle {start : ℕ} {w : Node ω} (h : Signalled env start w) (c : NodeCall) :
    Signalled env start (env.handle c w).2 := by
  have hcalls : (env.handle c w).2.calls = w.calls + 1 := by cases c <;> rfl
  have hflag : (env.handle c w).2.shutdownRequested =
      (w.shutdownRequested || (c.isHandled && env.signal w.calls)) := by
    cases c <;> rfl
  refine ⟨by rw [hcalls]; exact Nat.le_succ_of_le h.1, fun hrequested => ?_⟩
  rw [hflag, Bool.or_eq_true, Bool.and_eq_true] at hrequested
  obtain hbefore | ⟨-, hnow⟩ := hrequested
  · exact h.2 hbefore
  · exact ⟨w.calls, h.1, hnow⟩

theorem runs_signalled {α : Type} (p : NodeProgram α) {start : ℕ} {w : Node ω}
    (h : Signalled env start w) :
    Runs env.handle (fun _ _ => True) p w fun _ w' => Signalled env start w' := by
  induction p generalizing w with
  | pure a => exact h
  | throw e => exact h
  | call c k ih => exact ⟨trivial, ih _ (signalled_handle h c)⟩

/-- The loop ends where the process knows of a signal. -/
theorem runs_runForever {s : AgentScheduler NodeCall NodeCall.Res} {sleep : NodeProgram Unit}
    {start : ℕ} (cycles : ℕ) {w : Node ω} (h : Signalled env start w) :
    Runs env.handle (fun _ _ => True)
      (s.runForever (NodeProgram.perform .shouldStop) sleep cycles) w
      fun r _ => r = .ok true → ∃ n, start ≤ n ∧ env.signal n = true := by
  induction cycles generalizing w with
  | zero =>
    intro hstopped
    cases hstopped
  | succ cycles ih =>
    refine Runs.bind (Q := fun r w' => (∀ stop, r = .ok stop → stop = w'.shutdownRequested) ∧
      Signalled env start w') ?_ (fun stop w₁ h₁ => ?_) fun e w₁ _ hstopped => by cases hstopped
    · refine runs_perform trivial ⟨fun stop hstop => ?_, signalled_handle h .shouldStop⟩
      exact (Except.ok.inj hstop).symm
    · obtain ⟨hstop, h₁⟩ := h₁
      cases stop with
      | true => exact fun _ => h₁.2 (hstop true rfl).symm
      | false =>
        refine (runs_signalled s.runOnce h₁).bind (fun _ w₂ h₂ => ?_) fun _ _ _ hstopped => by
          cases hstopped
        refine (runs_signalled sleep h₂).bind (fun _ w₃ h₃ => ih h₃) fun _ _ _ hstopped => by
          cases hstopped

theorem signalled_of_stopped {cycles : ℕ} {w : Node ω}
    (h : ((settings.main j repr cycles).run env.handle w.started).1 = .ok true) :
    ∃ n, w.calls ≤ n ∧ env.signal n = true := by
  have hstart : Signalled env w.calls w.started := ⟨le_rfl, fun hrequested => by cases hrequested⟩
  have hmain : Runs env.handle (fun _ _ => True) (settings.main j repr cycles) w.started
      fun r _ => r = .ok true → ∃ n, w.calls ≤ n ∧ env.signal n = true := by
    rw [settings.main_eq]
    refine (runs_signalled settings.setUp hstart).bind (fun _ w₁ h₁ => ?_) fun _ _ _ hstopped => by
      cases hstopped
    exact (runs_signalled _ h₁).bind (fun _ _ h₂ => runs_runForever cycles h₂) fun _ _ _ hstopped => by
      cases hstopped
  exact hmain.run h

/-- After any lives of an Agent on a node whose buffer file was text, the next one ends with an
exception only for one of the reasons, and without one only after a signal. -/
theorem ended_by (settings : AgentProcessSettings) (j : PydanticJson) (repr : TextRepr)
    (env : NodeEnvironment ω) (lives : List Life) (cycles : ℕ) (w : Node ω)
    (hw : HasText env.fs settings.path w.disk.tree) :
    let before := settings.lives j repr env lives w
    let ending := ((settings.main j repr cycles).run env.handle before.started).1
    HasText env.fs settings.path before.disk.tree ∧
      (∀ e, ending = .error e → EndsProcess env settings j w.disk.tree before e) ∧
      (ending = .ok true → ∃ n, before.calls ≤ n ∧ env.signal n = true) := by
  intro before ending
  have hbefore : Lasts env j settings.path w.disk.tree before.started :=
    lasts_lives lives (lasts_of_hasText hw)
  have hmain : Runs env.handle (fun _ _ => True) (settings.main j repr cycles) before.started
      (Ends (fun _ _ => True) fun e _ => EndsProcess env settings j w.disk.tree before e) := by
    have hdisk : before.started.disk = before.disk := rfl
    rw [settings.main_eq]
    refine (ends_setUp before hdisk hbefore).bind (fun _ w₁ h₁ => ?_) fun _ _ he => he
    obtain ⟨hnul, h₁⟩ := h₁
    have hloop : Lasting env settings j w.disk.tree (Ending env settings j w.disk.tree before)
        (settings.loop j repr cycles) := (lasting_calls before).loop cycles
    refine (hloop w₁ h₁).mono (fun _ _ _ => trivial)
      fun r w' hr => ?_
    cases r with
    | ok _ => trivial
    | error e => exact hr.1.resolve_right (ne_true_of_eq_false hnul)
  refine ⟨⟨fun _ _ => trivial, fun d hD node hnode => ?_, hbefore.tmp⟩, fun e he => ?_,
    signalled_of_stopped⟩
  · exact (hbefore.main d hD node hnode).imp_right fun ⟨content, hfile, htext, _⟩ =>
      ⟨content, hfile, htext⟩
  · have hend := hmain.run
    change ((settings.main j repr cycles).run env.handle before.started).1 = _ at he
    rw [he] at hend
    exact hend

namespace Scenario

/-- A node on which nothing can be measured, and whose network is down. -/
def deadEnvironment : NodeEnvironment Unit where
  prepare _ _ := .ok ()
  psutil _ _ := .error (.exception "no such file or directory: '/proc/stat'")
  now _ := clock 0
  fileFault _ := none
  torn _ := none
  fs := faultless
  post _ _ outside := (.error (.httpxError .readError "connection reset"), outside)
  signal _ := false

/-- There is no buffer file yet. -/
def freshNode : Node Unit := { disk := ⟨linkedTree, 0⟩, outside := () }

theorem hasText_linkedTree : HasText faultless
    (AgentProcessSettings.path { nodeId := "node-1" }) linkedTree := by
  have hunnamed : ∀ e ∈ linkedTree.entries, e.1.getLast? ≠
      some (AgentProcessSettings.path { nodeId := "node-1" }).name ∧
      e.1.getLast? ≠ some (tmpName (AgentProcessSettings.path { nodeId := "node-1" })) := by
    decide +kernel
  refine ⟨fun _ _ => trivial, fun d _ node hnode => ?_, fun d _ target hnode => ?_⟩
  · rw [node?_eq_some_iff (by simp)] at hnode
    exact absurd List.getLast?_concat (hunnamed _ hnode).1
  · rw [node?_eq_some_iff (by simp)] at hnode
    exact absurd List.getLast?_concat (hunnamed _ hnode).2

theorem ended_by_deadEnvironment :
    EndsProcess deadEnvironment { nodeId := "node-1" } (pydantic "node-1") linkedTree freshNode
      (.exception "no such file or directory: '/proc/stat'") :=
  (ended_by { nodeId := "node-1" } (pydantic "node-1") id deadEnvironment [] 1 freshNode
    hasText_linkedTree).2.1 _ (by decide +kernel)

end Scenario

end ClusterPulse
