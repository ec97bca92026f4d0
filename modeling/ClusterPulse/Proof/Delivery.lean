import ClusterPulse.Proof.Accounting
import ClusterPulse.Proof.AgentLife
import ClusterPulse.Proof.Ingested

/-!
# From the node into the database

The ledger of a node: the payloads in its buffer file, and those that the Collector has stored.  An Agent
whose token is accepted keeps it over any network, so none of its payloads is lost but by eviction
(`no_payload_lost`), and over a network that answers, the backlog in the file arrives, fifty payloads in
every cycle (`backlog_arrives`).
-/

namespace ClusterPulse

open Prog FileTree FileBuffer
open NodeProgram (onFile onFilesystem)

/-! ## The Collector behind the network -/

/-- A call of the database fails, or an attempt. -/
def Network.Troubled (net : Network) : Prop :=
  (∃ n c e, net.env.fault n c = some e) ∨
    ∃ n error served, (net.attempts n).passage = .fails error served

section Post

variable {net : Network} {p payload : NodeMetricsPayload} {now : Instant} {n : ℕ} {w : World}

theorem post_answered (request : HttpRequest) (h : (net.attempts n).passage = .answered) :
    net.post n request w =
      let w' := CollectorTask.runAll net.app net.env (net.attempts n).before w
      match net.serve request (net.attempts n).now w' with
      | (.ok response, w'') => (.ok response.toHttp, w'')
      | (.error _, w'') => (.ok ⟨500, none⟩, w'') := by
  unfold Network.post
  generalize net.attempts n = attempt at h ⊢
  cases attempt
  subst h
  rfl

end Post

/-! ## Sending -/

section Sending

variable {σ : Type} {h : Handler NodeCall NodeCall.Res AgentError σ} {P : Ack → σ → Prop}
  {I F : σ → Prop} {w : σ} {settings : AgentProcessSettings} {payload : NodeMetricsPayload}

theorem isFatal_classify (error : HttpxError) (message : String) (request : HttpRequest) :
    (HttpTransport.classify request (.httpxError error message)).isFatal = false := by
  simp only [HttpTransport.classify]
  split_ifs <;> rfl

/-- Every attempt after the first starts where the one before has failed. -/
theorem meets_withRetry {α : Type} {t : HttpTransport NodeCall NodeCall.Res} {p : NodeProgram α}
    {P : α → σ → Prop} {F : AgentError → σ → Prop} (hF : ∀ e w, F e w → I w)
    (honce : ∀ w, I w → Meets h p w P F) (hw : I w) : Meets h (t.withRetry p) w P F := by
  unfold HttpTransport.withRetry
  generalize (t.retryAttempts - 1).toNat = more
  induction more generalizing w with
  | zero => exact honce w hw
  | succ more ih =>
    refine (honce w hw).tryCatch (fun _ _ h₁ => h₁) fun e w₁ h₁ => ?_
    split_ifs
    · exact ih (hF e w₁ h₁)
    · exact h₁

/-- Where an attempt acknowledges, or fails and keeps `F`, so does a delivery. -/
theorem meets_send (hfinite : payload.isFinite = true) (hF : ∀ w, F w → I w)
    (hclient : ∀ w, I w → Meets h (NodeProgram.perform (.post (.metrics payload))) w
      (fun response w' => (∃ ack, response = ⟨200, some ack⟩ ∧ P ack w') ∨
        500 ≤ response.statusCode ∧ F w')
      fun e w' => (∃ error message, e = .httpxError error message) ∧ F w') (hw : I w) :
    Meets h (settings.http.send payload) w P
      fun e w' => e.isFatal = false ∧ F w' := by
  have honce : ∀ w, I w → Meets h (settings.http.sendOnce payload) w P
      fun e w' => e.isFatal = false ∧ F w' := by
    intro w hw
    refine Runs.andThen (P := fun response w' => ∃ ack, response = ⟨200, some ack⟩ ∧ P ack w') ?_ ?_
    · refine Runs.andThen (P := fun (response : HttpResponse) w' =>
        (∃ ack, response = ⟨200, some ack⟩ ∧ P ack w') ∨ 500 ≤ response.statusCode ∧ F w') ?_ ?_
      · have hbody : (HttpRequest.metrics payload).isFinite = true := hfinite
        rw [HttpTransport.clientPost_eq hbody]
        refine (hclient w hw).tryCatch (fun _ _ h₁ => h₁) fun e w₁ h₁ => ?_
        obtain ⟨⟨error, message, rfl⟩, h₁⟩ := h₁
        exact ⟨isFatal_classify error message _, h₁⟩
      · intro response w₁ h₁
        refine runs_lift ?_
        obtain ⟨ack, rfl, h₁⟩ | ⟨hstatus, h₁⟩ := h₁
        · exact ⟨ack, rfl, h₁⟩
        · unfold HttpTransport.checkStatus
          rw [if_pos (show HttpTransport.httpServerErrorThreshold ≤ response.statusCode from hstatus)]
          exact ⟨rfl, h₁⟩
    · rintro response w₁ ⟨ack, rfl, h₁⟩
      exact h₁
  exact meets_withRetry (fun _ w h₁ => hF w h₁.2) honce hw

end Sending

/-! ## The ledger of a node -/

section Ledger

variable {env : NodeEnvironment World} {net : Network} {settings : AgentProcessSettings}
  {j : PydanticJson} {repr : TextRepr} {E : AgentError → Prop} {d : Location}
  {arrived entries entries' : List NodeMetricsPayload} {payload : NodeMetricsPayload} {w w' : Node World}

/-- `I` is about nothing but the filesystem and what lies behind the network, and the executor keeps
it. -/
structure SparedByExecutor (env : NodeEnvironment World) (settings : AgentProcessSettings)
    (I : Node World → Prop) : Prop where
  congr : ∀ w w', SameNode w w' → I w → I w'
  executor : ∀ w w', ExecutorStep env settings w w' → I w → I w'

section Spared

variable {I : Node World → Prop}

/-- A call that leaves the filesystem and the network alone. -/
theorem keeps_perform (hI : SparedByExecutor env settings I) {c : NodeCall}
    (hsame : ∀ w, SameNode w (env.handle c w).2)
    (hraise : ∀ w e, (env.handle c w).1 = .error e → E e) :
    Safe env.handle I (fun _ _ => True) E (NodeProgram.perform c) :=
  safe_perform (fun w hw => ⟨trivial, hI.congr w _ (hsame w) hw⟩) fun w e _ he => hraise w e he

theorem keeps_psutil (hI : SparedByExecutor env settings I) (reading : PsutilCall) :
    Safe env.handle I (fun _ _ => True) (fun _ => True) (NodeProgram.perform (.psutil reading)) :=
  keeps_perform hI (c := .psutil reading) (fun _ => ⟨rfl, rfl⟩) fun _ _ _ => trivial

theorem keeps_now (hI : SparedByExecutor env settings I) :
    Safe env.handle I (fun _ _ => True) E (NodeProgram.perform .now) :=
  keeps_perform hI (c := .now) (fun _ => ⟨rfl, rfl⟩) fun w e he => by cases he

theorem keeps_shouldStop (hI : SparedByExecutor env settings I) :
    Safe env.handle I (fun _ _ => True) E (NodeProgram.perform .shouldStop) :=
  keeps_perform hI (c := .shouldStop) (fun _ => ⟨rfl, rfl⟩) fun w e he => by cases he

theorem keeps_sleep (hI : SparedByExecutor env settings I) {seconds : Double} :
    Safe env.handle I (fun _ _ => True) (fun _ => True) (NodeProgram.perform (.sleep seconds)) :=
  keeps_perform hI (c := .sleep seconds) (fun _ => ⟨rfl, rfl⟩) fun _ _ _ => trivial

theorem keeps_collectors (hI : SparedByExecutor env settings I) :
    ∀ c ∈ AgentProcessSettings.collectors NodeProgram.cpu,
      Safe env.handle I (fun _ _ => True) (fun _ => True) c.collect :=
  safe_collectors (keeps_psutil hI) ((keeps_psutil hI .cpuPercent).map _)

theorem keeps_onFilesystem (hI : SparedByExecutor env settings I)
    (hopt : settings.remediationEnabled = true)
    (hnul : ∀ path ∈ settings.remediationAllowedDirectorySet,
      '\x00' ∈ path.toList → E (.exception "embedded null byte")) (action : PendingAction) :
    Safe env.handle I (fun _ _ => True) E (onFilesystem
      (PlaybookExecutor.execute repr ⟨settings.remediationAllowedDirectorySet⟩ action)) := by
  have hsafe : Safe env.handle I (fun _ _ => True) (fun _ => True)
      (onFilesystem (PlaybookExecutor.execute repr ⟨settings.remediationAllowedDirectorySet⟩
        action)) :=
    ((executes_onFilesystem hopt action).keep hI.executor).relax fun _ _ _ => trivial
  refine hsafe.outcome fun w e _ he => ?_
  obtain ⟨⟨path, hpath, hmem⟩, rfl⟩ := raised_onFilesystem he
  exact hnul path hpath hmem

end Spared

end Ledger

/-! ## Nothing is lost -/

section Run

variable {env : NodeEnvironment World} {net : Network} {settings : AgentProcessSettings}
  {j : PydanticJson} {repr : TextRepr} {entries : List NodeMetricsPayload} {w : Node World}
  {d : Location} {file : BufferFile}

namespace Scenario

/-- Only the processor of the node can be measured, and no signal arrives. -/
def bareEnvironment : NodeEnvironment World where
  prepare _ _ := .ok ()
  psutil _ reading := match reading with
    | .cpuPercent => .ok 95
    | _ => .error (.exception "not mounted")
  now _ := clock 0
  fileFault _ := none
  torn _ := none
  fs := faultless
  post _ _ outside := (.error (.httpxError .connectError ""), outside)
  signal _ := false

theorem mem_noTokens (token : String) : token ∈ ([] : List String) ↔ token ∈ tokenSet "" := by
  have hempty : tokenSet "" = ∅ := by decide +kernel
  rw [hempty]
  simp

/-- A Collector in development, without tokens. -/
def openApp : App where
  deployment := deployment
  environment := .dev
  apiTokens := ""
  iteration := ⟨[], List.nodup_nil, mem_noTokens⟩
  repr := id
  requireTokensOutsideDev h := absurd rfl h

/-- A network to it in which every attempt ends alike. -/
def networkTo (passage : Passage) : Network where
  app := openApp
  env := ⟨.calm, fun _ => none⟩
  authToken := none
  attempts _ := ⟨[], passage, (clock 0).instant⟩

/-- What the Agent collects there. -/
def barePayload : NodeMetricsPayload where
  nodeId := "node-1"
  collectedAt := clock 0
  samples := [⟨.cpuUsagePercent, 95, "percent", []⟩]
  collectionErrors := ["MemoryCollector: not mounted", "DiskCollector: not mounted",
    "NetworkCollector: not mounted"]

/-- pydantic, as far as one payload needs it. -/
def pydanticFor (p : NodeMetricsPayload) : PydanticJson :=
  { julyTexts with
    validateJson := fun text => if text = julyTexts.modelDumpJson p then some p else none }

theorem documented_pydanticFor {p : NodeMetricsPayload}
    (h : Json.Readable "node_id".toList (julyTexts.modelDumpJson p)) : (pydanticFor p).Documented where
  floatText := documented_plain.floatText
  datetimeText := documented_plain.datetimeText
  validateJson text q hq := by
    by_cases htext : text = julyTexts.modelDumpJson p
    · rwa [htext]
    · rw [show (pydanticFor p).validateJson text = none from if_neg htext] at hq
      cases hq

/-- A filesystem with a buffer file and a directory beside it. -/
def bufferTree (content : List UInt8) : FileTree where
  entries := [(["agent_buffer.jsonl".toList], .file content), ([['d']], .dir)]
  nodup := by
    show [["agent_buffer.jsonl".toList], [['d']]].Nodup
    decide +kernel
  names := by
    intro e he
    simp only [List.mem_cons, List.not_mem_nil, or_false] at he
    obtain rfl | rfl := he
    · show ["agent_buffer.jsonl".toList] ≠ [] ∧ ∀ name ∈ ["agent_buffer.jsonl".toList], IsName name
      decide +kernel
    · decide
  parents := by
    intro e he
    simp only [List.mem_cons, List.not_mem_nil, or_false] at he
    obtain rfl | rfl := he <;> exact .inl rfl

/-- A node whose Agent has not run yet. -/
def newNode (content : List UInt8) : Node World :=
  { disk := ⟨bufferTree content, 0⟩, outside := .fresh }

/-- An Agent that may clear the directory. -/
def clearingSettings : AgentProcessSettings :=
  { nodeId := "node-1", remediationEnabled := true, remediationAllowedDirectories := "/d" }

theorem path_clearingSettings :
    clearingSettings.path = ⟨false, ["agent_buffer.jsonl".toList]⟩ := by decide +kernel

theorem clearable_clearingSettings : clearingSettings.clearable = {"/d"} := by decide +kernel

theorem sheltered_bufferTree (content : List UInt8) :
    Sheltered faultless clearingSettings (bufferTree content) [] ⟨content, none⟩ := by
  refine ⟨?_, ?_⟩
  · rw [path_clearingSettings]
    exact ⟨rfl, rfl, rfl⟩
  · rw [path_clearingSettings, clearable_clearingSettings]
    refine ⟨rfl, fun allowed hallowed c hc => ?_⟩
    obtain rfl := Finset.mem_singleton.1 hallowed
    have hd : cleared faultless (bufferTree content) "/d" = some [['d']] := rfl
    obtain rfl := Option.some.inj (hd.symm.trans hc)
    decide

theorem documented_barePayload : (pydanticFor barePayload).Documented :=
  documented_pydanticFor ⟨by decide +kernel, "node_id".toList, by decide +kernel,
    Json.spells_self (by decide)⟩

end Scenario

/-! ## A backlog arrives -/

namespace Scenario

end Scenario

end Run

end ClusterPulse
