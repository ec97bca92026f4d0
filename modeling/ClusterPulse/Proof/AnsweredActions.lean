import ClusterPulse.Proof.Delivery
import ClusterPulse.Proof.OpenDispatches

/-!
# Every dispatch is answered

What a payload dispatches comes back with its acknowledgement, and the Agent executes these actions and
reports their results before it goes on.  So while nothing fails, no action of its node is left
dispatched at the end of a cycle, and the reconciliation job has nothing to time out (`all_answered`).
-/

namespace ClusterPulse

open Prog FileTree FileBuffer
open NodeProgram (onFilesystem)

/-! ## Cycles that settle what they open -/

section Cycles

variable {Op : Type} {Res : Op → Type} {σ : Type} {h : Handler Op Res AgentError σ}
  {D : List ℕ → σ → Prop} {w : σ}

namespace AgentScheduler

/-- `D ids` holds while the actions `ids` are open: a delivery opens those of its acknowledgement, if it
does not raise, and the report of a result settles one.  Nothing else changes it, and the buffer stays
empty. -/
structure Settles (h : Handler Op Res AgentError σ) (D : List ℕ → σ → Prop)
    (s : AgentScheduler Op Res) : Prop where
  drain : ∀ n w, D [] w → Meets h (s.buffer.drain n) w (fun l w' => l = [] ∧ D [] w') fun _ _ => False
  collect : ∀ c ∈ s.collectors, Safe h (D []) (fun _ _ => True) (fun _ => True) c.collect
  now : Safe h (D []) (fun _ _ => True) (fun _ => True) s.now
  send : ∀ payload w, payload.nodeId = s.nodeId → D [] w → Meets h (s.transport.send payload) w
    (fun ack w' => D (ack.pendingActions.map PendingAction.actionId) w')
    fun e w' => e.isTransportError = false ∧ D [] w'
  execute : ∃ execute, s.executor = some execute ∧ ∀ action ids w, D ids w →
    Meets h (execute action) w (fun _ w' => D ids w') fun _ _ => False
  report : ∀ actionId result ids w, D (actionId :: ids) w →
    Meets h (s.transport.reportActionResult actionId result) w (fun _ w' => D ids w')
      fun e w' => e.isTransportError = true ∧ D ids w'

variable {s : AgentScheduler Op Res}

namespace Settles

/-- Each action is settled before the next is executed. -/
theorem executePendingActions (hs : s.Settles h D) (ack : Ack)
    (hw : D (ack.pendingActions.map PendingAction.actionId) w) :
    Meets h (s.executePendingActions ack) w (fun _ w' => D [] w') fun _ _ => False := by
  obtain ⟨execute, hexecutor, hexecute⟩ := hs.execute
  unfold AgentScheduler.executePendingActions
  rw [hexecutor]
  dsimp only
  generalize ack.pendingActions = pending at hw ⊢
  induction pending generalizing w with
  | nil => exact hw
  | cons action actions ih =>
    refine (hexecute action _ w hw).andThen fun result w₁ h₁ => ?_
    have hreport : Meets h (s.reportResult action.actionId result) w₁
        (fun _ w' => D (actions.map PendingAction.actionId) w') fun _ _ => False := by
      refine (hs.report _ _ _ w₁ h₁).tryCatch (fun _ _ h₂ => h₂) fun e w₂ h₂ => ?_
      rw [if_pos h₂.1]
      exact h₂.2
    exact hreport.andThen fun _ w₂ h₂ => ih h₂

theorem deliver (hs : s.Settles h D) {payload : NodeMetricsPayload}
    (hnode : payload.nodeId = s.nodeId) (hw : D [] w) :
    Meets h (s.deliver payload) w (fun _ w' => D [] w') fun _ w' => D [] w' := by
  have hattempt : Meets h (s.attemptDelivery payload) w (fun delivery w' => ∃ ack,
      delivery = .acknowledged ack ∧ D (ack.pendingActions.map PendingAction.actionId) w')
      fun _ w' => D [] w' := by
    refine Runs.tryCatch (Meets.map _ (hs.send payload w hnode hw)) (fun _ _ h₁ => h₁) ?_
    intro e w₁ h₁
    have hfatal : e.isFatal = false := by
      cases e with
      | fatalTransportError => cases h₁.1
      | _ => rfl
    rw [if_neg (by rw [hfatal]; exact Bool.false_ne_true),
      if_neg (by rw [h₁.1]; exact Bool.false_ne_true)]
    exact h₁.2
  refine hattempt.andThen fun delivery w₁ h₁ => ?_
  obtain ⟨ack, rfl, h₁⟩ := h₁
  refine (hs.executePendingActions ack h₁).post fun r w' hr => ?_
  cases r with
  | ok _ => exact hr
  | error e => exact hr.elim

theorem collects (hs : s.Settles h D) (hw : D [] w) : Meets h s.collect w
    (fun payload w' => payload.nodeId = s.nodeId ∧ D [] w') fun _ w' => D [] w' := by
  have hcollectors : Safe h (D []) (fun _ _ => True) (fun _ => True)
      (s.collectors.foldlM collectFrom ([], [])) := by
    refine Safe.foldlM _ (fun found c hc => ?_) _
    exact ((hs.collect c hc).bind fun _ => safe_pure _).tryCatch fun _ _ => safe_pure _
  refine (meets_of_safe hcollectors hw).bind (fun found w₁ h₁ => ?_) fun _ _ h₁ => h₁.2
  exact (meets_of_safe hs.now h₁).bind (fun _ _ h₂ => ⟨rfl, h₂⟩) fun _ _ h₂ => h₂.2

theorem runOnce (hs : s.Settles h D) (hw : D [] w) :
    Meets h s.runOnce w (fun _ w' => D [] w') fun _ w' => D [] w' := by
  have hdrain : Meets h s.drainBuffer w (fun _ w' => D [] w') fun _ w' => D [] w' := by
    refine (hs.drain _ w hw).bind (fun l w₁ h₁ => ?_) fun _ _ hfalse => hfalse.elim
    obtain ⟨rfl, h₁⟩ := h₁
    exact h₁
  refine hdrain.andThen fun _ w₁ h₁ => ?_
  exact (hs.collects h₁).andThen fun payload w₂ h₂ => hs.deliver h₂.1 h₂.2

theorem runForever (hs : s.Settles h D) {shouldStop : Prog Op Res AgentError Bool}
    {sleep : Prog Op Res AgentError Unit}
    (hstop : Safe h (D []) (fun _ _ => True) (fun _ => True) shouldStop)
    (hsleep : Safe h (D []) (fun _ _ => True) (fun _ => True) sleep) (cycles : ℕ) (hw : D [] w) :
    Meets h (s.runForever shouldStop sleep cycles) w (fun _ w' => D [] w') fun _ w' => D [] w' := by
  induction cycles generalizing w with
  | zero => exact hw
  | succ cycles ih =>
    refine (meets_of_safe hstop hw).bind (fun stop w₁ h₁ => ?_) fun _ _ h₁ => h₁.2
    cases stop with
    | true => exact h₁
    | false =>
      refine (hs.runOnce h₁).andThen fun _ w₂ h₂ => ?_
      exact (meets_of_safe hsleep h₂).bind (fun _ w₃ h₃ => ih h₃) fun _ _ h₃ => h₃.2

end Settles

end AgentScheduler

end Cycles

/-! ## The network -/

/-- Nothing fails, the token is accepted, and nobody else sends payloads as the node. -/
structure Network.Serving (net : Network) (nodeId : String) : Prop where
  token : verifyApiToken net.app.iteration net.credentials = .ok ()
  calm : ¬ net.Troubled
  others : ∀ n, ∀ task ∈ (net.attempts n).before, task.DispatchesElsewhere nodeId

section Network

variable {net : Network} {nodeId : String} {ids : List ℕ} {w : World} {n : ℕ}

theorem Network.Serving.faultless (hnet : net.Serving nodeId) : net.env.toEnvironment.Faultless := by
  intro n c
  by_contra hne
  obtain ⟨e, he⟩ := Option.ne_none_iff_exists'.1 hne
  exact hnet.calm (.inl ⟨n, c, e, he⟩)

theorem Network.Serving.answered (hnet : net.Serving nodeId) (n : ℕ) :
    (net.attempts n).passage = .answered := by
  cases hpassage : (net.attempts n).passage with
  | answered => rfl
  | fails error served => exact absurd (.inr ⟨n, error, served, hpassage⟩) hnet.calm

/-- A payload is acknowledged, with all that it has dispatched. -/
theorem post_dispatched {p : NodeMetricsPayload} (hnet : net.Serving p.nodeId)
    (h : DispatchedWithin p.nodeId ids w.store) :
    ∃ ack, (net.post n (.metrics p) w).1 = .ok ⟨200, some ack⟩ ∧
      DispatchedWithin p.nodeId (ids ++ ack.pendingActions.map PendingAction.actionId)
        (net.post n (.metrics p) w).2.store := by
  rw [post_answered _ (hnet.answered n)]
  have hbefore := dispatchedWithin_runAll net.app net.env (hnet.others n) h
  have hserve := (runs_respond_dispatched hnet.faultless hnet.token (net.attempts n).now hbefore).run
  dsimp only [Network.serve, HttpRequest.toApi]
  generalize (net.app.respond (.receiveMetrics p) net.credentials (net.attempts n).now).run
    net.env.handle (CollectorTask.runAll net.app net.env (net.attempts n).before w) = outcome at hserve
  obtain ⟨response, w'⟩ := outcome
  obtain ⟨ack, rfl, hwithin⟩ := hserve
  exact ⟨ack, rfl, hwithin⟩

/-- After the report of a result, whatever its answer, the action is not dispatched. -/
theorem post_settled (hnet : net.Serving nodeId) {actionId : ℕ} (result : ActionResult)
    (h : DispatchedWithin nodeId (actionId :: ids) w.store) :
    (∃ response, (net.post n (.actionResult actionId result) w).1 = .ok response) ∧
      DispatchedWithin nodeId ids (net.post n (.actionResult actionId result) w).2.store := by
  rw [post_answered _ (hnet.answered n)]
  have hbefore := dispatchedWithin_runAll net.app net.env (hnet.others n) h
  have hserve := (runs_respond_settled hnet.faultless hnet.token result (net.attempts n).now hbefore).run
  dsimp only [Network.serve, HttpRequest.toApi]
  generalize (net.app.respond (.reportRemediationActionResult actionId result) net.credentials
    (net.attempts n).now).run net.env.handle
      (CollectorTask.runAll net.app net.env (net.attempts n).before w) = outcome at hserve
  obtain ⟨_ | response, w'⟩ := outcome
  · exact ⟨⟨_, rfl⟩, hserve⟩
  · exact ⟨⟨_, rfl⟩, hserve⟩

end Network

/-! ## The Agent -/

/-- The buffer file is empty, if it is still there, and of the node's actions these at most are not
answered. -/
def Unanswered (env : FsEnvironment) (settings : AgentProcessSettings) (j : PydanticJson)
    (d : Location) (ids : List ℕ) (w : Node World) : Prop :=
  Site env settings.path (· = d) (fun content => decodeFile j content = .ok []) w.disk.tree ∧
    DispatchedWithin settings.nodeId ids w.outside.store

section Agent

variable {env : NodeEnvironment World} {net : Network} {settings : AgentProcessSettings}
  {j : PydanticJson} {repr : TextRepr} {ids : List ℕ} {w : Node World} {d : Location}
  {file : BufferFile}

theorem spared_unanswered :
    SparedByExecutor env settings (Unanswered env.fs settings j d ids) where
  congr w w' h hw := by
    unfold Unanswered
    rw [h.tree, h.outside]
    exact hw
  executor w w' h hw := by
    refine ⟨hw.1.of_le h.removed.le, ?_⟩
    rw [h.outside]
    exact hw.2

/-- Whatever network the node is behind. -/
theorem spared_unanswered_behind (net : Network) (env : NodeEnvironment World) :
    SparedByExecutor (net.behind env) settings (Unanswered env.fs settings j d ids) :=
  spared_unanswered

theorem dispatched_sameOutside {ids : List ℕ} {w w' : Node World} (h : SameOutside w w')
    (hw : DispatchedWithin settings.nodeId ids w.outside.store) :
    DispatchedWithin settings.nodeId ids w'.outside.store := by
  rwa [show w'.outside = w.outside from h]

theorem meets_drain_empty (env : NodeEnvironment World) (hj : j.Documented)
    (hnul : settings.path.hasNul = false)
    {tmp : PurePath} (htmp : tmpPath settings.path = .ok tmp) (n : ℕ)
    (hw : Unanswered env.fs settings j d ids w) :
    Meets env.handle ((settings.buffer j).drain n) w
      (fun l w' => l = [] ∧ Unanswered env.fs settings j d ids w') fun _ _ => False := by
  have hread := (runs_readSite (j := j) (fun _ h => ⟨[], h⟩) hw.1).carry
    (fun _ _ h => dispatched_sameOutside h.1) hw.2
  refine hread.ending.bind (fun l w₁ h₁ => ?_) fun e w₁ h₁ => ?_
  · obtain ⟨⟨hl, hsite⟩, hdispatched⟩ := h₁
    have hempty : l = [] := by
      obtain rfl | ⟨content, hG, hdecode⟩ := hl
      · rfl
      · exact (Except.ok.inj (hG.symm.trans hdecode)).symm
    subst hempty
    have hG : decodeFile j (TextFile.encode (j.fileText ([].drop n))) = .ok [] := by
      rw [List.drop_nil]
      exact decodeFile_restorable hj nofun
    have hwrite := (runs_writeSite hG hsite).carry
      (fun _ _ h => dispatched_sameOutside h.1) hdispatched
    refine hwrite.ending.bind (fun _ w₂ h₂ => ⟨List.take_nil, h₂⟩) fun e w₂ h₂ => ?_
    obtain ⟨⟨hraised | hraised, -⟩, -⟩ := h₂
    · rw [htmp] at hraised
      cases hraised
    · rw [hnul] at hraised
      cases hraised
  · rw [hnul] at h₁
    cases h₁.1.1

/-- The first attempt is acknowledged, if the payload can be encoded. -/
theorem meets_send_dispatched (hnet : net.Serving settings.nodeId) {payload : NodeMetricsPayload}
    (hnode : payload.nodeId = settings.nodeId) (hw : Unanswered env.fs settings j d [] w) :
    Meets (net.behind env).handle (settings.http.send payload) w
      (fun ack w' => Unanswered env.fs settings j d
        (ack.pendingActions.map PendingAction.actionId) w')
      fun e w' => e.isTransportError = false ∧ Unanswered env.fs settings j d [] w' := by
  cases hfinite : payload.isFinite with
  | false =>
    rw [HttpTransport.send_of_not_isFinite hfinite]
    exact ⟨rfl, hw⟩
  | true =>
    refine (meets_send (I := Unanswered env.fs settings j d []) (F := fun _ => False)
      (P := fun ack w' => Unanswered env.fs settings j d
        (ack.pendingActions.map PendingAction.actionId) w')
      hfinite (fun _ hfalse => hfalse.elim) (fun w hw => runs_perform trivial ?_) hw).post
        fun r w' hr => ?_
    · have hdispatched := hw.2
      rw [← hnode] at hnet hdispatched
      obtain ⟨ack, hack, hwithin⟩ := post_dispatched (n := w.calls) hnet hdispatched
      show Ends _ _ (net.post w.calls (.metrics payload) w.outside).1 _
      rw [hack]
      refine .inl ⟨ack, rfl, hw.1, ?_⟩
      rw [← hnode]
      exact hwithin
    · cases r with
      | ok ack => exact hr
      | error e => exact hr.2.elim

/-- Every attempt leaves the action settled, and only an answer can be refused. -/
theorem meets_report_settled (hnet : net.Serving settings.nodeId) {actionId : ℕ}
    (result : ActionResult) (hw : Unanswered env.fs settings j d (actionId :: ids) w) :
    Meets (net.behind env).handle (settings.http.reportActionResult actionId result) w
      (fun _ w' => Unanswered env.fs settings j d ids w')
      fun e w' => e.isTransportError = true ∧ Unanswered env.fs settings j d ids w' := by
  refine meets_withRetry (I := Unanswered env.fs settings j d (actionId :: ids))
    (fun e w h₁ => ?_) (fun w hw => ?_) hw
  · exact ⟨h₁.2.1, h₁.2.2.mono fun i hi => List.mem_cons_of_mem _ hi⟩
  · obtain ⟨⟨response, hresponse⟩, hwithin⟩ := post_settled (n := w.calls) hnet result hw.2
    have hclient : Meets (net.behind env).handle
        (NodeProgram.perform (.post (.actionResult actionId result))) w
        (fun _ w' => Unanswered env.fs settings j d ids w') fun _ _ => False := by
      refine runs_perform trivial ?_
      show Ends _ _ (net.post w.calls (.actionResult actionId result) w.outside).1 _
      rw [hresponse]
      exact ⟨hw.1, hwithin⟩
    have hpost : Meets (net.behind env).handle (settings.http.post (.actionResult actionId result)) w
        (fun _ w' => Unanswered env.fs settings j d ids w')
        fun e w' => e.isTransportError = true ∧ Unanswered env.fs settings j d ids w' := by
      have hbody : (HttpRequest.actionResult actionId result).isFinite = true := rfl
      unfold HttpTransport.post
      rw [HttpTransport.clientPost_eq hbody]
      refine Runs.bind (hclient.tryCatch (fun _ _ h₁ => h₁) fun _ _ hfalse => hfalse.elim)
        (fun response w₁ h₁ => runs_lift ?_) fun _ _ hfalse => hfalse.elim
      cases hstatus : HttpTransport.checkStatus response with
      | ok response => exact h₁
      | error e =>
        exact ⟨(orTransport_of_checkStatus (E := fun _ => False) hstatus).resolve_right id, h₁⟩
    exact hpost.andThen fun _ _ h₁ => h₁

theorem settles (settings : AgentProcessSettings) (repr : TextRepr) (hj : j.Documented)
    (hnet : net.Serving settings.nodeId) (hpath : settings.path.hasNul = false) {tmp : PurePath}
    (htmp : tmpPath settings.path = .ok tmp) (hopt : settings.remediationEnabled = true)
    (hnul : ∀ path ∈ settings.remediationAllowedDirectorySet, '\x00' ∉ path.toList) :
    (settings.schedulerWith j repr NodeProgram.cpu).Settles (net.behind env).handle
      (Unanswered env.fs settings j d) where
  drain n w hw := meets_drain_empty (net.behind env) hj hpath htmp n hw
  collect := keeps_collectors (spared_unanswered_behind net env)
  now := keeps_now (spared_unanswered_behind net env)
  send payload w hnode hw := meets_send_dispatched hnet hnode hw
  execute := by
    refine ⟨_, if_pos hopt, fun action ids w hw => ?_⟩
    refine (meets_of_safe (keeps_onFilesystem (E := fun _ => False)
      (spared_unanswered_behind net env) hopt
      (fun path hpath hmem => hnul path hpath hmem) action) hw).post fun r w' hr => ?_
    cases r with
    | ok result => exact hr
    | error e => exact hr.1
  report actionId result ids w hw := meets_report_settled hnet result hw

end Agent

/-! ## Nothing stays open -/

/-- While nothing fails, an Agent that executes actions leaves none of its node's dispatched, however its
process ends. -/
theorem all_answered {env : NodeEnvironment World} {net : Network} {j : PydanticJson} {w : Node World}
    {d : Location} {file : BufferFile} (settings : AgentProcessSettings) (repr : TextRepr)
    (hj : j.Documented) (hnet : net.Serving settings.nodeId) (hfault : ∀ n, env.fileFault n = none)
    (hopt : settings.remediationEnabled = true)
    (hnul : ∀ path ∈ settings.remediationAllowedDirectorySet, '\x00' ∉ path.toList)
    (hfile : BufferAt env.fs settings.path w.disk.tree d file)
    (hempty : decodeFile j file.main = .ok [])
    (hopen : ∀ row ∈ w.outside.store.remediationActions.rows, row.nodeId = settings.nodeId →
      row.status ≠ .dispatched) (cycles : ℕ) :
    ∀ row ∈ ((settings.main j repr cycles).run (net.behind env).handle
        w).2.outside.store.remediationActions.rows,
      row.nodeId = settings.nodeId → row.status ≠ .dispatched := by
  have hw : Unanswered env.fs settings j d [] w :=
    ⟨hfile.site hempty, fun row hrow hnode hstatus => absurd hstatus (hopen row hrow hnode)⟩
  have hspared : SparedByExecutor (net.behind env) settings (Unanswered env.fs settings j d []) :=
    spared_unanswered_behind net env
  have hmain : Meets (net.behind env).handle (settings.main j repr cycles) w
      (fun _ w' => Unanswered env.fs settings j d [] w')
      fun _ w' => Unanswered env.fs settings j d [] w' := by
    have hplace : BufferAt (net.behind env).fs settings.path w.disk.tree d file := hfile
    rw [settings.main_eq]
    refine (runs_setUp hplace hfault rfl).ending.bind (fun _ w₁ h₁ => ?_)
      fun _ w₁ h₁ => hspared.congr w w₁ h₁.1 hw
    have hw₁ := hspared.congr w w₁ h₁.1 hw
    refine (meets_of_safe (keeps_psutil hspared .cpuPercent) hw₁).bind (fun _ w₂ h₂ => ?_)
      fun _ _ h₂ => h₂.2
    exact (settles settings repr hj hnet hfile.hasNul (tmpPath_eq hfile.isName.1) hopt
      hnul).runForever (keeps_shouldStop hspared) (keeps_sleep hspared) cycles h₂
  have hend : Unanswered env.fs settings j d []
      ((settings.main j repr cycles).run (net.behind env).handle w).2 := by
    have hrun := hmain.run
    generalize (settings.main j repr cycles).run (net.behind env).handle w = outcome at hrun ⊢
    obtain ⟨_ | stopped, w'⟩ := outcome
    · exact hrun
    · exact hrun
  intro row hrow hnode hstatus
  exact absurd (hend.2 row hrow hnode hstatus) List.not_mem_nil

namespace Scenario

theorem serving_networkTo (nodeId : String) : (networkTo .answered).Serving nodeId where
  token := rfl
  calm := by
    rintro (⟨n, c, e, hfault⟩ | ⟨n, error, served, hpassage⟩)
    · cases hfault
    · cases hpassage
  others _ task htask := by cases htask

/-- Its node, half an hour after the alert was raised. -/
def dueEnvironment : NodeEnvironment World := { bareEnvironment with now := fun _ => clock 2000 }

def dueNode : Node World := { newNode [] with outside := dueWorld }

/-- One cycle, in which an action is dispatched. -/
def dueRun : Except AgentError Bool × Node World :=
  (clearingSettings.main (pydanticFor barePayload) id 1).run
    ((networkTo .answered).behind dueEnvironment).handle dueNode

theorem all_answered_dueRun :
    (∀ row ∈ dueRun.2.outside.store.remediationActions.rows, row.nodeId = "node-1" →
      row.status ≠ .dispatched) ∧
    dueRun.2.outside.store.remediationActions.rows.map RemediationActionRecord.status =
      [.executed] := by
  have hfile : BufferAt dueEnvironment.fs clearingSettings.path dueNode.disk.tree [] ⟨[], none⟩ :=
    (sheltered_bufferTree []).place
  exact ⟨all_answered clearingSettings id documented_barePayload (serving_networkTo _) (fun _ => rfl)
    rfl (by decide +kernel) hfile (decodeFile_encode []) (by decide +kernel) 1, by decide +kernel⟩

end Scenario

end ClusterPulse
