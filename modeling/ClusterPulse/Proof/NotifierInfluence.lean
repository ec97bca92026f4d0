import ClusterPulse.Collector.Notifications
import ClusterPulse.Collector.Operations
import ClusterPulse.Lib.Silence
import ClusterPulse.Proof.Effects

/-!
# What a notifier changes

Nothing: where Telegram fails in no other way than with an `httpx.HTTPError`, a Collector that notifies
gives the same replies and leaves the same tables as one without a notifier (`notifier_without_influence`).
-/

namespace ClusterPulse

open Prog

/-! ## Without a notifier -/

def AlertEvaluationService.withoutNotifier (svc : AlertEvaluationService) : AlertEvaluationService :=
  { svc with notifier := false }

def CollectorSettings.withoutNotifier (settings : CollectorSettings) : CollectorSettings :=
  { settings with notificationsEnabled := false }

/-- The same operation of a Collector without a notifier. -/
def Operation.withoutNotifier : Operation → Operation
  | evaluateAndApply svc nodeId samples collectedAt =>
    evaluateAndApply svc.withoutNotifier nodeId samples collectedAt
  | ingest svc payload receivedAt => ingest svc.withoutNotifier payload receivedAt
  | staleness settings firstRunDone now => staleness settings.withoutNotifier firstRunDone now
  | op => op

/-- The calls of the notifier. -/
def Call.IsNotify : Call → Prop
  | .notify _ => True
  | _ => False

/-- The second program is the first without the calls of the notifier, which all return. -/
abbrev Unnotified {α : Type} : Repo α → Repo α → Prop :=
  Erases Call.IsNotify fun _ r => ∃ a, r = .ok a

section Programs

variable {svc : AlertEvaluationService} {settings : CollectorSettings} {nodeId : String}
  {t : Datetime} {result : RuleEvaluationResult} {a : AlertRecord}

theorem unnotified_if (enabled : Bool) (message : Notification) :
    Unnotified (if enabled then (Call.notify message).perform else return ()) (return ()) := by
  cases enabled with
  | false => exact .refl _
  | true =>
    exact erases_perform trivial (fun _ hr => hr) fun _ => .refl _

theorem unnotified_notify (message : Notification) :
    Unnotified (svc.notify message) (svc.withoutNotifier.notify message) :=
  unnotified_if svc.notifier message

namespace AlertEvaluationService

theorem unnotified_openAlert :
    Unnotified (svc.openAlert nodeId result t) (svc.withoutNotifier.openAlert nodeId result t) :=
  (Erases.refl _).bind fun _ => (unnotified_notify _).bind fun _ => .refl _

theorem unnotified_maybeEscalate :
    Unnotified (svc.maybeEscalate t a) (svc.withoutNotifier.maybeEscalate t a) := by
  refine (Erases.refl _).bind fun due => ?_
  split_ifs
  · exact (Erases.refl _).bind fun _ => (unnotified_notify _).bind fun _ => .refl _
  · exact .refl _

theorem unnotified_openOrAdvance (current : Option AlertRecord) :
    Unnotified (svc.openOrAdvance nodeId result t current)
      (svc.withoutNotifier.openOrAdvance nodeId result t current) := by
  cases current with
  | none => exact unnotified_openAlert.bind fun _ => .refl _
  | some current =>
    -- the decision on a remediation does not notify
    exact (Erases.refl _).bind fun _ => unnotified_maybeEscalate.bind fun _ => .refl _

theorem unnotified_resolve : Unnotified (svc.resolve t a) (svc.withoutNotifier.resolve t a) :=
  (Erases.refl _).bind fun _ => (unnotified_notify _).bind fun _ => .refl _

theorem unnotified_apply :
    Unnotified (svc.apply nodeId result t) (svc.withoutNotifier.apply nodeId result t) := by
  refine (Erases.refl _).bind fun current => ?_
  split_ifs
  · exact (unnotified_openOrAdvance current).bind fun _ => .refl _
  · cases current with
    | none => exact .refl _
    | some current => exact unnotified_resolve.bind fun _ => .refl _

theorem unnotified_evaluateAndApply (samples : List MetricSample) :
    Unnotified (svc.evaluateAndApply nodeId samples t)
      (svc.withoutNotifier.evaluateAndApply nodeId samples t) :=
  (Erases.refl _).bind fun results =>
    Erases.foldlM (fun _ _ => unnotified_apply.bind fun _ => .refl _) results _

end AlertEvaluationService

theorem MetricsIngestionService.unnotified_ingest (payload : NodeMetricsPayload)
    (receivedAt : Instant) :
    Unnotified (ingest svc payload receivedAt) (ingest svc.withoutNotifier payload receivedAt) := by
  refine (Erases.refl _).bind fun _ => Erases.bind ?_ fun _ => .refl _
  exact ((svc.unnotified_evaluateAndApply payload.samples).bind fun _ => .refl _).tryCatch
    fun _ => .refl _

namespace StalenessJob

theorem unnotified_checkNode (firstRunDone : Bool) (counts : StalenessCounts) (node : NodeRecord) :
    Unnotified (checkNode settings firstRunDone t counts node)
      (checkNode settings.withoutNotifier firstRunDone t counts node) := by
  refine (Erases.refl _).bind fun silent => (Erases.refl _).bind fun current => ?_
  have hnotify : ∀ message, Unnotified (notify settings message)
      (notify settings.withoutNotifier message) := unnotified_if settings.notificationsEnabled
  unfold CollectorSettings.withoutNotifier
  dsimp only
  split_ifs
  · refine Erases.bind ?_ fun _ => .refl _
    exact (Erases.refl _).bind fun _ => (Erases.refl _).bind fun _ => hnotify _
  · exact .refl _
  · cases current with
    | none => exact .refl _
    | some current =>
      refine Erases.bind ?_ fun _ => .refl _
      exact (Erases.refl _).bind fun _ => hnotify _

theorem unnotified_run (firstRunDone : Bool) :
    Unnotified (run settings firstRunDone t) (run settings.withoutNotifier firstRunDone t) :=
  (Erases.refl _).bind fun nodes => Erases.foldlM (unnotified_checkNode firstRunDone) nodes _

end StalenessJob

theorem Operation.unnotified_program (op : Operation) :
    Unnotified op.program op.withoutNotifier.program := by
  cases op with
  | evaluateAndApply svc nodeId samples t => exact (svc.unnotified_evaluateAndApply samples).map _
  | ingest svc payload receivedAt =>
    exact (MetricsIngestionService.unnotified_ingest payload receivedAt).map _
  | staleness settings firstRunDone now => exact (StalenessJob.unnotified_run firstRunDone).map _
  | acknowledge | reportResult | reconciliation | retention => exact .refl _

end Programs

/-! ## Runs -/

/-- The `i`-th call meets the fate of the number `f i`. -/
def Environment.along (env : Environment) (f : ℕ → ℕ) : Environment where
  fault n := env.fault (f n)
  scan n := env.scan (f n)

/-- The same tables, and the same audit rows as they were first committed. -/
def World.SameTables (w w' : World) : Prop := w'.store = w.store ∧ w'.recorded = w.recorded

/-- A call of the same fate on the same tables. -/
theorem handle_alike {env env' : Environment} {w w' : World} (c : Call)
    (hfault : env'.fault w'.calls = env.fault w.calls)
    (hscan : env'.scan w'.calls = env.scan w.calls) (hw : w.SameTables w') :
    (handle env' c w').1 = (handle env c w).1 ∧
      (handle env c w).2.SameTables (handle env' c w').2 ∧
      (w'.sent = w.sent → (handle env' c w').2.sent = (handle env c w).2.sent) := by
  obtain ⟨hstore, hrecorded⟩ := hw
  unfold handle
  rw [hfault]
  cases env.fault w.calls c with
  | some e => exact ⟨rfl, ⟨hstore, hrecorded⟩, fun hsent => hsent⟩
  | none =>
    refine ⟨?_, ⟨?_, ?_⟩, fun hsent => ?_⟩
    · show (exec _ c _).1 = (exec _ c _).1
      rw [hscan, hstore]
    · show (exec _ c _).2 = (exec _ c _).2
      rw [hscan, hstore]
    · show _ ++ _ = _ ++ _
      rw [hrecorded, hstore]
    · show _ ++ _ = _ ++ _
      rw [hsent]

section Runs

variable {env : Environment} {floatText : Double → String} {client : ℕ → String → TelegramOutcome}

/-- Whatever `httpx` raises is caught. -/
theorem TelegramNotifier.exists_notify {outcome : TelegramOutcome}
    (h : ∀ e, outcome ≠ .raises e) : ∃ sent, TelegramNotifier.notify outcome = .ok sent := by
  cases outcome with
  | responds statusCode =>
    simp only [TelegramNotifier.notify]
    split_ifs
    · exact ⟨_, rfl⟩
    · exact ⟨_, rfl⟩
  | httpError message => exact ⟨_, rfl⟩
  | raises e => exact absurd rfl (h e)

theorem fault_notify (hclient : ∀ n text e, client n text ≠ .raises e) (n : ℕ)
    (message : Notification) :
    (env.withTelegram floatText client).fault n (.notify message) = none := by
  obtain ⟨sent, hsent⟩ := TelegramNotifier.exists_notify (hclient n (message.text floatText))
  simp only [Environment.withTelegram, hsent]

theorem handle_notify (hclient : ∀ n text e, client n text ≠ .raises e) (message : Notification)
    (w : World) : handle (env.withTelegram floatText client) (.notify message) w =
      (.ok (), w.after ((env.withTelegram floatText client).scan w.calls) (.notify message)) :=
  handle_of_ok (fault_notify hclient w.calls message)

theorem silences_notify (env : Environment) (floatText : Double → String)
    (hclient : ∀ n text e, client n text ≠ .raises e) :
    Silences World.calls handle
      (fun env n env' n' => env'.fault n' = env.fault n ∧ env'.scan n' = env.scan n)
      Call.IsNotify (fun _ r => ∃ a, r = .ok a) World.SameTables
      (env.withTelegram floatText client) where
  count_succ env c w := handle_calls env c w
  answers c w hc := by
    cases c with
    | notify message =>
      rw [handle_notify hclient]
      exact ⟨(), rfl⟩
    | _ => exact hc.elim
  silent c w w' hc hw := by
    cases c with
    | notify message =>
      rw [handle_notify hclient]
      exact ⟨hw.1, hw.2.trans (List.append_nil _).symm⟩
    | _ => exact hc.elim
  visible env' c w w' hagree hw := by
    have halike := handle_alike c hagree.1 hagree.2 hw
    exact ⟨halike.1, halike.2.1⟩

/-- A Collector that notifies over Telegram gives the same replies and leaves the same tables as one
without a notifier.  The latter makes the same calls but the notifications, each with the fate of the
number that it has among the calls of the former. -/
theorem notifier_without_influence (env : Environment) (floatText : Double → String)
    (client : ℕ → String → TelegramOutcome) (hclient : ∀ n text e, client n text ≠ .raises e)
    (ops : List Operation) (w : World) :
    ∃ f : ℕ → ℕ, StrictMonoOn f (Set.Ici w.calls) ∧ w.calls ≤ f w.calls ∧
      let env := env.withTelegram floatText client
      let notified := results (ops.map Operation.program)
      let unnotified := results (ops.map fun op => op.withoutNotifier.program)
      (unnotified.run (handle (env.along f)) w).1 = (notified.run (handle env) w).1 ∧
        (notified.run (handle env) w).2.SameTables (unnotified.run (handle (env.along f)) w).2 ∧
        Renumbers World.calls Call.IsNotify f (notified.trace (handle env) w)
          (unnotified.trace (handle (env.along f)) w) := by
  have hprogram : Unnotified (results (ops.map Operation.program))
      (results (ops.map fun op => op.withoutNotifier.program)) :=
    Erases.results (fun op => op.unnotified_program) ops
  obtain ⟨f, hmono, hle, hrun⟩ :=
    hprogram.exists_run (silences_notify env floatText hclient) w w.calls
  exact ⟨f, hmono, hle, hrun w _ ⟨rfl, rfl⟩ rfl fun i _ => ⟨rfl, rfl⟩⟩

namespace Scenario

/-- Telegram limits the rate at first, and is out of reach later. -/
def flakyTelegram (n : ℕ) (_text : String) : TelegramOutcome :=
  if n < 5 then .responds 429 else .httpError "connection reset"

/-- An alert opens and resolves. -/
def notifiedOperations : List Operation :=
  [.ingest { service with notifier := true } (payload 0 95) (clock 0).instant,
    .ingest { service with notifier := true } (payload 60 50) (clock 60).instant]

theorem notifier_without_influence_flakyTelegram :
    ∃ f : ℕ → ℕ, StrictMonoOn f (Set.Ici World.fresh.calls) ∧
      World.fresh.calls ≤ f World.fresh.calls ∧
      let env := Environment.calm.withTelegram Double.toFixed flakyTelegram
      let notified := results (notifiedOperations.map Operation.program)
      let unnotified := results (notifiedOperations.map fun op => op.withoutNotifier.program)
      (unnotified.run (handle (env.along f)) .fresh).1 = (notified.run (handle env) .fresh).1 ∧
        (notified.run (handle env) .fresh).2.SameTables
          (unnotified.run (handle (env.along f)) .fresh).2 ∧
        Renumbers World.calls Call.IsNotify f (notified.trace (handle env) .fresh)
          (unnotified.trace (handle (env.along f)) .fresh) := by
  refine notifier_without_influence .calm Double.toFixed flakyTelegram (fun n text e h => ?_) _ _
  unfold flakyTelegram at h
  split_ifs at h

end Scenario

end Runs

end ClusterPulse
