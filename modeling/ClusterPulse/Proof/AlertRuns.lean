import ClusterPulse.Lib.Streaks
import ClusterPulse.Proof.Lifecycle

/-!
# Alerts are the streaks of breached results

Each evaluation emits a list of rule results.  `alerts_tell_streaks`: over any serial run, the
alerts of a key are, in order, the maximal runs of consecutive breached results emitted for it, and
each row holds the times and the values of its run.
-/

namespace ClusterPulse

open AlertRepository Prog

/-! ## Keys and rows -/

/-- Whether the row belongs to the key. -/
def AlertRecord.keyed (nodeId ruleKey : String) (a : AlertRecord) : Bool :=
  a.nodeId == nodeId && a.ruleKey == ruleKey

namespace Emission

/-- Whether the result was emitted for the key. -/
def keyed (nodeId ruleKey : String) (e : Emission) : Bool :=
  e.nodeId == nodeId && e.result.ruleKey == ruleKey

/-- Whether the result is a breach. -/
def breached (e : Emission) : Bool := e.result.breached

end Emission

/-- The row tells the streak of breached results that it stands for. -/
structure Tells (s : Streak Emission) (a : AlertRecord) : Prop where
  ruleKind : a.ruleKind = s.first.result.ruleKind
  severity : a.severity = s.first.result.severity
  description : a.description = s.first.result.description
  bound : a.bound = s.first.result.bound
  firstFiredAt : a.firstFiredAt = s.first.collectedAt.instant
  lastFiredAt : a.lastFiredAt = s.last.collectedAt.instant
  triggeringValue : a.triggeringValue = s.last.result.value
  status : a.status = if s.next.isSome then .resolved else .firing
  resolvedAt : a.resolvedAt = s.next.map fun e => e.collectedAt.instant

theorem tells_masked {s : Streak Emission} {a : AlertRecord} : Tells s a.masked ↔ Tells s a :=
  ⟨fun h => ⟨h.1, h.2, h.3, h.4, h.5, h.6, h.7, h.8, h.9⟩,
    fun h => ⟨h.1, h.2, h.3, h.4, h.5, h.6, h.7, h.8, h.9⟩⟩

theorem Tells.next_isSome_iff {s : Streak Emission} {a : AlertRecord} (h : Tells s a) :
    s.next.isSome ↔ a.status = .resolved := by
  rw [h.status]
  split_ifs with hs
  · exact iff_of_true hs rfl
  · exact iff_of_false hs (by decide)

theorem tells_opens {e : Emission} (i : ℕ) : Tells ⟨e, [], none⟩ (e.opens i).masked :=
  ⟨rfl, rfl, rfl, rfl, rfl, rfl, rfl, rfl, rfl⟩

/-- The row of a streak that goes on, or that ends, after the write. -/
theorem Tells.writes {s : Streak Emission} {a : AlertRecord} (h : Tells s a) (hs : s.next = none)
    (e : Emission) :
    Tells (if e.breached then ⟨s.first, s.rest ++ [e], none⟩ else ⟨s.first, s.rest, some e⟩)
      (e.writes a) := by
  have hstatus : a.status = .firing := h.status.trans (by rw [hs]; rfl)
  have hresolved : a.resolvedAt = none := h.resolvedAt.trans (by rw [hs]; rfl)
  unfold Emission.writes
  by_cases hb : e.result.breached = true
  · rw [if_pos hb, if_pos (show e.breached = true from hb)]
    have hlast : (Streak.mk s.first (s.rest ++ [e]) none).last = e := Streak.last_concat ..
    exact ⟨h.ruleKind, h.severity, h.description, h.bound, h.firstFiredAt,
      by rw [hlast]; rfl, by rw [hlast]; rfl, hstatus, hresolved⟩
  · rw [if_neg hb, if_neg (show ¬ e.breached = true from hb)]
    exact ⟨h.ruleKind, h.severity, h.description, h.bound, h.firstFiredAt, h.lastFiredAt,
      h.triggeringValue, rfl, rfl⟩

/-! ## The correspondence and its steps -/

/-- The rows of a key, without the masked columns. -/
def keyRows (nodeId ruleKey : String) (t : AlertTable) : List AlertRecord :=
  (view t).filter (AlertRecord.keyed nodeId ruleKey)

/-- The streaks of breached results emitted for a key. -/
def keyStreaks (nodeId ruleKey : String) (es : List Emission) : List (Streak Emission) :=
  streaks Emission.breached (es.filter (Emission.keyed nodeId ruleKey))

/-- For every key the rows tell the streaks, in order. -/
def Tracks (es : List Emission) (t : AlertTable) : Prop :=
  ∀ nodeId ruleKey, List.Forall₂ Tells (keyStreaks nodeId ruleKey es) (keyRows nodeId ruleKey t)

theorem Tracks.congr {es : List Emission} {t t' : AlertTable} (h : Tracks es t)
    (hview : view t' = view t) : Tracks es t' := by
  intro nodeId ruleKey
  unfold keyRows
  rw [hview]
  exact h nodeId ruleKey

theorem keyRows_modify {t t' : AlertTable} {i : ℕ} {f : AlertRecord → AlertRecord}
    (hkeyed : ∀ nodeId ruleKey a, AlertRecord.keyed nodeId ruleKey (f a) = a.keyed nodeId ruleKey)
    (hview : view t' = (view t).map fun b => if b.id = i then f b else b)
    (nodeId ruleKey : String) :
    keyRows nodeId ruleKey t' =
      (keyRows nodeId ruleKey t).map fun b => if b.id = i then f b else b := by
  unfold keyRows
  rw [hview, List.filter_map]
  congr 1
  refine List.filter_congr fun b _ => ?_
  rw [Function.comp_apply]
  split_ifs
  · exact hkeyed ..
  · rfl

theorem nodup_id_view (t : AlertTable) : ((view t).map AlertRecord.id).Nodup := by
  unfold view
  rw [List.map_map]
  exact t.nodup

theorem isOpen_iff {nodeId ruleKey : String} {a : AlertRecord} :
    isOpen nodeId ruleKey a = true ↔ a.keyed nodeId ruleKey = true ∧ a.status = .firing := by
  unfold isOpen AlertRecord.keyed
  rw [Bool.and_eq_true, beq_iff_eq]

/-- All rows of the key are resolved. -/
theorem ended_of_not_isOpen {es : List Emission} {t : AlertTable} {nodeId ruleKey : String}
    (h : Tracks es t) (hnone : ∀ a ∈ t.rows, ¬ isOpen nodeId ruleKey a = true) :
    ∀ s ∈ keyStreaks nodeId ruleKey es, s.next.isSome := by
  intro s hs
  obtain ⟨b, hb, htells⟩ := (h nodeId ruleKey).exists_of_mem_left hs
  obtain ⟨hview, hkeyed⟩ := List.mem_filter.1 hb
  obtain ⟨a, ha, rfl⟩ := List.mem_map.1 hview
  rw [htells.next_isSome_iff]
  by_contra hstatus
  refine hnone a ha (isOpen_iff.2 ⟨hkeyed, ?_⟩)
  rcases hst : a.status with _ | _
  · rfl
  · exact absurd hst hstatus

/-- The open row is the last of its key. -/
theorem keyRows_of_isOpen {es : List Emission} {t : AlertTable} {nodeId ruleKey : String}
    (h : Tracks es t) {a : AlertRecord} (ha : a ∈ t.rows) (hopen : isOpen nodeId ruleKey a = true) :
    ∃ ss s rows, keyStreaks nodeId ruleKey es = ss ++ [s] ∧ s.next = none ∧
      keyRows nodeId ruleKey t = rows ++ [a.masked] ∧ List.Forall₂ Tells ss rows ∧
      Tells s a.masked := by
  obtain ⟨hkeyed, hfiring⟩ := isOpen_iff.1 hopen
  have hmem : a.masked ∈ keyRows nodeId ruleKey t :=
    List.mem_filter.2 ⟨List.mem_map_of_mem ha, hkeyed⟩
  have hforall := h nodeId ruleKey
  rcases List.eq_nil_or_concat (keyRows nodeId ruleKey t) with hnil | ⟨rows, b, hrows⟩
  · rw [hnil] at hmem
    cases hmem
  rw [List.concat_eq_append] at hrows
  rcases List.eq_nil_or_concat (keyStreaks nodeId ruleKey es) with hnil | ⟨ss, s, hss⟩
  · rw [hnil, hrows] at hforall
    simp at hforall
  rw [List.concat_eq_append] at hss
  rw [hss, hrows] at hforall
  obtain ⟨hinit, hlast⟩ := List.forall₂_concat.1 hforall
  -- the streaks before the last have ended, so their rows are resolved
  have hb : b = a.masked := by
    rw [hrows, List.mem_append, List.mem_singleton] at hmem
    rcases hmem with hmem | hmem
    · obtain ⟨r, hr, htells⟩ := hinit.exists_of_mem_right hmem
      have hended : ∀ r ∈ (keyStreaks nodeId ruleKey es).dropLast, r.next.isSome :=
        next_isSome_of_mem_dropLast _
      rw [hss, List.dropLast_concat] at hended
      have hresolved : a.status = .resolved := htells.next_isSome_iff.1 (hended r hr)
      rw [hfiring] at hresolved
      cases hresolved
    · exact hmem.symm
  subst hb
  refine ⟨ss, s, rows, hss, ?_, hrows, hinit, hlast⟩
  have hnext : ¬ s.next.isSome := by
    rw [hlast.next_isSome_iff]
    show ¬ a.status = .resolved
    rw [hfiring]
    decide
  simpa using hnext

/-! ## A step of the correspondence -/

theorem keyStreaks_concat_of_keyed {es : List Emission} {e : Emission} {nodeId ruleKey : String}
    (he : e.keyed nodeId ruleKey = true) : keyStreaks nodeId ruleKey (es ++ [e]) =
      streaks Emission.breached (es.filter (Emission.keyed nodeId ruleKey) ++ [e]) := by
  unfold keyStreaks
  rw [List.filter_append, List.filter_singleton, he, cond_true]

theorem keyStreaks_concat_of_not_keyed {es : List Emission} {e : Emission}
    {nodeId ruleKey : String} (he : ¬ e.keyed nodeId ruleKey = true) :
    keyStreaks nodeId ruleKey (es ++ [e]) = keyStreaks nodeId ruleKey es := by
  unfold keyStreaks
  rw [List.filter_append, List.filter_singleton, Bool.eq_false_iff.2 he, cond_false,
    List.append_nil]

theorem keyed_opens {e : Emission} {nodeId ruleKey : String} (i : ℕ) :
    (e.opens i).masked.keyed nodeId ruleKey = e.keyed nodeId ruleKey := rfl

theorem keyed_writes (e : Emission) (nodeId ruleKey : String) (a : AlertRecord) :
    (e.writes a).keyed nodeId ruleKey = a.keyed nodeId ruleKey := by
  unfold Emission.writes
  split_ifs
  · rfl
  · rfl

/-- Both keys are the key of the result. -/
theorem eq_of_keyed {e : Emission} {a : AlertRecord} {nodeId ruleKey : String}
    (ha : a.keyed e.nodeId e.result.ruleKey = true) (hkeyed : a.keyed nodeId ruleKey = true) :
    e.keyed nodeId ruleKey = true := by
  simp only [AlertRecord.keyed, Emission.keyed, Bool.and_eq_true, beq_iff_eq] at *
  exact ⟨ha.1.symm.trans hkeyed.1, ha.2.symm.trans hkeyed.2⟩

theorem eq_key_of_keyed {e : Emission} {nodeId ruleKey : String}
    (he : e.keyed nodeId ruleKey = true) : nodeId = e.nodeId ∧ ruleKey = e.result.ruleKey := by
  simp only [Emission.keyed, Bool.and_eq_true, beq_iff_eq] at he
  exact ⟨he.1.symm, he.2.symm⟩

/-- A write to the last row of a list of rows with different ids. -/
theorem map_write_concat {rows : List AlertRecord} {a : AlertRecord}
    (hnodup : ((rows ++ [a]).map AlertRecord.id).Nodup) (f : AlertRecord → AlertRecord) :
    ((rows ++ [a]).map fun b => if b.id = a.id then f b else b) = rows ++ [f a] := by
  have hrows : (rows.map fun b => if b.id = a.id then f b else b) = rows.map id := by
    refine List.map_congr_left fun b hb => if_neg fun hid => ?_
    rw [List.map_append, List.nodup_append] at hnodup
    exact hnodup.2.2 b.id (List.mem_map_of_mem hb) a.id (by simp) hid
  rw [List.map_append, hrows, List.map_id, List.map_singleton, if_pos rfl]

theorem Tracks.step {es : List Emission} {e : Emission} {t t' : AlertTable} (h : Tracks es t)
    (hstep : ViewStep e t t') : Tracks (es ++ [e]) t' := by
  intro nodeId ruleKey
  by_cases he : e.keyed nodeId ruleKey = true
  · -- the key of the result
    obtain ⟨rfl, rfl⟩ := eq_key_of_keyed he
    rw [keyStreaks_concat_of_keyed he]
    cases hstep with
    | opened i hnone hbreached hview =>
      have hb : e.breached = true := hbreached
      rw [streaks_concat_of_ended (ended_of_not_isOpen h hnone), if_pos hb]
      unfold keyRows
      rw [hview, List.filter_append, List.filter_singleton, keyed_opens, he, cond_true]
      exact List.forall₂_concat.2 ⟨h _ _, tells_opens i⟩
    | written a ha hopen hview =>
      obtain ⟨ss, s, rows, hss, hnext, hrows, hinit, hlast⟩ := keyRows_of_isOpen h ha hopen
      rw [streaks_concat_of_open hss hnext, keyRows_modify (keyed_writes e) hview, hrows]
      have hnodup : ((rows ++ [a.masked]).map AlertRecord.id).Nodup := by
        rw [← hrows]
        exact (nodup_id_view t).sublist (List.filter_sublist.map _)
      have hid : a.masked.id = a.id := rfl
      rw [← hid, map_write_concat hnodup]
      exact List.forall₂_concat.2 ⟨hinit, hlast.writes hnext e⟩
    | idle hnone hbreached hview =>
      have hb : ¬ e.breached = true := hbreached
      rw [streaks_concat_of_ended (ended_of_not_isOpen h hnone), if_neg hb, List.append_nil]
      exact h.congr hview _ _
  · -- another key
    rw [keyStreaks_concat_of_not_keyed he]
    cases hstep with
    | opened i hnone hbreached hview =>
      unfold keyRows
      rw [hview, List.filter_append, List.filter_singleton, keyed_opens, Bool.eq_false_iff.2 he,
        cond_false, List.append_nil]
      exact h _ _
    | written a ha hopen hview =>
      have hsame : keyRows nodeId ruleKey t' = keyRows nodeId ruleKey t := by
        rw [keyRows_modify (keyed_writes e) hview]
        refine (List.map_congr_left fun b hb => ?_).trans (List.map_id _)
        obtain ⟨hmem, hkeyed⟩ := List.mem_filter.1 hb
        refine if_neg fun hid => he ?_
        have hb' : b = a.masked := List.inj_on_of_nodup_map (nodup_id_view t) hmem
          (List.mem_map_of_mem ha) hid
        rw [hb'] at hkeyed
        exact eq_of_keyed (isOpen_iff.1 hopen).1 hkeyed
      rw [hsame]
      exact h _ _
    | idle hnone hbreached hview => exact h.congr hview _ _

/-! ## An evaluation -/

/-- A relation between the results emitted so far and the alerts that looks at the lifecycle columns
only and that every result keeps. -/
structure Stepwise (I : List Emission → AlertTable → Prop) : Prop where
  congr : ∀ {es t t'}, I es t → view t' = view t → I es t'
  step : ∀ {es e t t'}, I es t → ViewStep e t t' → I (es ++ [e]) t'

theorem stepwise_tracks : Stepwise Tracks := ⟨Tracks.congr, Tracks.step⟩

variable {I : List Emission → AlertTable → Prop} {env : Environment}
  {svc : AlertEvaluationService} {nodeId : String} {t : Datetime}

theorem Stepwise.applyAll (hI : Stepwise I) (henv : env.Faultless) (ht : Timely t) :
    ∀ (results : List RuleEvaluationResult) (outcome : EvaluationOutcome) (es : List Emission)
      (w : World), I es w.store.alerts →
      Returns env (results.foldlM (svc.applyNext nodeId t) outcome) w fun _ w' =>
        I (es ++ results.map (Emission.mk nodeId t)) w'.store.alerts
  | [], _, es, w, hw => by
    rw [List.map_nil, List.append_nil]
    exact hw
  | result :: results, outcome, es, w, hw => by
    have hnext : Returns env (svc.applyNext nodeId t outcome result) w fun _ w' =>
        ViewStep ⟨nodeId, t, result⟩ w.store.alerts w'.store.alerts :=
      (returns_apply henv ht result).andThen fun _ _ h => h
    rw [List.foldlM_cons, List.map_cons, List.append_cons es]
    exact hnext.andThen fun outcome' w' hstep =>
      hI.applyAll henv ht results outcome' _ w' (hI.step hw hstep)

/-- The call leaves the lifecycle columns alone. -/
def Call.KeepsView (c : Call) : Prop := ∀ scan σ, view (c.alerts scan σ) = view σ.alerts

theorem view_run (env : Environment) {α : Type} {p : Repo α} (hp : Only Call.KeepsView p)
    (w : World) :
    view (p.run (handle env) w).2.store.alerts = view w.store.alerts := by
  refine (hp.runs (fun w' : World => view w'.store.alerts = view w.store.alerts)
    (fun c w' hc hw' => ?_) rfl).run
  rcases handle_cases env c w' with ⟨e, -, h⟩ | ⟨-, h⟩ <;> rw [h]
  · exact hw'
  · rw [World.after_alerts, hc, hw']

theorem MetricsIngestionService.keepsView_persist (payload : NodeMetricsPayload)
    (receivedAt : Instant) : Only Call.KeepsView (persist payload receivedAt) :=
  (only_perform fun _ _ => rfl).bind fun _ => only_perform fun _ _ => rfl

theorem AlertEvaluationService.keepsView_acknowledge (alertId : ℕ) (acknowledgedBy : String)
    (now : Instant) : Only Call.KeepsView (acknowledge alertId acknowledgedBy now) := by
  refine ((only_perform fun _ _ => rfl).bind fun record => ?_).bind fun current => ?_
  · cases record with
    | none => trivial
    | some record => exact only_pure _
  · split_ifs
    · trivial
    · exact only_perform fun _ _ => view_modify (id_acknowledged · acknowledgedBy now) fun _ => rfl

/-- The results that an evaluation emits; none, if it raises before it has all of them. -/
def AlertEvaluationService.emits (env : Environment) (svc : AlertEvaluationService)
    (nodeId : String) (samples : List MetricSample) (t : Datetime) (w : World) : List Emission :=
  match ((svc.ruleEngine.evaluate nodeId samples t).run (handle env) w).1 with
  | .ok results => results.map (Emission.mk nodeId t)
  | .error _ => []

theorem Stepwise.evaluateAndApply (hI : Stepwise I) (henv : env.Faultless) (ht : Timely t)
    (samples : List MetricSample) {es : List Emission} {w : World} (hw : I es w.store.alerts) :
    I (es ++ svc.emits env nodeId samples t w)
      ((svc.evaluateAndApply nodeId samples t).run (handle env) w).2.store.alerts := by
  have hview : view ((svc.ruleEngine.evaluate nodeId samples t).run (handle env) w).2.store.alerts =
      view w.store.alerts := view_run env (svc.ruleEngine.only_evaluate (fun _ _ _ _ => rfl) samples) w
  unfold AlertEvaluationService.evaluateAndApply AlertEvaluationService.emits
  rw [run_bind]
  rcases hrun : (svc.ruleEngine.evaluate nodeId samples t).run (handle env) w with ⟨e | results, w₁⟩
  · rw [hrun] at hview
    show I (es ++ []) w₁.store.alerts
    rw [List.append_nil]
    exact hI.congr hw hview
  · rw [hrun] at hview
    obtain ⟨outcome, w₂, hall, hw₂⟩ := exists_run_of_returns
      (hI.applyAll henv ht results ⟨[], []⟩ es w₁ (hI.congr hw hview))
    show I (es ++ _) ((svc.applyAll nodeId t results).run (handle env) w₁).2.store.alerts
    unfold AlertEvaluationService.applyAll
    rw [hall]
    exact hw₂

/-! ## A serial run -/

/-- An evaluation with a clock reading, or an acknowledgement. -/
def Operation.Reported : Operation → Prop
  | .evaluateAndApply _ _ _ collectedAt => ClockReading collectedAt
  | .ingest _ payload _ => ClockReading payload.collectedAt
  | .acknowledge .. => True
  | _ => False

/-- The results that an operation emits. -/
def Operation.emitted (env : Environment) (w : World) : Operation → List Emission
  | .evaluateAndApply svc nodeId samples collectedAt => svc.emits env nodeId samples collectedAt w
  | .ingest svc payload receivedAt => svc.emits env payload.nodeId payload.samples
    payload.collectedAt ((MetricsIngestionService.persist payload receivedAt).run (handle env) w).2
  | _ => []

/-- The results that a serial run emits, in order. -/
def emissions (env : Environment) : List Operation → World → List Emission
  | [], _ => []
  | op :: ops, w =>
    op.emitted env w ++ emissions env ops (op.program.run (handle env) w).2

theorem MetricsIngestionService.run_persist (henv : env.Faultless) (payload : NodeMetricsPayload)
    (receivedAt : Instant) (w : World) :
    ((persist payload receivedAt).run (handle env) w).1 = .ok () := by
  unfold persist
  rw [run_perform_bind (henv _ _) rfl, run_perform, handle_of_ok (henv _ _)]
  rfl

/-- What ingestion does to the tables: persist, then evaluate. -/
theorem MetricsIngestionService.run_ingest (henv : env.Faultless) (payload : NodeMetricsPayload)
    (receivedAt : Instant) (w : World) :
    ((ingest svc payload receivedAt).run (handle env) w).2 =
      ((svc.evaluateAndApply payload.nodeId payload.samples payload.collectedAt).run (handle env)
        ((persist payload receivedAt).run (handle env) w).2).2 := by
  have hok := run_persist henv payload receivedAt w
  unfold ingest
  rw [run_bind]
  rcases hr : (persist payload receivedAt).run (handle env) w with ⟨e | a, w₁⟩
  · rw [hr] at hok
    cases hok
  dsimp only
  rw [run_bind]
  unfold evaluateRulesBestEffort
  rw [run_tryCatch, run_bind]
  rcases (svc.evaluateAndApply payload.nodeId payload.samples payload.collectedAt).run (handle env)
    w₁ with ⟨e | outcome, w₂⟩
  · rfl
  · rfl

theorem Operation.run_map_program {α : Type} {f : α → Reply} {p : Repo α} (w : World) :
    ((f <$> p).run (handle env) w).2 = (p.run (handle env) w).2 := by
  rw [run_map]

theorem Stepwise.ingest (hI : Stepwise I) (svc : AlertEvaluationService) (henv : env.Faultless)
    {payload : NodeMetricsPayload}
    (ht : Timely payload.collectedAt) (receivedAt : Instant) {es : List Emission} {w : World}
    (hw : I es w.store.alerts) :
    I (es ++ (Operation.ingest svc payload receivedAt).emitted env w)
      ((Operation.ingest svc payload receivedAt).program.run (handle env) w).2.store.alerts := by
  unfold Operation.program
  rw [Operation.run_map_program, MetricsIngestionService.run_ingest henv]
  have hpersist := view_run env
    (MetricsIngestionService.keepsView_persist payload receivedAt) w
  exact hI.evaluateAndApply henv ht payload.samples (hI.congr hw hpersist)

theorem Stepwise.operation (hI : Stepwise I) (henv : env.Faultless) {op : Operation}
    (hop : op.Reported) {es : List Emission} {w : World} (hw : I es w.store.alerts) :
    I (es ++ op.emitted env w) (op.program.run (handle env) w).2.store.alerts := by
  cases op with
  | evaluateAndApply svc nodeId samples collectedAt =>
    unfold Operation.program
    rw [Operation.run_map_program]
    exact hI.evaluateAndApply henv (ClockReading.timely hop) samples hw
  | ingest svc payload receivedAt =>
    exact hI.ingest svc henv (ClockReading.timely hop) receivedAt hw
  | acknowledge alertId acknowledgedBy now =>
    unfold Operation.program
    rw [Operation.run_map_program]
    show I (es ++ []) _
    rw [List.append_nil]
    exact hI.congr hw (view_run env
      (AlertEvaluationService.keepsView_acknowledge alertId acknowledgedBy now) w)
  | _ => exact hop.elim

theorem Stepwise.runAll (hI : Stepwise I) (henv : env.Faultless) {ops : List Operation}
    (hops : ∀ op ∈ ops, op.Reported) {es : List Emission} {w : World} (hw : I es w.store.alerts) :
    I (es ++ emissions env ops w) (Operation.runAll env ops w).store.alerts := by
  induction ops generalizing es w with
  | nil =>
    rw [emissions, List.append_nil]
    exact hw
  | cons op ops ih =>
    rw [Operation.runAll_cons, emissions, ← List.append_assoc]
    exact ih (fun op' hop' => hops op' (List.mem_cons_of_mem _ hop'))
      (hI.operation henv (hops op List.mem_cons_self) hw)

/-- The alerts of a key, in the order in which they were created. -/
def alertsOf (nodeId ruleKey : String) (w : World) : List AlertRecord :=
  w.store.alerts.rows.filter (AlertRecord.keyed nodeId ruleKey)

theorem keyRows_eq (nodeId ruleKey : String) (w : World) :
    keyRows nodeId ruleKey w.store.alerts =
      (alertsOf nodeId ruleKey w).map AlertRecord.masked := by
  unfold keyRows alertsOf view
  rw [List.filter_map]
  rfl

/-- The rows before the last are resolved. -/
theorem countP_firing_le {ss : List (Streak Emission)} {rows : List AlertRecord}
    (h : List.Forall₂ Tells ss rows) (hss : ∀ s ∈ ss.dropLast, s.next.isSome) :
    rows.countP (fun a => a.status == .firing) ≤ 1 := by
  rcases List.eq_nil_or_concat ss with rfl | ⟨ss, s, rfl⟩
  · rw [List.forall₂_nil_left_iff.1 h]
    exact Nat.zero_le _
  rcases List.eq_nil_or_concat rows with rfl | ⟨rows, a, rfl⟩
  · exact Nat.zero_le _
  rw [List.concat_eq_append, List.concat_eq_append] at h
  rw [List.concat_eq_append, List.dropLast_concat] at hss
  have hinit := (List.forall₂_concat.1 h).1
  have hzero : rows.countP (fun a => a.status == .firing) = 0 := by
    refine List.countP_eq_zero.2 fun b hb => ?_
    obtain ⟨s', hs', htells⟩ := hinit.exists_of_mem_right hb
    rw [htells.next_isSome_iff.1 (hss s' hs')]
    decide
  rw [List.concat_eq_append, List.countP_append, hzero, List.countP_singleton]
  split_ifs <;> decide

/-- The alerts of a key are the streaks of breached results emitted for it, and at most the last
is firing. -/
theorem alerts_tell_streaks (henv : env.Faultless) {ops : List Operation}
    (hops : ∀ op ∈ ops, op.Reported) {w : World} (hw : w.store.alerts.rows = [])
    (nodeId ruleKey : String) :
    List.Forall₂ Tells (keyStreaks nodeId ruleKey (emissions env ops w))
        (alertsOf nodeId ruleKey (Operation.runAll env ops w)) ∧
      (alertsOf nodeId ruleKey (Operation.runAll env ops w)).countP
        (fun a => a.status == .firing) ≤ 1 := by
  have hempty : Tracks [] w.store.alerts := by
    intro n k
    unfold keyStreaks keyRows view
    rw [hw, List.filter_nil, List.map_nil, List.filter_nil, streaks]
    exact .nil
  have hforall := stepwise_tracks.runAll henv hops hempty nodeId ruleKey
  rw [List.nil_append, keyRows_eq, List.forall₂_map_right_iff] at hforall
  replace hforall := hforall.imp fun s a => tells_masked.1
  exact ⟨hforall, countP_firing_le hforall (next_isSome_of_mem_dropLast _)⟩

namespace Scenario

theorem clockReading_clock (seconds : Fin 86400) : ClockReading (clock seconds) := by
  refine ⟨rfl, ?_⟩
  show (3600 * 1000000 : ℤ) ≤ 738000 * 86400000000 + (seconds.val : ℤ) * 1000000
  omega

/-- The processor is saturated twice; the first alert is escalated, acknowledged and resolved. -/
def twoStreaks : List Operation :=
  [push 0 95, push 1000 96, .acknowledge 1 "operator" (clock 1500).instant, push 2000 97,
    push 3000 50, push 4000 98]

theorem twoStreaks_reported : ∀ op ∈ twoStreaks, op.Reported := by
  intro op hop
  simp only [twoStreaks, List.mem_cons, List.not_mem_nil, or_false] at hop
  rcases hop with rfl | rfl | rfl | rfl | rfl | rfl
  · exact clockReading_clock _
  · exact clockReading_clock _
  · trivial
  · exact clockReading_clock _
  · exact clockReading_clock _
  · exact clockReading_clock _

theorem alerts_tell_twoStreaks :
    (List.Forall₂ Tells
        (keyStreaks "node-1" "threshold:cpu.usage_percent" (emissions .calm twoStreaks .fresh))
        (alertsOf "node-1" "threshold:cpu.usage_percent"
          (Operation.runAll .calm twoStreaks .fresh)) ∧
      (alertsOf "node-1" "threshold:cpu.usage_percent"
        (Operation.runAll .calm twoStreaks .fresh)).countP (fun a => a.status == .firing) ≤ 1) ∧
    (alertsOf "node-1" "threshold:cpu.usage_percent"
      (Operation.runAll .calm twoStreaks .fresh)).map
        (fun a => (a.firstFiredAt, a.lastFiredAt, a.resolvedAt)) =
      [((clock 0).instant, (clock 2000).instant, some (clock 3000).instant),
        ((clock 4000).instant, (clock 4000).instant, none)] :=
  ⟨alerts_tell_streaks Environment.calm_faultless twoStreaks_reported rfl _ _, by decide +kernel⟩

end Scenario

end ClusterPulse
