import ClusterPulse.Proof.OperationSteps

/-!
# The discipline of escalation, remediation and acknowledgement

What holds of every alert over a serial run, from any state of the run to any later one: escalation
and remediation happen once, when they are due, in this order, and not after a human acknowledged
the alert; a resolved alert is final; an alert is decided on at most once.
-/

namespace ClusterPulse

open AlertRepository Prog

/-! ## How an alert evolves -/

/-- `a'` is a later row of the alert `a`. -/
structure Evolves (a a' : AlertRecord) : Prop where
  firstFiredAt : a'.firstFiredAt = a.firstFiredAt
  escalatedAt : a.escalatedAt.isSome → a'.escalatedAt = a.escalatedAt
  remediatedAt : a.remediatedAt.isSome → a'.remediatedAt = a.remediatedAt
  acknowledgedAt : a.acknowledgedAt.isSome → a'.acknowledgedAt.isSome ∧
    a'.escalatedAt = a.escalatedAt ∧ a'.remediatedAt = a.remediatedAt
  resolved : a.status = .resolved → a' = a

theorem Evolves.refl (a : AlertRecord) : Evolves a a :=
  ⟨rfl, fun _ => rfl, fun _ => rfl, fun h => ⟨h, rfl, rfl⟩, fun _ => rfl⟩

theorem Evolves.trans {a b c : AlertRecord} (h : Evolves a b) (h' : Evolves b c) :
    Evolves a c where
  firstFiredAt := h'.firstFiredAt.trans h.firstFiredAt
  escalatedAt ha := by
    have hb := h.escalatedAt ha
    rw [h'.escalatedAt (hb ▸ ha), hb]
  remediatedAt ha := by
    have hb := h.remediatedAt ha
    rw [h'.remediatedAt (hb ▸ ha), hb]
  acknowledgedAt ha := by
    obtain ⟨hb, hesc, hrem⟩ := h.acknowledgedAt ha
    obtain ⟨hc, hesc', hrem'⟩ := h'.acknowledgedAt hb
    exact ⟨hc, hesc'.trans hesc, hrem'.trans hrem⟩
  resolved ha := by
    obtain rfl := h.resolved ha
    exact h'.resolved ha

variable {service : Option AlertEvaluationService}

theorem AlertWrite.evolves {a a' : AlertRecord} (h : AlertWrite service a a')
    (hfiring : a.status = .firing) : Evolves a a' := by
  have hresolved : ∀ b : AlertRecord, a.status = .resolved → b = a := by
    intro b hb
    rw [hfiring] at hb
    cases hb
  cases h with
  | advance | resolve => exact ⟨rfl, fun _ => rfl, fun _ => rfl, fun h => ⟨h, rfl, rfl⟩, hresolved _⟩
  | acknowledge =>
    exact ⟨rfl, fun _ => rfl, fun _ => rfl, fun _ => ⟨rfl, rfl, rfl⟩, hresolved _⟩
  | escalate svc t hsvc hack hesc =>
    refine ⟨rfl, fun h => ?_, fun _ => rfl, fun h => ?_, hresolved _⟩
    · rw [hesc] at h
      cases h
    · rw [hack] at h
      cases h
  | remediate svc t hsvc hack hrem =>
    refine ⟨rfl, fun _ => rfl, fun h => ?_, fun h => ?_, hresolved _⟩
    · rw [hrem] at h
      cases h
    · rw [hack] at h
      cases h

/-- The table `t'` comes later than `t`: no id of `t` has been given out again, and the rows that
are still there have evolved. -/
structure Later (t t' : AlertTable) : Prop where
  next_le : t.next ≤ t'.next
  evolves : ∀ i < t.next, ∀ a', t'.get? i = some a' → ∃ a, t.get? i = some a ∧ Evolves a a'

theorem Later.refl (t : AlertTable) : Later t t :=
  ⟨le_rfl, fun _ _ a ha => ⟨a, ha, .refl a⟩⟩

theorem Later.trans {t u v : AlertTable} (h : Later t u) (h' : Later u v) : Later t v := by
  refine ⟨h.next_le.trans h'.next_le, fun i hi c hc => ?_⟩
  obtain ⟨b, hb, hbc⟩ := h'.evolves i (Nat.lt_of_lt_of_le hi h.next_le) c hc
  obtain ⟨a, ha, hab⟩ := h.evolves i hi b hb
  exact ⟨a, ha, hab.trans hbc⟩

theorem AlertChange.later {t t' : AlertTable} (h : AlertChange service t t') : Later t t' := by
  refine ⟨h.next_le, fun i hi a' ha' => ?_⟩
  cases h with
  | keep => exact ⟨a', ha', .refl a'⟩
  | insert mk hmk =>
    rw [Table.get?_insert, if_neg hi.ne] at ha'
    exact ⟨a', ha', .refl a'⟩
  | write j f hf a ha hfiring hwrite =>
    by_cases hij : i = j
    · subst hij
      rw [Table.get?_modify_self, ha, Option.map_some, Option.some.injEq] at ha'
      exact ⟨a, ha, ha' ▸ hwrite.evolves hfiring⟩
    · rw [Table.get?_modify_of_ne hij] at ha'
      exact ⟨a', ha', .refl a'⟩
  | delete p hp =>
    rw [Table.get?_delete, Option.filter_eq_some_iff] at ha'
    exact ⟨a', ha'.1, .refl a'⟩

theorem AlertStep.later {w w' : World} (h : AlertStep service w w') :
    Later w.store.alerts w'.store.alerts := by
  cases h with
  | change halerts => exact halerts.later
  | decide x hfresh halerts => exact halerts ▸ .refl _

/-! ## What one step sets -/

/-- The row of an alert around a step: it is new, unchanged, or written once. -/
theorem AlertStep.row_cases {w w' : World} (h : AlertStep service w w') {i : ℕ} {a' : AlertRecord}
    (ha' : w'.store.alerts.get? i = some a') :
    (w.store.alerts.get? i = none ∧ a'.escalatedAt = none ∧ a'.remediatedAt = none) ∨
    w.store.alerts.get? i = some a' ∨
    ∃ a, w.store.alerts.get? i = some a ∧ AlertWrite service a a' := by
  cases h with
  | decide x hfresh halerts => exact .inr (.inl (halerts ▸ ha'))
  | change halerts =>
    generalize w'.store.alerts = t' at halerts ha'
    cases halerts with
    | keep => exact .inr (.inl ha')
    | insert mk hmk hfiring hesc hrem =>
      rw [Table.get?_insert] at ha'
      split_ifs at ha' with hi
      · obtain rfl := Option.some.inj ha'
        exact .inl ⟨hi ▸ Table.get?_next, hesc, hrem⟩
      · exact .inr (.inl ha')
    | write j f hf a ha hfiring hwrite =>
      rw [Table.get?_modify] at ha'
      split_ifs at ha' with hij
      · obtain rfl : f a = a' := by simpa [ha] using ha'
        exact .inr (.inr ⟨a, hij ▸ ha, hwrite⟩)
      · exact .inr (.inl ha')
    | delete p hp =>
      rw [Table.get?_delete, Option.filter_eq_some_iff] at ha'
      exact .inr (.inl ha'.1)

/-- Where an alert's escalation is set, it was due. -/
theorem AlertWrite.escalation_due {a a' : AlertRecord} {t : Instant}
    (h : AlertWrite service a a') (ha : a.escalatedAt = none) (ha' : a'.escalatedAt = some t) :
    ∃ svc ∈ service,
      svc.escalationAfterSeconds ≤ Timedelta.totalSeconds (t - a.firstFiredAt) := by
  cases h with
  | escalate svc u hsvc hack hesc hage =>
    obtain rfl : u.instant = t := by simpa [escalated] using ha'
    exact ⟨svc, hsvc, hage⟩
  | _ =>
    have hnone : a.escalatedAt = some t := ha'
    rw [ha] at hnone
    cases hnone

/-- Where an alert's remediation is set, it was due. -/
theorem AlertWrite.remediation_due {a a' : AlertRecord} {t : Instant}
    (h : AlertWrite service a a') (ha : a.remediatedAt = none) (ha' : a'.remediatedAt = some t) :
    ∃ svc ∈ service,
      svc.remediationAfterSeconds ≤ Timedelta.totalSeconds (t - a.firstFiredAt) := by
  cases h with
  | remediate svc u hsvc hack hrem hesc hage =>
    obtain rfl : u.instant = t := by simpa [remediated] using ha'
    exact ⟨svc, hsvc, hage⟩
  | _ =>
    have hnone : a.remediatedAt = some t := ha'
    rw [ha] at hnone
    cases hnone

/-! ## What holds in every state -/

/-- Every remediated alert is escalated, and every alert is decided on at most once. -/
structure Disciplined (w : World) : Prop where
  escalated : ∀ a ∈ w.store.alerts.rows, a.remediatedAt.isSome → a.escalatedAt.isSome
  decided_once : (w.recorded.map RemediationActionRecord.alertId).Nodup

theorem AlertWrite.escalated_of_remediated {a a' : AlertRecord} (h : AlertWrite service a a')
    (ha : a.remediatedAt.isSome → a.escalatedAt.isSome) (ha' : a'.remediatedAt.isSome) :
    a'.escalatedAt.isSome := by
  cases h with
  | escalate => rfl
  | remediate svc t hsvc hack hrem hesc => exact hesc
  | _ => exact ha ha'

theorem Disciplined.step {w w' : World} (h : AlertStep service w w') (hw : Disciplined w) :
    Disciplined w' where
  escalated a' ha' hset := by
    rcases h.row_cases (Table.get?_of_mem ha') with ⟨-, -, hrem⟩ | ha | ⟨a, ha, hwrite⟩
    · rw [hrem] at hset
      cases hset
    · exact hw.escalated a' (Table.mem_of_get? ha) hset
    · exact hwrite.escalated_of_remediated (hw.escalated a (Table.mem_of_get? ha)) hset
  decided_once := by
    cases h with
    | change halerts hrecorded =>
      rw [hrecorded]
      exact hw.decided_once
    | decide x hfresh halerts hrecorded =>
      rw [hrecorded, List.map_append, List.map_singleton, List.nodup_append]
      refine ⟨hw.decided_once, List.nodup_singleton _, ?_⟩
      rintro i hi _ hx rfl
      obtain ⟨r, hr, rfl⟩ := List.mem_map.1 hi
      exact hfresh r hr (List.mem_singleton.1 hx)

theorem disciplined_fresh : Disciplined .fresh := ⟨by simp [World.fresh, Store.empty], .nil⟩

/-! ## Serial runs -/

/-- The discipline of a run, over its calls. -/
structure AlertDiscipline (T : List (Step Operation World)) : Prop where
  /-- From any state of the run to any later one. -/
  evolves : ∀ (i j : ℕ) (x y : Step Operation World), i ≤ j → T[i]? = some x → T[j]? = some y →
    ∀ id a a', x.before.store.alerts.get? id = some a → y.after.store.alerts.get? id = some a' →
      Evolves a a'
  /-- A new alert is neither escalated nor remediated. -/
  created : ∀ x ∈ T, ∀ id a', x.before.store.alerts.get? id = none →
    x.after.store.alerts.get? id = some a' → a'.escalatedAt = none ∧ a'.remediatedAt = none
  escalation_due : ∀ x ∈ T, ∀ id a a' t, x.before.store.alerts.get? id = some a →
    x.after.store.alerts.get? id = some a' → a.escalatedAt = none → a'.escalatedAt = some t →
      ∃ svc ∈ x.label.service?,
        svc.escalationAfterSeconds ≤ Timedelta.totalSeconds (t - a.firstFiredAt)
  remediation_due : ∀ x ∈ T, ∀ id a a' t, x.before.store.alerts.get? id = some a →
    x.after.store.alerts.get? id = some a' → a.remediatedAt = none → a'.remediatedAt = some t →
      ∃ svc ∈ x.label.service?,
        svc.remediationAfterSeconds ≤ Timedelta.totalSeconds (t - a.firstFiredAt)
  /-- Automation acts only after escalation. -/
  escalated : ∀ x ∈ T, ∀ a ∈ x.after.store.alerts.rows, a.remediatedAt.isSome → a.escalatedAt.isSome
  /-- At most one decision was ever recorded for an alert. -/
  decided_once : ∀ x ∈ T, (x.after.recorded.map RemediationActionRecord.alertId).Nodup

theorem alertDiscipline_of_linked {T : List (Step Operation World)}
    (hT : Linked (fun op => AlertStep op.service?) .fresh T) : AlertDiscipline T where
  evolves i j x y hij hx hy id a a' ha ha' := by
    have hlater : Later x.before.store.alerts y.after.store.alerts :=
      hT.pairwise (fun w w' => Later w.store.alerts w'.store.alerts) (fun _ => .refl _)
        (fun _ _ _ => Later.trans) (fun _ _ _ => AlertStep.later) hij hx hy
    obtain ⟨b, hb, hevolves⟩ := hlater.evolves id (Table.lt_next_of_get? ha) a' ha'
    obtain rfl : b = a := Option.some.inj (hb.symm.trans ha)
    exact hevolves
  created x hx id a' hnone ha' := by
    rcases (hT.mem x hx).row_cases ha' with ⟨-, hesc, hrem⟩ | ha | ⟨a, ha, -⟩
    · exact ⟨hesc, hrem⟩
    · rw [hnone] at ha
      cases ha
    · rw [hnone] at ha
      cases ha
  escalation_due x hx id a a' t ha ha' hnone hset := by
    rcases (hT.mem x hx).row_cases ha' with ⟨h, -, -⟩ | h | ⟨b, h, hwrite⟩
    · rw [ha] at h
      cases h
    · obtain rfl : a = a' := Option.some.inj (ha.symm.trans h)
      rw [hnone] at hset
      cases hset
    · obtain rfl : a = b := Option.some.inj (ha.symm.trans h)
      exact hwrite.escalation_due hnone hset
  remediation_due x hx id a a' t ha ha' hnone hset := by
    rcases (hT.mem x hx).row_cases ha' with ⟨h, -, -⟩ | h | ⟨b, h, hwrite⟩
    · rw [ha] at h
      cases h
    · obtain rfl : a = a' := Option.some.inj (ha.symm.trans h)
      rw [hnone] at hset
      cases hset
    · obtain rfl : a = b := Option.some.inj (ha.symm.trans h)
      exact hwrite.remediation_due hnone hset
  escalated x hx :=
    (hT.invariant Disciplined (fun _ _ _ => Disciplined.step) disciplined_fresh x hx).2.escalated
  decided_once x hx :=
    (hT.invariant Disciplined (fun _ _ _ => Disciplined.step) disciplined_fresh x hx).2.decided_once

/-- The operation's service, if it has one, is what a Collector with validated settings builds. -/
def Operation.Configured (op : Operation) : Prop :=
  ∀ svc ∈ op.service?, ∃ d : Deployment, svc = d.alertEvaluationService

theorem Deployment.ordered (d : Deployment) : d.alertEvaluationService.Ordered := by
  rintro e he henabled
  obtain rfl : d.remediationEngine = e := Option.some.inj he
  have hnan : d.settings.escalationAfterSeconds ≠ .nan :=
    Double.ne_nan_of_le_right d.settings.escalationAfterSeconds_ge
  have hnan' : d.settings.remediationAfterSeconds ≠ .nan :=
    Double.ne_nan_of_le_right d.settings.remediationAfterSeconds_ge
  exact (Double.not_lt_iff_le hnan' hnan).1 (d.settings.escalation_le_remediation henabled)

theorem Operation.Configured.ordered {op : Operation} (h : op.Configured) : op.Ordered := by
  intro svc hsvc
  obtain ⟨d, rfl⟩ := h svc hsvc
  exact d.ordered

theorem timeline_linked_alertStep {env : Environment} (hmark : env.MarksRemediated)
    {ops : List Operation} (hops : ∀ op ∈ ops, op.Configured) :
    Linked (fun op => AlertStep op.service?) .fresh (Operation.timeline env ops .fresh) :=
  timeline_linked (fun op hop _ hw => Operation.runs_alertStep hmark (hops op hop).ordered hw)
    (settled_of_recorded_nil rfl)

/-- Over any serial run without failures, of any operations under any validated settings. -/
theorem alertDiscipline_timeline {env : Environment} (henv : env.Faultless) {ops : List Operation}
    (hops : ∀ op ∈ ops, op.Configured) : AlertDiscipline (Operation.timeline env ops .fresh) :=
  alertDiscipline_of_linked (timeline_linked_alertStep henv.marksRemediated hops)

namespace Scenario

/-- An alert is opened, escalated, remediated, acknowledged and resolved. -/
def lifecycle : List Operation :=
  [push 0 95, push 1000 96, push 2000 97, .acknowledge 1 "operator" (clock 2500).instant,
    push 3000 50]

theorem push_configured (seconds : Fin 86400) (usage : Double) :
    (push seconds usage).Configured := by
  rintro svc hsvc
  exact ⟨deployment, (Option.some.inj hsvc).symm⟩

theorem lifecycle_configured : ∀ op ∈ lifecycle, op.Configured := by
  intro op hop
  simp only [lifecycle, List.mem_cons, List.not_mem_nil, or_false] at hop
  rcases hop with rfl | rfl | rfl | rfl | rfl
  · exact push_configured _ _
  · exact push_configured _ _
  · exact push_configured _ _
  · rintro svc ⟨⟩
  · exact push_configured _ _

theorem alertDiscipline_lifecycle :
    AlertDiscipline (Operation.timeline .calm lifecycle .fresh) ∧
      (Operation.runAll .calm lifecycle .fresh).store.alerts.rows.map
        (fun a => (a.status, a.escalatedAt, a.remediatedAt)) =
        [(.resolved, some (clock 1000).instant, some (clock 2000).instant)] :=
  ⟨alertDiscipline_timeline Environment.calm_faultless lifecycle_configured, by decide +kernel⟩

end Scenario

end ClusterPulse
