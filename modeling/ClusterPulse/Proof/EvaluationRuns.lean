import ClusterPulse.Lib.Machine
import ClusterPulse.Lib.Slots
import ClusterPulse.Proof.DeliveryOrder
import ClusterPulse.Proof.Raising

/-!
# Evaluations as runs over the alerts

`Evaluates` is what the loop over the rule results can do to the tables, whichever of the open alerts
of a key the database finds: it applies the results in order, and a result that raises is the last
one.  `SlotsTell` says what is left, for each rule key, of the alerts that were open at the start:
the open alerts of a key are a slot, that a breach fills and any other result takes an alert out of.
-/

namespace ClusterPulse

open AlertRepository Prog

/-- A breach would raise at an alert that it has opened before. -/
def RaisesAnew (svc : AlertEvaluationService) (nodeId ruleKey : String) (t : Datetime)
    (u : ActionTable) : Prop :=
  ∀ a : AlertRecord, a.firstFiredAt = t.instant → a.acknowledgedAt = none → a.escalatedAt = none →
    a.remediatedAt = none → Raising svc nodeId ruleKey t u a

theorem Timely.not_raisesAnew {svc : AlertEvaluationService} {nodeId ruleKey : String} {t : Datetime}
    {u : ActionTable} (ht : Timely t) : ¬ RaisesAnew svc nodeId ruleKey t u := fun hanew =>
  ht.not_raising (hanew (newAlert nodeId ruleKey .threshold .warning "" 0 0 t 0) rfl rfl rfl rfl)

/-- A breach may raise at an alert that is open. -/
def OpenRaising (svc : AlertEvaluationService) (nodeId ruleKey : String) (t : Datetime)
    (σ : Store) : Prop :=
  ∃ a ∈ σ.alerts.rows, isOpen nodeId ruleKey a = true ∧
    Raising svc nodeId ruleKey t σ.remediationActions a

/-- The database finds one of the open alerts of the key, if there is one. -/
def Finds (nodeId ruleKey : String) (u : AlertTable) : Option AlertRecord → Prop
  | none => ∀ a ∈ u.rows, ¬ isOpen nodeId ruleKey a = true
  | some a => a ∈ u.rows ∧ isOpen nodeId ruleKey a = true

theorem finds_findOpenAlert (scan : Scan) (σ : Store) (nodeId ruleKey : String) :
    Finds nodeId ruleKey σ.alerts (findOpenAlert scan σ nodeId ruleKey) := by
  cases hfound : findOpenAlert scan σ nodeId ruleKey with
  | none => exact fun a ha => List.find?_eq_none.1 hfound a (mem_reorder.2 ha)
  | some a => exact ⟨mem_reorder.1 (List.mem_of_find?_eq_some hfound), List.find?_some hfound⟩

/-- Some order of the rows lets the database find a given open alert. -/
theorem exists_scan_finds {σ : Store} {nodeId ruleKey : String} {a : AlertRecord}
    (ha : a ∈ σ.alerts.rows) (hopen : isOpen nodeId ruleKey a = true) :
    ∃ scan, findOpenAlert scan σ nodeId ruleKey = some a :=
  exists_find?_reorder ha hopen

/-- The results are applied in order, to the end or to one that raises. -/
inductive Evaluates (svc : AlertEvaluationService) (nodeId : String) (t : Datetime) :
    List RuleEvaluationResult → Store → Store → Bool → Prop
  | done (σ : Store) : Evaluates svc nodeId t [] σ σ true
  | applied {result : RuleEvaluationResult} {results : List RuleEvaluationResult} {σ σ₁ σ' : Store}
    {completed : Bool} (found : Option AlertRecord) (hfound : Finds nodeId result.ruleKey σ.alerts found)
    (happlies : Applies svc nodeId t result σ σ₁ found)
    (hrest : Evaluates svc nodeId t results σ₁ σ' completed) :
    Evaluates svc nodeId t (result :: results) σ σ' completed
  | interrupted {result : RuleEvaluationResult} {results : List RuleEvaluationResult} {σ σ' : Store}
    (found : Option AlertRecord) (hfound : Finds nodeId result.ruleKey σ.alerts found)
    (hinterrupts : Interrupts svc nodeId t result σ σ' found) :
    Evaluates svc nodeId t (result :: results) σ σ' false

section Runs

variable {env : Environment} {svc : AlertEvaluationService} {nodeId : String} {t : Datetime}
  {result : RuleEvaluationResult} {results results' : List RuleEvaluationResult}
  {σ σ' σ₀ σ₁ : Store} {found : Option AlertRecord} {completed : Bool}

/-- One pass of the loop. -/
theorem runs_applyNext_raising (svc : AlertEvaluationService) (nodeId : String) (t : Datetime)
    (henv : env.Faultless) (outcome : EvaluationOutcome) (result : RuleEvaluationResult) (w : World) :
    Runs (handle env) (fun _ _ => True) (svc.applyNext nodeId t outcome result) w (Ends
      (fun _ w' => Applies svc nodeId t result w.store w'.store
        (findOpenAlert (env.scan w.calls) w.store nodeId result.ruleKey))
      fun _ w' => Interrupts svc nodeId t result w.store w'.store
        (findOpenAlert (env.scan w.calls) w.store nodeId result.ruleKey)) :=
  (runs_apply_raising henv result).bind (fun _ _ hQ => hQ) fun _ _ hQ => hQ

/-- A run of the loop is one of these. -/
theorem runs_applyAll (henv : env.Faultless) (outcome : EvaluationOutcome) (w : World) :
    Runs (handle env) (fun _ _ => True) (results.foldlM (svc.applyNext nodeId t) outcome) w (Ends
      (fun _ w' => Evaluates svc nodeId t results w.store w'.store true)
      fun _ w' => Evaluates svc nodeId t results w.store w'.store false) := by
  induction results generalizing outcome w with
  | nil => exact .done _
  | cons result results ih =>
    rw [List.foldlM_cons]
    have hfinds := finds_findOpenAlert (env.scan w.calls) w.store nodeId result.ruleKey
    refine (runs_applyNext_raising svc nodeId t henv outcome result w).bind
      (fun outcome' w₁ happlies => ?_) fun e w₁ hinterrupts => ?_
    · refine (ih outcome' w₁).post ?_
      rintro (e | r) w' hrest
      · exact .applied _ hfinds happlies hrest
      · exact .applied _ hfinds happlies hrest
    · exact .interrupted _ hfinds hinterrupts

/-- The part of a run that is over before the rest begins. -/
theorem evaluates_append_iff : Evaluates svc nodeId t (results ++ results') σ σ' completed ↔
    (∃ σ₁, Evaluates svc nodeId t results σ σ₁ true ∧
      Evaluates svc nodeId t results' σ₁ σ' completed) ∨
    completed = false ∧ Evaluates svc nodeId t results σ σ' false := by
  induction results generalizing σ with
  | nil =>
    constructor
    · exact fun h => .inl ⟨σ, .done σ, h⟩
    · rintro (⟨σ₁, h, h'⟩ | ⟨-, h⟩)
      · cases h
        exact h'
      · cases h
  | cons result results ih =>
    constructor
    · intro h
      cases h with
      | applied found hfound happlies hrest =>
        obtain ⟨σ₁, h, h'⟩ | ⟨rfl, h⟩ := ih.1 hrest
        · exact .inl ⟨σ₁, .applied found hfound happlies h, h'⟩
        · exact .inr ⟨rfl, .applied found hfound happlies h⟩
      | interrupted found hfound hinterrupts =>
        exact .inr ⟨rfl, .interrupted found hfound hinterrupts⟩
    · rintro (⟨σ₁, h, h'⟩ | ⟨rfl, h⟩)
      · cases h with
        | applied found hfound happlies hrest =>
          exact .applied found hfound happlies (ih.2 (.inl ⟨σ₁, hrest, h'⟩))
      · cases h with
        | applied found hfound happlies hrest =>
          exact .applied found hfound happlies (ih.2 (.inr ⟨rfl, hrest⟩))
        | interrupted found hfound hinterrupts => exact .interrupted found hfound hinterrupts

/-! ## What one result changes -/

/-- The rows of a key, open or not. -/
def rowCount (nodeId ruleKey : String) (u : AlertTable) : ℕ :=
  u.rows.countP (AlertRecord.keyed nodeId ruleKey)

theorem isOpen_masked {a a' : AlertRecord} (h : a'.masked = a.masked) (node ruleKey : String) :
    isOpen node ruleKey a' = isOpen node ruleKey a := by
  have hmask : ∀ b : AlertRecord, isOpen node ruleKey b = isOpen node ruleKey b.masked :=
    fun _ => rfl
  rw [hmask a', hmask a, h]

theorem keyed_masked {a a' : AlertRecord} (h : a'.masked = a.masked) (node ruleKey : String) :
    a'.keyed node ruleKey = a.keyed node ruleKey := by
  have hmask : ∀ b : AlertRecord, b.keyed node ruleKey = b.masked.keyed node ruleKey :=
    fun _ => rfl
  rw [hmask a', hmask a, h]

theorem Finds.openCount_eq_zero_iff {ruleKey : String} (h : Finds nodeId ruleKey σ.alerts found) :
    openCount nodeId ruleKey σ.alerts = 0 ↔ found = none := by
  rw [openCount_eq, List.countP_eq_zero]
  cases found with
  | none => exact iff_of_true h rfl
  | some a => exact iff_of_false (fun hnone => hnone a h.1 h.2) nofun

theorem isOpen_iff_of_isOpen {ruleKey : String} {a : AlertRecord}
    (h : isOpen nodeId ruleKey a = true) (node key : String) :
    isOpen node key a = true ↔ node = nodeId ∧ key = ruleKey := by
  obtain ⟨rfl, rfl, hfiring⟩ := isOpen_eq_true_iff.1 h
  rw [isOpen_eq_true_iff]
  constructor
  · rintro ⟨rfl, rfl, -⟩
    exact ⟨rfl, rfl⟩
  · rintro ⟨rfl, rfl⟩
    exact ⟨rfl, rfl, hfiring⟩

/-- A row that no key has open. -/
theorem isOpen_resolved (a : AlertRecord) (node key : String) :
    isOpen node key (resolved t a) = false :=
  Bool.eq_false_iff.2 fun h => nomatch (isOpen_eq_true_iff.1 h).2.2

/-- Only the open alerts of the result's own key change. -/
theorem Applies.openCount_eq (hfound : Finds nodeId result.ruleKey σ.alerts found)
    (h : Applies svc nodeId t result σ σ' found) (node key : String) :
    openCount node key σ'.alerts =
      if node = nodeId ∧ key = result.ruleKey then
        if result.breached then max 1 (openCount node key σ.alerts)
        else openCount node key σ.alerts - 1
      else openCount node key σ.alerts := by
  have hempty := hfound.openCount_eq_zero_iff
  simp only [ClusterPulse.openCount_eq] at hempty ⊢
  cases h with
  | opened hbreached halerts =>
    have hnew : isOpen node key (newAlert nodeId result.ruleKey result.ruleKind result.severity
        result.description result.value result.bound t σ.alerts.next) = true ↔
          node = nodeId ∧ key = result.ruleKey :=
      isOpen_iff_of_isOpen (isOpen_eq_true_iff.2 ⟨rfl, rfl, rfl⟩) node key
    have hzero := hempty.2 rfl
    rw [halerts, Table.rows_insert, List.countP_append, List.countP_singleton, if_congr hnew rfl rfl,
      hbreached, if_pos rfl]
    split_ifs with hkey
    · obtain ⟨rfl, rfl⟩ := hkey
      omega
    · rfl
  | idle hbreached halerts =>
    have hzero := hempty.2 rfl
    rw [halerts, hbreached, if_neg Bool.false_ne_true]
    split_ifs with hkey
    · obtain ⟨rfl, rfl⟩ := hkey
      omega
    · rfl
  | resolved a hbreached halerts =>
    have hopen := isOpen_iff_of_isOpen hfound.2 node key
    have hcount := halerts.countP (isOpen node key)
    rw [isOpen_resolved] at hcount
    rw [hbreached, if_neg Bool.false_ne_true]
    split_ifs with hkey
    · rw [hopen.2 hkey] at hcount
      simp only [Bool.toNat_true, Bool.toNat_false] at hcount
      omega
    · rw [Bool.eq_false_iff.2 (mt hopen.1 hkey)] at hcount
      exact hcount
  | advanced a a' hbreached halerts hmasked =>
    have hcount := halerts.countP (isOpen node key)
    have hsame : isOpen node key a' = isOpen node key a := isOpen_masked hmasked node key
    rw [hsame] at hcount
    rw [hbreached, if_pos rfl]
    split_ifs with hkey
    · obtain ⟨rfl, rfl⟩ := hkey
      have hpos : ¬ (σ.alerts.rows.countP (isOpen node result.ruleKey) = 0) := by
        rw [hempty]
        exact nofun
      omega
    · omega

/-- A row is created by a breach that finds no alert open. -/
theorem Applies.rowCount_eq (hfound : Finds nodeId result.ruleKey σ.alerts found)
    (h : Applies svc nodeId t result σ σ' found) (node key : String) :
    rowCount node key σ'.alerts = rowCount node key σ.alerts +
      if (node = nodeId ∧ key = result.ruleKey) ∧ openCount node key σ.alerts = 0 ∧
        result.breached = true then 1 else 0 := by
  have hempty := hfound.openCount_eq_zero_iff
  unfold rowCount
  cases h with
  | opened hbreached halerts =>
    have hnew : (newAlert nodeId result.ruleKey result.ruleKind result.severity result.description
        result.value result.bound t σ.alerts.next).keyed node key = true ↔
          node = nodeId ∧ key = result.ruleKey := by
      unfold AlertRecord.keyed
      rw [Bool.and_eq_true, beq_iff_eq, beq_iff_eq]
      exact and_congr eq_comm eq_comm
    rw [halerts, Table.rows_insert, List.countP_append, List.countP_singleton, if_congr hnew rfl rfl]
    congr 1
    refine if_congr ⟨fun hkey => ⟨hkey, ?_, hbreached⟩, fun hkey => hkey.1⟩ rfl rfl
    obtain ⟨rfl, rfl⟩ := hkey
    exact hempty.2 rfl
  | idle hbreached halerts =>
    rw [halerts, if_neg (by simp [hbreached]), Nat.add_zero]
  | resolved a hbreached halerts =>
    have hcount := halerts.countP (AlertRecord.keyed node key)
    have hsame : (AlertRepository.resolved t a).keyed node key = a.keyed node key := rfl
    rw [hsame] at hcount
    rw [if_neg (by simp [hbreached])]
    omega
  | advanced a a' hbreached halerts hmasked =>
    have hcount := halerts.countP (AlertRecord.keyed node key)
    have hsame : a'.keyed node key = a.keyed node key := keyed_masked hmasked node key
    rw [hsame] at hcount
    have hpos : ¬ ((node = nodeId ∧ key = result.ruleKey) ∧ openCount node key σ.alerts = 0 ∧
        result.breached = true) := by
      rintro ⟨⟨rfl, rfl⟩, hzero, -⟩
      cases hempty.1 hzero
    rw [if_neg hpos]
    omega

theorem Applies.length_eq (hfound : Finds nodeId result.ruleKey σ.alerts found)
    (h : Applies svc nodeId t result σ σ' found) :
    σ'.alerts.rows.length = σ.alerts.rows.length +
      if openCount nodeId result.ruleKey σ.alerts = 0 ∧ result.breached = true then 1
      else 0 := by
  have hempty := hfound.openCount_eq_zero_iff
  cases h with
  | opened hbreached halerts =>
    rw [halerts, Table.rows_insert, List.length_append, if_pos ⟨hempty.2 rfl, hbreached⟩]
    rfl
  | idle hbreached halerts =>
    rw [halerts, if_neg (by simp [hbreached]), Nat.add_zero]
  | resolved a hbreached halerts =>
    rw [halerts.length, if_neg (by simp [hbreached]), Nat.add_zero]
  | advanced a a' hbreached halerts =>
    rw [halerts.length, if_neg fun h => nomatch hempty.1 h.1]
    rfl

/-- Where a result raises, the alert stays open and none is created. -/
theorem Interrupts.kept (h : Interrupts svc nodeId t result σ σ' found) :
    (∀ node key, openCount node key σ'.alerts =
      openCount node key σ.alerts) ∧
    (∀ node key, rowCount node key σ'.alerts =
      rowCount node key σ.alerts) ∧
    σ'.alerts.rows.length = σ.alerts.rows.length := by
  cases h with
  | raised a a' hbreached halerts hmasked =>
    refine ⟨fun node key => ?_, fun node key => ?_, halerts.length⟩
    · have hcount := halerts.countP (isOpen node key)
      have hsame : isOpen node key a' = isOpen node key a := isOpen_masked hmasked node key
      rw [hsame] at hcount
      rw [openCount_eq, openCount_eq]
      omega
    · have hcount := halerts.countP (AlertRecord.keyed node key)
      have hsame : a'.keyed node key = a.keyed node key := keyed_masked hmasked node key
      rw [hsame] at hcount
      unfold rowCount
      omega

/-! ## Slots -/

/-- An alert that is opened at `t`. -/
theorem raising_iff_raisesAnew {u : ActionTable} {ruleKey : String} {a : AlertRecord}
    (hfired : a.firstFiredAt = t.instant) (hack : a.acknowledgedAt = none)
    (hescalated : a.escalatedAt = none) (hremediated : a.remediatedAt = none) :
    Raising svc nodeId ruleKey t u a ↔ RaisesAnew svc nodeId ruleKey t u := by
  constructor
  · intro h b hfired' hack' hescalated' hremediated'
    have hage : ∀ threshold, AlertEvaluationService.ageReaches b t threshold =
        AlertEvaluationService.ageReaches a t threshold := fun _ => by
      unfold AlertEvaluationService.ageReaches
      rw [hfired, hfired']
    refine (Raising.congr ?_ ?_ fun _ _ _ _ => Iff.rfl).2 h
    · unfold AlertEvaluationService.shouldEscalate
      rw [hack, hack', hescalated, hescalated', hage]
    · unfold AlertEvaluationService.shouldRemediate
      rw [hack, hack', hremediated, hremediated', hage]
  · exact fun h => h a hfired hack hescalated hremediated

/-- The open alerts of the rule keys, as slots, at the start of an evaluation. -/
def slotsOf (nodeId : String) (u : AlertTable) (ruleKey : String) : Slot :=
  .ofCount (openCount nodeId ruleKey u)

/-- The slots after a result. -/
def nextSlots (slots : String → Slot) (result : RuleEvaluationResult) : String → Slot :=
  Function.update slots result.ruleKey ((slots result.ruleKey).next result.breached)

/-- What the slots tell in the course of an evaluation that began at `σ₀`. -/
structure SlotsTell (svc : AlertEvaluationService) (nodeId : String) (t : Datetime) (σ₀ σ : Store)
    (slots : String → Slot) : Prop where
  raising : ∀ ruleKey a, Raising svc nodeId ruleKey t σ.remediationActions a ↔
    Raising svc nodeId ruleKey t σ₀.remediationActions a
  count : ∀ ruleKey, openCount nodeId ruleKey σ.alerts = (slots ruleKey).count
  held : ∀ ruleKey n, slots ruleKey = .held n → ∀ a ∈ σ.alerts.rows,
    isOpen nodeId ruleKey a = true → Raising svc nodeId ruleKey t σ₀.remediationActions a →
      a ∈ σ₀.alerts.rows
  filled : ∀ ruleKey, slots ruleKey = .filled → ∀ a ∈ σ.alerts.rows,
    isOpen nodeId ruleKey a = true → (Raising svc nodeId ruleKey t σ₀.remediationActions a ↔
      RaisesAnew svc nodeId ruleKey t σ₀.remediationActions)

theorem slotsTell_start (svc : AlertEvaluationService) (nodeId : String) (t : Datetime) (σ : Store) :
    SlotsTell svc nodeId t σ σ (slotsOf nodeId σ.alerts) where
  raising _ _ := Iff.rfl
  count ruleKey := by rw [slotsOf, Slot.count_ofCount]
  held _ _ _ _ ha _ _ := ha
  filled ruleKey h := by
    unfold slotsOf at h
    cases hn : openCount nodeId ruleKey σ.alerts <;> rw [hn] at h <;> cases h

/-- The open alerts after a result: they were open before, or the result is a breach of their key
that has opened them or does not raise at them. -/
theorem Applies.open_cases (hfound : Finds nodeId result.ruleKey σ.alerts found)
    (h : Applies svc nodeId t result σ σ' found) {key : String} {a : AlertRecord}
    (ha : a ∈ σ'.alerts.rows) (hopen : isOpen nodeId key a = true) :
    a ∈ σ.alerts.rows ∨ key = result.ruleKey ∧ result.breached = true ∧
      ((found = none ∧ ∀ u, Raising svc nodeId key t u a ↔ RaisesAnew svc nodeId key t u) ∨
        ∃ b, found = some b ∧ ¬ Raising svc nodeId key t σ.remediationActions b ∧
          ¬ Raising svc nodeId key t σ'.remediationActions a) := by
  cases h with
  | opened hbreached halerts =>
    rw [halerts, Table.mem_insert] at ha
    obtain ha | rfl := ha
    · exact .inl ha
    · have hkey := ((isOpen_iff_of_isOpen hopen nodeId result.ruleKey).1
        (isOpen_eq_true_iff.2 ⟨rfl, rfl, rfl⟩)).2
      exact .inr ⟨hkey.symm, hbreached, .inl ⟨rfl, fun u => raising_iff_raisesAnew rfl rfl rfl rfl⟩⟩
  | idle hbreached halerts => exact .inl (halerts ▸ ha)
  | resolved b hbreached halerts =>
    obtain rfl | ha := halerts.eq_or_mem ha
    · rw [isOpen_resolved] at hopen
      cases hopen
    · exact .inl ha
  | advanced b b' hbreached halerts hmasked hquiet hquiet' =>
    obtain rfl | ha := halerts.eq_or_mem ha
    · have hopen' : isOpen nodeId key b = true := (isOpen_masked hmasked nodeId key).symm.trans hopen
      obtain rfl := ((isOpen_iff_of_isOpen hfound.2 nodeId key).1 hopen').2
      exact .inr ⟨rfl, hbreached, .inr ⟨b, rfl, hquiet, hquiet'⟩⟩
    · exact .inl ha

theorem Applies.raising_iff (h : Applies svc nodeId t result σ σ' found) (key : String)
    (a : AlertRecord) : Raising svc nodeId key t σ'.remediationActions a ↔
      Raising svc nodeId key t σ.remediationActions a := by
  cases h with
  | opened hbreached halerts hactions => rw [hactions]
  | idle hbreached halerts hactions => rw [hactions]
  | resolved b hbreached halerts hactions => rw [hactions]
  | advanced b b' hbreached halerts hmasked hquiet hquiet' hactions => exact hactions key a

section Applied

variable {slots : String → Slot}

theorem nextSlots_self : nextSlots slots result result.ruleKey =
    (slots result.ruleKey).next result.breached :=
  Function.update_self ..

theorem nextSlots_of_ne {key : String} (hkey : key ≠ result.ruleKey) :
    nextSlots slots result key = slots key :=
  Function.update_of_ne hkey ..

theorem SlotsTell.raising_applies (h : SlotsTell svc nodeId t σ₀ σ slots)
    (happlies : Applies svc nodeId t result σ σ' found) (key : String) (a : AlertRecord) :
    Raising svc nodeId key t σ'.remediationActions a ↔
      Raising svc nodeId key t σ₀.remediationActions a :=
  (happlies.raising_iff key a).trans (h.raising key a)

theorem SlotsTell.empty_iff (h : SlotsTell svc nodeId t σ₀ σ slots)
    (hfound : Finds nodeId result.ruleKey σ.alerts found) :
    (slots result.ruleKey).count = 0 ↔ found = none := by
  rw [← h.count]
  exact hfound.openCount_eq_zero_iff

/-- An open alert that raises is still one of those the slot held. -/
theorem SlotsTell.held_applies (h : SlotsTell svc nodeId t σ₀ σ slots)
    (hfound : Finds nodeId result.ruleKey σ.alerts found)
    (happlies : Applies svc nodeId t result σ σ' found) {key : String} {n : ℕ}
    (hslot : nextSlots slots result key = .held n) {a : AlertRecord} (ha : a ∈ σ'.alerts.rows)
    (hopen : isOpen nodeId key a = true)
    (hraises : Raising svc nodeId key t σ₀.remediationActions a) : a ∈ σ₀.alerts.rows := by
  obtain hrow | ⟨rfl, hbreached, ⟨hnone, -⟩ | ⟨b, -, -, hquiet⟩⟩ :=
    happlies.open_cases hfound ha hopen
  · obtain ⟨m, hm⟩ : ∃ m, slots key = .held m := by
      by_cases hkey : key = result.ruleKey
      · subst hkey
        rw [nextSlots_self] at hslot
        exact Slot.exists_held_of_next hslot
      · rw [nextSlots_of_ne hkey] at hslot
        exact ⟨n, hslot⟩
    exact h.held key m hm a hrow hopen hraises
  · have hslot' := (Slot.count_eq_zero_iff _).1 ((h.empty_iff hfound).2 hnone)
    rw [nextSlots_self, hslot', hbreached] at hslot
    cases hslot
  · exact absurd ((h.raising_applies happlies _ _).2 hraises) hquiet

/-- The alert of a filled slot raises where a fresh one would. -/
theorem SlotsTell.filled_applies (h : SlotsTell svc nodeId t σ₀ σ slots)
    (hfound : Finds nodeId result.ruleKey σ.alerts found)
    (happlies : Applies svc nodeId t result σ σ' found) {key : String}
    (hslot : nextSlots slots result key = .filled) {a : AlertRecord} (ha : a ∈ σ'.alerts.rows)
    (hopen : isOpen nodeId key a = true) : Raising svc nodeId key t σ₀.remediationActions a ↔
      RaisesAnew svc nodeId key t σ₀.remediationActions := by
  obtain hrow | ⟨rfl, hbreached, ⟨-, hnew⟩ | ⟨b, rfl, hquiet, hquiet'⟩⟩ :=
    happlies.open_cases hfound ha hopen
  · have hslot' : slots key = .filled := by
      by_cases hkey : key = result.ruleKey
      · subst hkey
        rw [nextSlots_self] at hslot
        obtain ⟨-, hbefore | hbefore⟩ := Slot.of_next_eq_filled hslot
        · have hzero : openCount nodeId result.ruleKey σ.alerts = 0 := by
            rw [h.count, hbefore]
            rfl
          rw [openCount_eq, List.countP_eq_zero] at hzero
          exact absurd hopen (hzero a hrow)
        · exact hbefore
      · rwa [nextSlots_of_ne hkey] at hslot
    exact h.filled key hslot' a hrow hopen
  · exact hnew _
  · rw [nextSlots_self] at hslot
    obtain ⟨-, hbefore | hbefore⟩ := Slot.of_next_eq_filled hslot
    · cases (h.empty_iff hfound).1 ((Slot.count_eq_zero_iff _).2 hbefore)
    · have hb := h.filled _ hbefore b hfound.1 hfound.2
      rw [h.raising, hb] at hquiet
      rw [h.raising_applies happlies] at hquiet'
      exact iff_of_false hquiet' hquiet

/-- A result, as long as none raises. -/
theorem SlotsTell.applies (h : SlotsTell svc nodeId t σ₀ σ slots)
    (hfound : Finds nodeId result.ruleKey σ.alerts found)
    (happlies : Applies svc nodeId t result σ σ' found) :
    SlotsTell svc nodeId t σ₀ σ' (nextSlots slots result) where
  raising := h.raising_applies happlies
  count key := by
    rw [happlies.openCount_eq hfound]
    by_cases hkey : key = result.ruleKey
    · subst hkey
      rw [if_pos ⟨rfl, rfl⟩, nextSlots_self, Slot.count_next, h.count]
    · rw [if_neg fun h => hkey h.2, nextSlots_of_ne hkey, h.count]
  held _ _ hslot _ ha hopen hraises := h.held_applies hfound happlies hslot ha hopen hraises
  filled _ hslot _ ha hopen := h.filled_applies hfound happlies hslot ha hopen

end Applied

/-- The rows that the database has not found stay as they are. -/
theorem Applies.mem_of_ne (h : Applies svc nodeId t result σ σ' found) {a : AlertRecord}
    (ha : a ∈ σ.alerts.rows) (hne : some a ≠ found) : a ∈ σ'.alerts.rows := by
  cases h with
  | opened hbreached halerts =>
    rw [halerts]
    exact Table.mem_insert.2 (.inl ha)
  | idle hbreached halerts =>
    rw [halerts]
    exact ha
  | resolved b hbreached halerts => exact halerts.mem_of_ne ha fun h => hne (congrArg some h)
  | advanced b b' hbreached halerts => exact halerts.mem_of_ne ha fun h => hne (congrArg some h)

/-- The result is a breach that may come upon an open alert at which it raises. -/
def RaisesAt (svc : AlertEvaluationService) (nodeId : String) (t : Datetime) (σ₀ : Store)
    (slots : String → Slot) (result : RuleEvaluationResult) : Prop :=
  result.breached = true ∧
    ((∃ n, slots result.ruleKey = .held n ∧ OpenRaising svc nodeId result.ruleKey t σ₀) ∨
      slots result.ruleKey = .filled ∧ RaisesAnew svc nodeId result.ruleKey t σ₀.remediationActions)

theorem SlotsTell.interrupts {slots : String → Slot} (h : SlotsTell svc nodeId t σ₀ σ slots)
    (hfound : Finds nodeId result.ruleKey σ.alerts found)
    (hinterrupts : Interrupts svc nodeId t result σ σ' found) :
    RaisesAt svc nodeId t σ₀ slots result := by
  obtain ⟨a, a', hbreached, -, -, hraising⟩ := hinterrupts
  obtain ⟨ha, hopen⟩ := hfound
  rw [h.raising] at hraising
  refine ⟨hbreached, ?_⟩
  cases hslot : slots result.ruleKey with
  | held n => exact .inl ⟨n, rfl, a, h.held _ n hslot a ha hopen hraising, hopen, hraising⟩
  | filled => exact .inr ⟨rfl, (h.filled _ hslot a ha hopen).1 hraising⟩
  | empty =>
    have hzero : openCount nodeId result.ruleKey σ.alerts = 0 := by
      rw [h.count, hslot]
      rfl
    rw [openCount_eq, List.countP_eq_zero] at hzero
    exact absurd hopen (hzero a ha)

/-- If no result raises then none ends the run. -/
theorem SlotsTell.not_interrupted {slots : String → Slot} (h : SlotsTell svc nodeId t σ₀ σ slots)
    (hquiet : Machine.Meets nextSlots (fun slots result => ¬ RaisesAt svc nodeId t σ₀ slots result)
      slots results) : ¬ Evaluates svc nodeId t results σ σ' false := by
  induction results generalizing σ slots with
  | nil => exact nofun
  | cons result results ih =>
    intro hrun
    obtain ⟨hresult, hrest⟩ := hquiet
    cases hrun with
    | applied found hfound happlies hrun => exact ih (h.applies hfound happlies) hrest hrun
    | interrupted found hfound hinterrupts => exact hresult (h.interrupts hfound hinterrupts)

end Runs

end ClusterPulse
