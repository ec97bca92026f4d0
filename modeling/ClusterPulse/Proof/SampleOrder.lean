import ClusterPulse.Proof.EvaluationRuns
import ClusterPulse.Proof.Redelivery

/-!
# Alerts and the order of the samples

A payload may carry several samples of one metric type, one for each mount of a disk, say.  They share
the alerts of one rule key, so a sample applied later may undo what an earlier one did; and a breach
that raises keeps the samples behind it from being evaluated.  `sampleOrder_iff`: ingesting a payload
and ingesting any permutation of its samples leave the same keys firing and create the same number of
alerts exactly if the results of each key are settled, and no key that may raise leaves a difference
to another key.
-/

namespace ClusterPulse

open AlertRepository MetricsIngestionService Prog

/-! ## Rule results of one key -/

/-- What the results tell about a rule key, in order. -/
def signals (results : List RuleEvaluationResult) (ruleKey : String) : List Bool :=
  (results.filter fun r => r.ruleKey == ruleKey).map RuleEvaluationResult.breached

section Signals

variable {results results' : List RuleEvaluationResult} {ruleKey : String}

theorem signals_append : signals (results ++ results') ruleKey =
    signals results ruleKey ++ signals results' ruleKey := by
  unfold signals
  rw [List.filter_append, List.map_append]

theorem signals_cons (result : RuleEvaluationResult) : signals (result :: results) ruleKey =
    if result.ruleKey = ruleKey then result.breached :: signals results ruleKey
    else signals results ruleKey := by
  unfold signals
  simp only [List.filter_cons, beq_iff_eq]
  split_ifs <;> rfl

/-- The results for the key, of one kind. -/
def resultsOf (results : List RuleEvaluationResult) (ruleKey : String) (breached : Bool) :
    List RuleEvaluationResult :=
  (results.filter fun r => r.ruleKey == ruleKey).filter fun r => r.breached == breached

/-- The results for other keys. -/
def resultsBut (results : List RuleEvaluationResult) (ruleKey : String) :
    List RuleEvaluationResult :=
  results.filter fun r => !(r.ruleKey == ruleKey)

theorem of_mem_resultsOf {breached : Bool} {r : RuleEvaluationResult}
    (h : r ∈ resultsOf results ruleKey breached) : r.ruleKey = ruleKey ∧ r.breached = breached := by
  simp only [resultsOf, List.mem_filter, beq_iff_eq] at h
  exact ⟨h.1.2, h.2⟩

theorem of_mem_resultsBut {r : RuleEvaluationResult} (h : r ∈ resultsBut results ruleKey) :
    r.ruleKey ≠ ruleKey := by
  simp only [resultsBut, List.mem_filter, Bool.not_eq_true', beq_eq_false_iff_ne] at h
  exact h.2

theorem length_resultsOf (breached : Bool) : (resultsOf results ruleKey breached).length =
    (signals results ruleKey).count breached := by
  unfold resultsOf signals
  rw [List.count_eq_countP, List.countP_map, ← List.countP_eq_length_filter]
  rfl

/-- The breaches of a key, then its other results, then the rest. -/
theorem resultsOf_perm (results : List RuleEvaluationResult) (ruleKey : String) :
    (resultsOf results ruleKey true ++ (resultsOf results ruleKey false ++
      resultsBut results ruleKey)).Perm results := by
  have hown : (resultsOf results ruleKey true ++ resultsOf results ruleKey false).Perm
      (results.filter fun r => r.ruleKey == ruleKey) := by
    have h := List.filter_append_perm (fun r => r.breached == true)
      (results.filter fun r => r.ruleKey == ruleKey)
    have hoff : (fun r : RuleEvaluationResult => !(r.breached == true)) =
        fun r => r.breached == false := by
      funext r
      cases r.breached <;> rfl
    rwa [hoff] at h
  rw [← List.append_assoc]
  exact (hown.append_right _).trans (List.filter_append_perm _ _)

/-- The results, parted into the breaches of a key, its other results, and those of other keys. -/
structure Parted (ruleKey : String) (results bs hs os : List RuleEvaluationResult) : Prop where
  perm : (bs ++ (hs ++ os)).Perm results
  breaches : ∀ r ∈ bs, r.ruleKey = ruleKey ∧ r.breached = true
  healthy : ∀ r ∈ hs, r.ruleKey = ruleKey ∧ r.breached = false
  others : ∀ r ∈ os, r.ruleKey ≠ ruleKey
  count_true : (signals results ruleKey).count true = bs.length
  count_false : (signals results ruleKey).count false = hs.length

theorem exists_parted (ruleKey : String) (results : List RuleEvaluationResult) :
    ∃ bs hs os, Parted ruleKey results bs hs os :=
  ⟨resultsOf results ruleKey true, resultsOf results ruleKey false, resultsBut results ruleKey,
    resultsOf_perm results ruleKey, fun _ => of_mem_resultsOf, fun _ => of_mem_resultsOf,
    fun _ => of_mem_resultsBut, (length_resultsOf true).symm, (length_resultsOf false).symm⟩

theorem signals_perm (h : results'.Perm results) : (signals results' ruleKey).Perm
    (signals results ruleKey) := (h.filter _).map _

end Signals

/-- The same open alerts for each key, and the same number of alerts. -/
structure SameAlerting (u u' : AlertTable) : Prop where
  firing : ∀ nodeId ruleKey, firing nodeId ruleKey u' = firing nodeId ruleKey u
  length : u'.rows.length = u.rows.length

/-- Tables with the same number of rows for each key have the same number of rows. -/
theorem length_eq_of_rowCount {u u' : AlertTable}
    (h : ∀ node key, rowCount node key u' = rowCount node key u) :
    u'.rows.length = u.rows.length := by
  have hcount : ∀ t : AlertTable, ∀ x : String × String,
      (t.rows.map fun a => (a.nodeId, a.ruleKey)).count x = rowCount x.1 x.2 t := by
    rintro t ⟨node, key⟩
    unfold rowCount
    rw [List.count_eq_countP, List.countP_map]
    refine List.countP_congr fun a _ => ?_
    simp [AlertRecord.keyed, Prod.ext_iff]
  have hperm : (u'.rows.map fun a => (a.nodeId, a.ruleKey)).Perm
      (u.rows.map fun a => (a.nodeId, a.ruleKey)) := by
    refine List.perm_iff_count.2 fun x => ?_
    rw [hcount, hcount, h]
  have hlength := hperm.length_eq
  rwa [List.length_map, List.length_map] at hlength

/-! ## What a run leaves -/

section Runs

variable {svc : AlertEvaluationService} {nodeId : String} {t : Datetime} {σ₀ σ σ' : Store}
  {slots : String → Slot} {results pre : List RuleEvaluationResult} {completed : Bool}

/-- What the results `pre` leave, that begin at `σ` with the slots `slots`. -/
structure Leaves (nodeId : String) (slots : String → Slot) (pre : List RuleEvaluationResult)
    (σ σ' : Store) : Prop where
  openCount : ∀ key, openCount nodeId key σ'.alerts = ((slots key).after (signals pre key)).count
  rowCount : ∀ key, rowCount nodeId key σ'.alerts =
    rowCount nodeId key σ.alerts + (slots key).fills (signals pre key)
  elsewhere : ∀ node, node ≠ nodeId → ∀ key,
    ClusterPulse.openCount node key σ'.alerts = ClusterPulse.openCount node key σ.alerts ∧
      ClusterPulse.rowCount node key σ'.alerts = ClusterPulse.rowCount node key σ.alerts

/-- The slots after a result, one key at a time. -/
theorem after_signals_cons (slots : String → Slot) (result : RuleEvaluationResult)
    (results : List RuleEvaluationResult) (key : String) :
    (slots key).after (signals (result :: results) key) =
        (nextSlots slots result key).after (signals results key) ∧
      (slots key).fills (signals (result :: results) key) =
        (if key = result.ruleKey ∧ (slots key).count = 0 ∧ result.breached = true then 1 else 0) +
          (nextSlots slots result key).fills (signals results key) := by
  rw [signals_cons, nextSlots]
  by_cases hkey : key = result.ruleKey
  · subst hkey
    rw [if_pos rfl, Function.update_self, Slot.after_cons, Slot.fills]
    exact ⟨rfl, by simp only [true_and]⟩
  · rw [if_neg (Ne.symm hkey), Function.update_of_ne hkey, if_neg fun h => hkey h.1, Nat.zero_add]
    exact ⟨rfl, rfl⟩

/-- Every run applies some of the results and ends there, or at a result that raises. -/
theorem SlotsTell.leaves (htell : SlotsTell svc nodeId t σ₀ σ slots)
    (hrun : Evaluates svc nodeId t results σ σ' completed) :
    ∃ pre post, results = pre ++ post ∧ Leaves nodeId slots pre σ σ' ∧
      (post = [] ∨ ∃ result rest, post = result :: rest ∧
        RaisesAt svc nodeId t σ₀ (fun key => (slots key).after (signals pre key)) result) := by
  induction results generalizing σ slots with
  | nil =>
    cases hrun
    exact ⟨[], [], rfl, ⟨htell.count, fun _ => rfl, fun _ _ _ => ⟨rfl, rfl⟩⟩, .inl rfl⟩
  | cons result results ih =>
    cases hrun with
    | @applied _ _ _ σ₁ _ _ found hfound happlies hrest =>
      obtain ⟨pre, post, rfl, hleaves, hpost⟩ := ih (htell.applies hfound happlies) hrest
      have hnext := after_signals_cons slots result pre
      refine ⟨result :: pre, post, rfl, ⟨fun key => ?_, fun key => ?_, fun node hnode key => ?_⟩, ?_⟩
      · rw [(hnext key).1]
        exact hleaves.openCount key
      · rw [(hnext key).2, hleaves.rowCount, happlies.rowCount_eq hfound, htell.count, Nat.add_assoc]
        simp only [true_and]
      · obtain ⟨hopen, hrow⟩ := hleaves.elsewhere node hnode key
        rw [hopen, hrow, happlies.openCount_eq hfound, happlies.rowCount_eq hfound,
          if_neg fun h => hnode h.1, if_neg fun h => hnode h.1.1]
        exact ⟨rfl, rfl⟩
      · simp only [(hnext _).1]
        exact hpost
    | interrupted found hfound hinterrupts =>
      obtain ⟨hopen, hrow, -⟩ := hinterrupts.kept
      refine ⟨[], result :: results, rfl, ⟨fun key => ?_, fun key => hrow nodeId key,
        fun node _ key => ⟨hopen node key, hrow node key⟩⟩, .inr ⟨result, results, rfl, ?_⟩⟩
      · rw [hopen nodeId key, htell.count]
        rfl
      · exact htell.interrupts hfound hinterrupts

/-! ## Results in any order -/

/-- A breach of the key may raise, in some order of the results. -/
def MayRaise (svc : AlertEvaluationService) (nodeId : String) (t : Datetime) (σ : Store)
    (results : List RuleEvaluationResult) (ruleKey : String) : Prop :=
  0 < (signals results ruleKey).count true ∧ OpenRaising svc nodeId ruleKey t σ ∨
    openCount nodeId ruleKey σ.alerts = 0 ∧ 2 ≤ (signals results ruleKey).count true ∧
      RaisesAnew svc nodeId ruleKey t σ.remediationActions

/-- The order of the results does not count. -/
structure OrderFree (svc : AlertEvaluationService) (nodeId : String) (t : Datetime) (σ : Store)
    (results : List RuleEvaluationResult) : Prop where
  settled : ∀ key, Slot.Settled (openCount nodeId key σ.alerts) (signals results key)
  unchanged : ∀ key, MayRaise svc nodeId t σ results key → ∀ other, other ≠ key →
    ¬ Slot.Changes (openCount nodeId other σ.alerts) (signals results other)

theorem OrderFree.perm {results' : List RuleEvaluationResult}
    (h : OrderFree svc nodeId t σ results) (hperm : results'.Perm results) :
    OrderFree svc nodeId t σ results' := by
  refine ⟨fun key => (Slot.settled_perm (signals_perm hperm)).2 (h.settled key),
    fun key hraises other hother => ?_⟩
  rw [Slot.changes_perm (signals_perm hperm)]
  refine h.unchanged key ?_ other hother
  unfold MayRaise at *
  rwa [(signals_perm hperm).count_eq] at hraises

/-- What a run leaves of the alerts, from the number of results of each kind. -/
structure Counts (nodeId : String) (results : List RuleEvaluationResult) (u u' : AlertTable) :
    Prop where
  openCount : ∀ key, 0 < openCount nodeId key u' ↔
    0 < Slot.left (ClusterPulse.openCount nodeId key u) (signals results key)
  rowCount : ∀ key, rowCount nodeId key u' = rowCount nodeId key u +
    if ClusterPulse.openCount nodeId key u = 0 ∧ 0 < (signals results key).count true then 1 else 0
  elsewhere : ∀ node, node ≠ nodeId → ∀ key,
    ClusterPulse.openCount node key u' = ClusterPulse.openCount node key u ∧
      ClusterPulse.rowCount node key u' = ClusterPulse.rowCount node key u

/-- A result that ends a run shows that its key may raise. -/
theorem RaisesAt.mayRaise {result : RuleEvaluationResult} {rest : List RuleEvaluationResult}
    (hfree : OrderFree svc nodeId t σ (pre ++ result :: rest))
    (hraises : RaisesAt svc nodeId t σ
      (fun key => (slotsOf nodeId σ.alerts key).after (signals pre key)) result) :
    MayRaise svc nodeId t σ (pre ++ result :: rest) result.ruleKey := by
  obtain ⟨hbreached, hslot⟩ := hraises
  have hcount : (signals (pre ++ result :: rest) result.ruleKey).count true =
      (signals pre result.ruleKey).count true + ((signals rest result.ruleKey).count true + 1) := by
    rw [signals_append, signals_cons, if_pos rfl, hbreached, List.count_append, List.count_cons_self]
  obtain ⟨n, -, hopen⟩ | ⟨hfilled, hanew⟩ := hslot
  · exact .inl ⟨by omega, hopen⟩
  · have hsettled := hfree.settled result.ruleKey
    rw [signals_append] at hsettled
    have hfills := (hsettled.sublist (List.sublist_append_left _ _)).count_after.2
    have hpos := Slot.fills_pos_of_after (Slot.ofCount_ne_filled _) hfilled
    rw [hfills] at hpos
    split_ifs at hpos with hcond
    · exact .inr ⟨hcond.1, by omega, hanew⟩
    · exact absurd hpos (lt_irrefl 0)

/-- Where the order does not count, every run leaves the same. -/
theorem OrderFree.counts (hfree : OrderFree svc nodeId t σ results)
    (hrun : Evaluates svc nodeId t results σ σ' completed) :
    Counts nodeId results σ.alerts σ'.alerts := by
  obtain ⟨pre, post, rfl, hleaves, hpost⟩ := (slotsTell_start svc nodeId t σ).leaves hrun
  suffices hkey : ∀ key,
      (0 < ((slotsOf nodeId σ.alerts key).after (signals pre key)).count ↔
        0 < Slot.left (openCount nodeId key σ.alerts) (signals (pre ++ post) key)) ∧
      (slotsOf nodeId σ.alerts key).fills (signals pre key) =
        if openCount nodeId key σ.alerts = 0 ∧ 0 < (signals (pre ++ post) key).count true then 1
        else 0 by
    refine ⟨fun key => ?_, fun key => ?_, hleaves.elsewhere⟩
    · rw [hleaves.openCount]
      exact (hkey key).1
    · rw [hleaves.rowCount, (hkey key).2]
  intro key
  have hsettled := hfree.settled key
  obtain rfl | ⟨result, rest, rfl, hraises⟩ := hpost
  · rw [List.append_nil] at hsettled ⊢
    obtain ⟨hcount, hfills⟩ := hsettled.count_after
    exact ⟨by rw [slotsOf, hcount], hfills⟩
  · have hmay := hraises.mayRaise hfree
    by_cases hkey : key = result.ruleKey
    · subst hkey
      obtain ⟨hbreached, hslot⟩ := hraises
      rw [signals_append, signals_cons, if_pos rfl, hbreached] at hsettled ⊢
      refine hsettled.of_pos (Nat.pos_of_ne_zero fun hzero => ?_)
      have hempty := (Slot.count_eq_zero_iff _).1 hzero
      obtain ⟨n, hheld, -⟩ | ⟨hfilled, -⟩ := hslot
      · cases hempty.symm.trans hheld
      · cases hempty.symm.trans hfilled
    · have hsame := hfree.unchanged _ hmay key hkey
      rw [signals_append] at hsettled hsame ⊢
      exact hsettled.of_not_changes hsame

/-- Two runs that leave the same counts. -/
theorem Counts.sameAlerting {results' : List RuleEvaluationResult} {u u' u'' : AlertTable}
    (h : Counts nodeId results u u') (h' : Counts nodeId results' u u'')
    (hperm : results'.Perm results) : SameAlerting u' u'' := by
  refine ⟨fun node key => ?_, length_eq_of_rowCount fun node key => ?_⟩
  · rw [firing_eq, firing_eq, decide_eq_decide]
    by_cases hnode : node = nodeId
    · subst hnode
      rw [h'.openCount, h.openCount, Slot.left_perm (signals_perm hperm)]
    · rw [(h'.elsewhere node hnode key).1, (h.elsewhere node hnode key).1]
  · by_cases hnode : node = nodeId
    · subst hnode
      rw [h'.rowCount, h.rowCount, (signals_perm hperm).count_eq]
    · rw [(h'.elsewhere node hnode key).2, (h.elsewhere node hnode key).2]

/-! ## Where the order counts -/

/-- The results that are not breaches resolve alerts, one each. -/
theorem Evaluates.healthy {key : String}
    (hresults : ∀ r ∈ results, r.ruleKey = key ∧ r.breached = false)
    (hrun : Evaluates svc nodeId t results σ σ' completed) : completed = true ∧
      openCount nodeId key σ'.alerts = openCount nodeId key σ.alerts - results.length ∧
      σ'.alerts.rows.length = σ.alerts.rows.length := by
  induction results generalizing σ with
  | nil =>
    cases hrun
    exact ⟨rfl, rfl, rfl⟩
  | cons result results ih =>
    obtain ⟨rfl, hbreached⟩ := hresults result List.mem_cons_self
    cases hrun with
    | applied found hfound happlies hrest =>
      obtain ⟨hcompleted, hcount, hlength⟩ :=
        ih (fun r hr => hresults r (List.mem_cons_of_mem _ hr)) hrest
      have hcount₁ := happlies.openCount_eq hfound nodeId result.ruleKey
      have hlength₁ := happlies.length_eq hfound
      rw [if_pos ⟨rfl, rfl⟩, hbreached, if_neg Bool.false_ne_true] at hcount₁
      rw [hbreached, if_neg fun h => Bool.false_ne_true h.2] at hlength₁
      refine ⟨hcompleted, ?_, by omega⟩
      rw [hcount, hcount₁, List.length_cons]
      omega
    | interrupted found hfound hinterrupts =>
      obtain ⟨_, _, hbreached'⟩ := hinterrupts
      cases hbreached.symm.trans hbreached'

/-- The first breach opens an alert unless there is one, and the others leave it, whether they raise
or not. -/
theorem Evaluates.breaches {key : String} (hne : results ≠ [])
    (hresults : ∀ r ∈ results, r.ruleKey = key ∧ r.breached = true)
    (hrun : Evaluates svc nodeId t results σ σ' completed) :
    openCount nodeId key σ'.alerts = max 1 (openCount nodeId key σ.alerts) ∧
      σ'.alerts.rows.length = σ.alerts.rows.length +
        if openCount nodeId key σ.alerts = 0 then 1 else 0 := by
  induction results generalizing σ with
  | nil => exact absurd rfl hne
  | cons result results ih =>
    obtain ⟨rfl, hbreached⟩ := hresults result List.mem_cons_self
    cases hrun with
    | @applied _ _ _ σ₁ _ _ found hfound happlies hrest =>
      have hcount₁ := happlies.openCount_eq hfound nodeId result.ruleKey
      have hlength₁ := happlies.length_eq hfound
      rw [if_pos ⟨rfl, rfl⟩, hbreached, if_pos rfl] at hcount₁
      simp only [hbreached, and_true] at hlength₁
      by_cases hlast : results = []
      · subst hlast
        cases hrest
        exact ⟨hcount₁, hlength₁⟩
      · obtain ⟨hcount, hlength⟩ :=
          ih hlast (fun r hr => hresults r (List.mem_cons_of_mem _ hr)) hrest
        have hpos : ¬ openCount nodeId result.ruleKey σ₁.alerts = 0 := by omega
        rw [if_neg hpos] at hlength
        omega
    | interrupted found hfound hinterrupts =>
      obtain ⟨hopen, -, hlength⟩ := hinterrupts.kept
      have hempty := hfound.openCount_eq_zero_iff
      have hpos : ¬ openCount nodeId result.ruleKey σ.alerts = 0 := by
        rw [hempty]
        obtain ⟨a, a'⟩ := hinterrupts
        exact nofun
      rw [hopen, hlength, if_neg hpos]
      omega

/-- The results of other keys leave the alerts of a key, and delete none. -/
theorem Evaluates.others {key : String} (hresults : ∀ r ∈ results, r.ruleKey ≠ key)
    (hrun : Evaluates svc nodeId t results σ σ' completed) :
    openCount nodeId key σ'.alerts = openCount nodeId key σ.alerts ∧
      σ.alerts.rows.length ≤ σ'.alerts.rows.length := by
  induction hrun with
  | done σ => exact ⟨rfl, le_rfl⟩
  | @applied result _ _ _ _ _ found hfound happlies hrest ih =>
    obtain ⟨hcount, hlength⟩ := ih fun r hr => hresults r (List.mem_cons_of_mem _ hr)
    have hne : ¬ (nodeId = nodeId ∧ key = result.ruleKey) :=
      fun h => hresults result List.mem_cons_self h.2.symm
    have hlength₁ := happlies.length_eq hfound
    rw [hcount, happlies.openCount_eq hfound, if_neg hne]
    exact ⟨rfl, by omega⟩
  | interrupted found hfound hinterrupts =>
    obtain ⟨hopen, -, hlength⟩ := hinterrupts.kept
    exact ⟨hopen nodeId key, hlength.ge⟩

/-- A result that finds no alert does not raise. -/
theorem Evaluates.of_openCount_eq_zero {result : RuleEvaluationResult}
    (hzero : openCount nodeId result.ruleKey σ.alerts = 0)
    (hrun : Evaluates svc nodeId t (result :: results) σ σ' completed) :
    ∃ σ₁, Evaluates svc nodeId t [result] σ σ₁ true ∧
      Evaluates svc nodeId t results σ₁ σ' completed := by
  cases hrun with
  | @applied _ _ _ σ₁ _ _ found hfound happlies hrest =>
    exact ⟨σ₁, .applied found hfound happlies (.done σ₁), hrest⟩
  | interrupted found hfound hinterrupts =>
    have hnone := hfound.openCount_eq_zero_iff.1 hzero
    obtain ⟨a, a'⟩ := hinterrupts
    cases hnone

/-- Breaches, and then results of other keys. -/
theorem Evaluates.breaches_append {key : String} {bs os : List RuleEvaluationResult} (hne : bs ≠ [])
    (hbs : ∀ r ∈ bs, r.ruleKey = key ∧ r.breached = true) (hos : ∀ r ∈ os, r.ruleKey ≠ key)
    (hrun : Evaluates svc nodeId t (bs ++ os) σ σ' completed) :
    openCount nodeId key σ'.alerts = max 1 (openCount nodeId key σ.alerts) ∧
      σ.alerts.rows.length + (if openCount nodeId key σ.alerts = 0 then 1 else 0) ≤
        σ'.alerts.rows.length := by
  obtain ⟨σ₁, hfirst, hrest⟩ | ⟨-, hfirst⟩ := evaluates_append_iff.1 hrun
  · obtain ⟨hcount, hlength⟩ := hfirst.breaches hne hbs
    obtain ⟨hcount', hlength'⟩ := hrest.others hos
    exact ⟨hcount'.trans hcount, by omega⟩
  · obtain ⟨hcount, hlength⟩ := hfirst.breaches hne hbs
    exact ⟨hcount, hlength.ge⟩

/-- Results that are not breaches come to their end. -/
theorem Evaluates.healthy_append {key : String} {hs os : List RuleEvaluationResult}
    (hhs : ∀ r ∈ hs, r.ruleKey = key ∧ r.breached = false)
    (hrun : Evaluates svc nodeId t (hs ++ os) σ σ' completed) :
    ∃ σ₁, openCount nodeId key σ₁.alerts = openCount nodeId key σ.alerts - hs.length ∧
      σ₁.alerts.rows.length = σ.alerts.rows.length ∧ Evaluates svc nodeId t os σ₁ σ' completed := by
  obtain ⟨σ₁, hfirst, hrest⟩ | ⟨-, hfirst⟩ := evaluates_append_iff.1 hrun
  · obtain ⟨-, hcount, hlength⟩ := hfirst.healthy hhs
    exact ⟨σ₁, hcount, hlength, hrest⟩
  · obtain ⟨hcompleted, -⟩ := hfirst.healthy hhs
    cases hcompleted

/-- The second breach of a key may raise at the alert that the first one opens. -/
theorem Evaluates.stops {result result' : RuleEvaluationResult} {other : String}
    (hbreached : result.breached = true) (hkey : result'.ruleKey = result.ruleKey)
    (hbreached' : result'.breached = true) (hzero : openCount nodeId result.ruleKey σ.alerts = 0)
    (hanew : RaisesAnew svc nodeId result.ruleKey t σ.remediationActions)
    (hother : other ≠ result.ruleKey)
    (hrun : Evaluates svc nodeId t (result :: result' :: results) σ σ' completed) :
    openCount nodeId other σ'.alerts = openCount nodeId other σ.alerts := by
  cases hrun with
  | @applied _ _ _ σ₁ _ _ found hfound happlies hrest =>
    have hcount := happlies.openCount_eq hfound nodeId other
    rw [if_neg fun h => hother h.2] at hcount
    have htell := (slotsTell_start svc nodeId t σ).applies hfound happlies
    have hfilled : nextSlots (slotsOf nodeId σ.alerts) result result'.ruleKey = .filled := by
      rw [hkey, nextSlots_self, slotsOf, hzero, hbreached]
      rfl
    cases hrest with
    | applied found' hfound' happlies' hrest' =>
      exfalso
      have hopen : openCount nodeId result'.ruleKey σ₁.alerts = 1 := by
        rw [htell.count, hfilled]
        rfl
      have hempty := hfound'.openCount_eq_zero_iff
      cases happlies' with
      | opened => cases hempty.2 rfl ▸ hopen
      | idle hhealthy => cases hbreached'.symm.trans hhealthy
      | resolved a hhealthy => cases hbreached'.symm.trans hhealthy
      | advanced a a' _ _ _ hquiet =>
        rw [htell.raising] at hquiet
        rw [← hkey] at hanew
        exact hquiet ((htell.filled _ hfilled a hfound'.1 hfound'.2).2 hanew)
    | interrupted found' hfound' hinterrupts =>
      rw [hinterrupts.kept.1, hcount]
  | interrupted found hfound hinterrupts => exact hinterrupts.kept.1 nodeId other

/-- The tables that the runs of the results leave, in all orders. -/
structure Finals (svc : AlertEvaluationService) (nodeId : String) (t : Datetime) (σ : Store)
    (results : List RuleEvaluationResult) (finals : Set AlertTable) : Prop where
  order : ∀ results', results'.Perm results → ∃ σ₁ σ' completed, σ₁.alerts = σ.alerts ∧
    σ₁.remediationActions = σ.remediationActions ∧
      Evaluates svc nodeId t results' σ₁ σ' completed ∧ σ'.alerts ∈ finals
  raises : ∀ result rest, (result :: rest).Perm results → result.breached = true →
    OpenRaising svc nodeId result.ruleKey t σ → ∃ u ∈ finals, ∀ key,
      openCount nodeId key u = openCount nodeId key σ.alerts
  same : ∀ u ∈ finals, ∀ u' ∈ finals, SameAlerting u u'

section Finals

variable {finals : Set AlertTable} {key : String} {bs hs os : List RuleEvaluationResult}

/-- The breaches last: an alert is opened after the others are resolved. -/
theorem Finals.breaches_last (h : Finals svc nodeId t σ results finals)
    (hparted : Parted key results bs hs os) (hne : bs ≠ [])
    (hle : openCount nodeId key σ.alerts ≤ hs.length) :
    ∃ u ∈ finals, openCount nodeId key u = 1 ∧ σ.alerts.rows.length + 1 ≤ u.rows.length := by
  have hperm : (hs ++ (bs ++ os)).Perm results :=
    (List.perm_append_comm_assoc hs bs os).trans hparted.perm
  obtain ⟨σ₁, σ', _, halerts, -, hrun, hfinal⟩ := h.order _ hperm
  obtain ⟨σ₂, hcount, hlength, hrest⟩ := hrun.healthy_append hparted.healthy
  obtain ⟨hopen, hrows⟩ := hrest.breaches_append hne hparted.breaches hparted.others
  rw [halerts] at hcount hlength
  have hempty : openCount nodeId key σ₂.alerts = 0 := by omega
  rw [hempty] at hopen
  rw [if_pos hempty, hlength] at hrows
  exact ⟨_, hfinal, hopen, hrows⟩

/-- The breaches first: the alerts are resolved, unless a breach raises, and not the one that opens
the only alert. -/
theorem Finals.breaches_first (h : Finals svc nodeId t σ results finals)
    (hparted : Parted key results bs hs os) (hne : bs ≠ []) (hpos : 0 < hs.length)
    (hle : openCount nodeId key σ.alerts ≤ hs.length) :
    ∃ u ∈ finals, openCount nodeId key u = 0 ∨
      (u.rows.length = σ.alerts.rows.length +
        if openCount nodeId key σ.alerts = 0 then 1 else 0) ∧
      (openCount nodeId key σ.alerts = 0 → 2 ≤ bs.length) := by
  obtain ⟨σ₁, σ', _, halerts, -, hrun, hfinal⟩ := h.order _ hparted.perm
  refine ⟨_, hfinal, ?_⟩
  rw [← halerts] at hle ⊢
  obtain ⟨σ₂, hfirst, hrest⟩ | ⟨rfl, hfirst⟩ := evaluates_append_iff.1 hrun
  · obtain ⟨hopen, -⟩ := hfirst.breaches hne hparted.breaches
    obtain ⟨σ₃, hcount, -, hlast⟩ := hrest.healthy_append hparted.healthy
    have hend := (hlast.others hparted.others).1
    exact .inl (by omega)
  · obtain ⟨-, hlength⟩ := hfirst.breaches hne hparted.breaches
    refine .inr ⟨hlength, fun hzero => ?_⟩
    obtain ⟨b, bs, rfl⟩ := List.exists_cons_of_ne_nil hne
    obtain ⟨hkey, -⟩ := hparted.breaches b List.mem_cons_self
    by_contra hlt
    obtain rfl : bs = [] := List.eq_nil_of_length_eq_zero (by rw [List.length_cons] at hlt; omega)
    obtain ⟨σ₂, -, hend⟩ := hfirst.of_openCount_eq_zero (by rwa [hkey])
    cases hend

/-- The other results between the first breach and the next ones: two alerts are opened. -/
theorem Finals.breaches_around {b : RuleEvaluationResult} (h : Finals svc nodeId t σ results finals)
    (hparted : Parted key results (b :: bs) hs os) (hne : bs ≠ []) (hpos : 0 < hs.length)
    (hzero : openCount nodeId key σ.alerts = 0) :
    ∃ u ∈ finals, σ.alerts.rows.length + 2 ≤ u.rows.length := by
  have hperm : (b :: (hs ++ (bs ++ os))).Perm results :=
    ((List.perm_append_comm_assoc hs bs os).cons b).trans hparted.perm
  obtain ⟨σ₁, σ', _, halerts, -, hrun, hfinal⟩ := h.order _ hperm
  rw [← halerts] at hzero ⊢
  obtain ⟨hkey, hbreached⟩ := hparted.breaches b List.mem_cons_self
  obtain ⟨σ₂, hfirst, hrest⟩ := hrun.of_openCount_eq_zero (by rwa [hkey])
  have hbreach : ∀ r ∈ [b], r.ruleKey = key ∧ r.breached = true := fun r hr =>
    hparted.breaches r (List.mem_cons.2 (.inl (List.mem_singleton.1 hr)))
  obtain ⟨hopen, hrows⟩ := hfirst.breaches (List.cons_ne_nil b []) hbreach
  obtain ⟨σ₃, hcount, hlength, hlast⟩ := hrest.healthy_append hparted.healthy
  obtain ⟨-, hend⟩ := hlast.breaches_append hne
    (fun r hr => hparted.breaches r (List.mem_cons_of_mem b hr)) hparted.others
  have hempty : openCount nodeId key σ₃.alerts = 0 := by omega
  rw [if_pos hempty] at hend
  rw [if_pos hzero] at hrows
  exact ⟨_, hfinal, by omega⟩

theorem Finals.settled (h : Finals svc nodeId t σ results finals) (key : String) :
    Slot.Settled (openCount nodeId key σ.alerts) (signals results key) := by
  by_contra hunsettled
  obtain ⟨bs, hs, os, hparted⟩ := exists_parted key results
  unfold Slot.Settled at hunsettled
  rw [hparted.count_true, hparted.count_false] at hunsettled
  have hne : bs ≠ [] := List.ne_nil_of_length_pos (by omega)
  obtain ⟨u₁, hu₁, hopen₁, hlength₁⟩ := h.breaches_last hparted hne (by omega)
  obtain ⟨u₂, hu₂, hopen₂ | ⟨hlength₂, htwo⟩⟩ :=
    h.breaches_first hparted hne (by omega) (by omega)
  · have hfiring := (h.same u₁ hu₁ u₂ hu₂).firing nodeId key
    rw [firing_eq, firing_eq, hopen₁, hopen₂, decide_eq_decide] at hfiring
    omega
  · -- a breach raises: as many alerts are opened as with the breaches last, which is one
    have hsame₂ := (h.same u₁ hu₁ u₂ hu₂).length
    have hzero : openCount nodeId key σ.alerts = 0 := by
      by_contra hpos
      rw [if_neg hpos] at hlength₂
      omega
    have hlong := htwo hzero
    obtain ⟨b, bs, rfl⟩ := List.exists_cons_of_ne_nil hne
    rw [List.length_cons] at hlong
    have hmore : bs ≠ [] := List.ne_nil_of_length_pos (by omega)
    obtain ⟨u₃, hu₃, hlength₃⟩ := h.breaches_around hparted hmore (by omega) hzero
    have hsame₃ := (h.same u₂ hu₂ u₃ hu₃).length
    rw [if_pos hzero] at hlength₂
    omega

/-- A key that may raise can keep the results of another one from being applied. -/
theorem Finals.exists_kept (h : Finals svc nodeId t σ results finals) {other : String}
    (hmay : MayRaise svc nodeId t σ results key) (hother : other ≠ key) :
    ∃ u ∈ finals, openCount nodeId other u = openCount nodeId other σ.alerts := by
  obtain ⟨bs, hs, os, hparted⟩ := exists_parted key results
  unfold MayRaise at hmay
  rw [hparted.count_true] at hmay
  obtain ⟨hpos, hraising⟩ | ⟨hzero, htwo, hanew⟩ := hmay
  · obtain ⟨b, bs, rfl⟩ := List.exists_cons_of_length_pos hpos
    obtain ⟨rfl, hbreached⟩ := hparted.breaches b List.mem_cons_self
    obtain ⟨u, hu, hkept⟩ := h.raises b _ hparted.perm hbreached hraising
    exact ⟨u, hu, hkept other⟩
  · obtain ⟨b, bs, rfl⟩ := List.exists_cons_of_length_pos (l := bs) (by omega)
    obtain ⟨b', bs, rfl⟩ := List.exists_cons_of_length_pos (l := bs) (Nat.lt_of_succ_lt_succ htwo)
    obtain ⟨rfl, hbreached⟩ := hparted.breaches b List.mem_cons_self
    obtain ⟨hkey, hbreached'⟩ :=
      hparted.breaches b' (List.mem_cons_of_mem b List.mem_cons_self)
    obtain ⟨σ₁, σ', _, halerts, hactions, hrun, hfinal⟩ := h.order _ hparted.perm
    rw [← halerts] at hzero
    rw [← hactions] at hanew
    refine ⟨σ'.alerts, hfinal, ?_⟩
    rw [← halerts]
    exact hrun.stops hbreached hkey hbreached' hzero hanew hother

/-- Applied first, the results of a key change whether it is firing. -/
theorem Finals.exists_changed (h : Finals svc nodeId t σ results finals)
    (hchanges : Slot.Changes (openCount nodeId key σ.alerts) (signals results key)) :
    ∃ u ∈ finals, 0 < openCount nodeId key u ↔ openCount nodeId key σ.alerts = 0 := by
  have hsettled := h.settled key
  obtain ⟨bs, hs, os, hparted⟩ := exists_parted key results
  unfold Slot.Settled at hsettled
  unfold Slot.Changes at hchanges
  rw [hparted.count_true, hparted.count_false] at hsettled hchanges
  obtain ⟨σ₁, σ', _, halerts, -, hrun, hfinal⟩ := h.order _ hparted.perm
  refine ⟨σ'.alerts, hfinal, ?_⟩
  rw [← halerts] at hsettled hchanges ⊢
  obtain ⟨hzero, hpos⟩ | ⟨hpos, hle⟩ := hchanges
  · obtain rfl : hs = [] := List.eq_nil_of_length_eq_zero (by omega)
    have hopen := (hrun.breaches_append (List.ne_nil_of_length_pos hpos) hparted.breaches
      hparted.others).1
    omega
  · obtain rfl : bs = [] := List.eq_nil_of_length_eq_zero (by omega)
    obtain ⟨σ₂, hcount, -, hrest⟩ := hrun.healthy_append hparted.healthy
    have hopen := (hrest.others hparted.others).1
    omega

end Finals

theorem Finals.orderFree {finals : Set AlertTable} (h : Finals svc nodeId t σ results finals) :
    OrderFree svc nodeId t σ results := by
  refine ⟨h.settled, fun key hmay other hother hchanges => ?_⟩
  obtain ⟨u, hu, hkept⟩ := h.exists_kept hmay hother
  obtain ⟨u', hu', hchanged⟩ := h.exists_changed hchanges
  have hfiring := (h.same u hu u' hu').firing nodeId other
  rw [firing_eq, firing_eq, decide_eq_decide, hkept] at hfiring
  omega

end Runs

/-! ## Payloads -/

section Payloads

variable {env : Environment} {svc : AlertEvaluationService} {payload : NodeMetricsPayload}
  {receivedAt : Instant} {w : World}

/-- Any order of the results is that of some order of the samples. -/
theorem exists_perm_thresholdResults (e : RuleEngine) {samples : List MetricSample}
    {results : List RuleEvaluationResult} (h : results.Perm (samples.flatMap e.thresholdResults)) :
    ∃ samples' : List MetricSample, samples'.Perm samples ∧
      samples'.flatMap e.thresholdResults = results := by
  induction results generalizing samples with
  | nil => exact ⟨samples, .refl _, (List.nil_perm.1 h).symm ▸ rfl⟩
  | cons result results ih =>
    obtain ⟨sample, hsample, hresult⟩ := List.mem_flatMap.1 (h.mem_iff.1 List.mem_cons_self)
    obtain ⟨before, behind, rfl⟩ := List.append_of_mem hsample
    have hone : e.thresholdResults sample = [result] := by
      unfold RuleEngine.thresholdResults at hresult ⊢
      rw [Option.mem_def.1 (Option.mem_toList.1 hresult)]
      rfl
    have hfront : (before ++ sample :: behind).Perm (sample :: (before ++ behind)) :=
      List.perm_middle
    have hrest : results.Perm ((before ++ behind).flatMap e.thresholdResults) := by
      have h' := h.trans (hfront.flatMap_right e.thresholdResults)
      rw [List.flatMap_cons, hone] at h'
      exact List.Perm.cons_inv h'
    obtain ⟨samples', hperm, hresults⟩ := ih hrest
    refine ⟨sample :: samples', (hperm.cons sample).trans hfront.symm, ?_⟩
    rw [List.flatMap_cons, hone, hresults]
    rfl

/-- The alerts after the ingestion of a payload. -/
def alertsAfter (env : Environment) (svc : AlertEvaluationService) (payload : NodeMetricsPayload)
    (receivedAt : Instant) (w : World) : AlertTable :=
  ((ingest svc payload receivedAt).run (handle env) w).2.store.alerts

/-- With threshold rules only, an ingestion applies the results of the samples. -/
theorem alertsAfter_eq (henv : env.Faultless)
    (hrate : svc.ruleEngine.rulesConfig.rateOfChangeRules = []) (payload : NodeMetricsPayload)
    (receivedAt : Instant) (w : World) :
    ∃ w₁ : World, w₁.store.alerts = w.store.alerts ∧
      w₁.store.remediationActions = w.store.remediationActions ∧
      alertsAfter env svc payload receivedAt w = ((svc.applyAll payload.nodeId payload.collectedAt
        (payload.samples.flatMap svc.ruleEngine.thresholdResults)).run (handle env) w₁).2.store.alerts := by
  obtain ⟨-, halerts, hactions, -⟩ := persist_writes henv payload receivedAt w
  refine ⟨_, halerts, hactions, ?_⟩
  unfold alertsAfter
  rw [run_ingest henv]
  unfold AlertEvaluationService.evaluateAndApply
  rw [RuleEngine.evaluate_of_thresholds hrate]
  rfl

theorem evaluates_alertsAfter (henv : env.Faultless)
    (hrate : svc.ruleEngine.rulesConfig.rateOfChangeRules = []) (payload : NodeMetricsPayload)
    (receivedAt : Instant) (w : World) :
    ∃ σ σ' completed, σ.alerts = w.store.alerts ∧
      σ.remediationActions = w.store.remediationActions ∧
      Evaluates svc payload.nodeId payload.collectedAt
        (payload.samples.flatMap svc.ruleEngine.thresholdResults) σ σ' completed ∧
      σ'.alerts = alertsAfter env svc payload receivedAt w := by
  obtain ⟨w₁, halerts, hactions, heq⟩ := alertsAfter_eq henv hrate payload receivedAt w
  have hrun : Runs (handle env) (fun _ _ => True) (svc.applyAll payload.nodeId payload.collectedAt
      (payload.samples.flatMap svc.ruleEngine.thresholdResults)) w₁ fun _ w' => ∃ completed,
        Evaluates svc payload.nodeId payload.collectedAt
          (payload.samples.flatMap svc.ruleEngine.thresholdResults) w₁.store w'.store completed := by
    refine (runs_applyAll henv ⟨[], []⟩ w₁).post ?_
    rintro (e | outcome) w' hevaluates
    · exact ⟨false, hevaluates⟩
    · exact ⟨true, hevaluates⟩
  obtain ⟨completed, hevaluates⟩ := hrun.run
  exact ⟨_, _, completed, halerts, hactions, hevaluates, heq.symm⟩

/-- A loop whose first result raises does nothing else. -/
theorem runs_applyAll_stops {nodeId : String} {t : Datetime} {result : RuleEvaluationResult}
    {results : List RuleEvaluationResult} {a : AlertRecord} (henv : env.Faultless)
    (hbreached : result.breached = true)
    (hfound : findOpenAlert (env.scan w.calls) w.store nodeId result.ruleKey = some a)
    (hraising : Raising svc nodeId result.ruleKey t w.store.remediationActions a) :
    Runs (handle env) (fun _ _ => True) (svc.applyAll nodeId t (result :: results)) w fun _ w' =>
      ∀ node key, openCount node key w'.store.alerts = openCount node key w.store.alerts := by
  unfold AlertEvaluationService.applyAll
  rw [List.foldlM_cons]
  refine (runs_applyNext_raising _ _ _ henv ⟨[], []⟩ result w).bind (fun _ w' happlies => ?_)
    fun _ w' hinterrupts => hinterrupts.kept.1
  rw [hfound] at happlies
  cases happlies with
  | resolved _ hhealthy => cases hbreached.symm.trans hhealthy
  | advanced _ _ _ _ _ hquiet => exact absurd hraising hquiet

/-- The tables that the ingestion of a payload can leave, its samples in any order. -/
def finalAlerts (svc : AlertEvaluationService) (payload : NodeMetricsPayload) (receivedAt : Instant)
    (w : World) : Set AlertTable :=
  {u | ∃ samples env, samples.Perm payload.samples ∧ env.Faultless ∧
    u = alertsAfter env svc { payload with samples } receivedAt w}

theorem finals_finalAlerts (hrate : svc.ruleEngine.rulesConfig.rateOfChangeRules = [])
    (hsame : ∀ samples : List MetricSample, samples.Perm payload.samples → ∀ env env',
      env.Faultless → env'.Faultless → SameAlerting (alertsAfter env svc payload receivedAt w)
        (alertsAfter env' svc { payload with samples } receivedAt w)) :
    Finals svc payload.nodeId payload.collectedAt w.store
      (payload.samples.flatMap svc.ruleEngine.thresholdResults)
      (finalAlerts svc payload receivedAt w) where
  order := by
    intro results hperm
    obtain ⟨samples, hsamples, rfl⟩ := exists_perm_thresholdResults svc.ruleEngine hperm
    obtain ⟨σ, σ', completed, halerts, hactions, hrun, hfinal⟩ :=
      evaluates_alertsAfter Environment.calm_faultless hrate { payload with samples } receivedAt w
    exact ⟨σ, σ', completed, halerts, hactions, hrun, samples, .calm, hsamples,
      Environment.calm_faultless, hfinal⟩
  raises := by
    rintro result rest hperm hbreached ⟨a, ha, hopen, hraising⟩
    obtain ⟨samples, hsamples, hresults⟩ := exists_perm_thresholdResults svc.ruleEngine hperm
    obtain ⟨scan, hfound⟩ := exists_scan_finds ha hopen
    let env : Environment := ⟨fun _ _ => none, fun _ => scan⟩
    have henv : env.Faultless := fun _ _ => rfl
    obtain ⟨w₁, halerts, hactions, heq⟩ := alertsAfter_eq henv hrate
      { payload with samples } receivedAt w
    refine ⟨_, ⟨samples, env, hsamples, henv, rfl⟩, fun key => ?_⟩
    rw [heq, hresults, ← halerts]
    refine (runs_applyAll_stops henv hbreached ?_ (hactions ▸ hraising)).run _ _
    show (reorder scan w₁.store.alerts.rows).find? _ = some a
    rw [halerts]
    exact hfound
  same := by
    rintro _ ⟨samples, env, hsamples, henv, rfl⟩ _ ⟨samples', env', hsamples', henv', rfl⟩
    have h := hsame samples hsamples .calm env Environment.calm_faultless henv
    have h' := hsame samples' hsamples' .calm env' Environment.calm_faultless henv'
    refine ⟨fun nodeId ruleKey => ?_, h'.length.trans h.length.symm⟩
    rw [h.firing, h'.firing]

/-- Only the alerts and the audit log count. -/
theorem OrderFree.congr {nodeId : String} {t : Datetime} {σ σ' : Store}
    {results : List RuleEvaluationResult} (halerts : σ'.alerts = σ.alerts)
    (hactions : σ'.remediationActions = σ.remediationActions)
    (h : OrderFree svc nodeId t σ results) : OrderFree svc nodeId t σ' results := by
  refine ⟨fun key => ?_, fun key hmay other hother => ?_⟩
  · rw [halerts]
    exact h.settled key
  · rw [halerts]
    refine h.unchanged key ?_ other hother
    unfold MayRaise OpenRaising at *
    rwa [halerts, hactions] at hmay

/-- At a timely `collected_at` nothing raises. -/
theorem Timely.orderFree_iff {nodeId : String} {t : Datetime} (ht : Timely t) {σ : Store}
    {results : List RuleEvaluationResult} : OrderFree svc nodeId t σ results ↔
      ∀ key, Slot.Settled (openCount nodeId key σ.alerts) (signals results key) := by
  refine ⟨OrderFree.settled, fun hsettled => ⟨hsettled, fun key hmay => ?_⟩⟩
  exfalso
  obtain ⟨-, a, -, -, hraising⟩ | ⟨-, -, hanew⟩ := hmay
  · exact ht.not_raising hraising
  · exact ht.not_raisesAnew hanew

/-- The order of the samples of a payload does not count exactly if the results of each key are
settled and no key that may raise keeps another one from changing. -/
theorem sampleOrder_iff (hrate : svc.ruleEngine.rulesConfig.rateOfChangeRules = [])
    (payload : NodeMetricsPayload) (receivedAt : Instant) (w : World) :
    (∀ samples : List MetricSample, samples.Perm payload.samples → ∀ env env',
      env.Faultless → env'.Faultless → SameAlerting (alertsAfter env svc payload receivedAt w)
        (alertsAfter env' svc { payload with samples } receivedAt w)) ↔
    OrderFree svc payload.nodeId payload.collectedAt w.store
      (payload.samples.flatMap svc.ruleEngine.thresholdResults) := by
  constructor
  · exact fun hsame => (finals_finalAlerts hrate hsame).orderFree
  · intro hfree samples hperm env env' henv henv'
    obtain ⟨σ₁, σ₁', _, halerts₁, hactions₁, hrun₁, hfinal₁⟩ :=
      evaluates_alertsAfter henv hrate payload receivedAt w
    obtain ⟨σ₂, σ₂', _, halerts₂, hactions₂, hrun₂, hfinal₂⟩ :=
      evaluates_alertsAfter henv' hrate { payload with samples } receivedAt w
    have hresults := hperm.flatMap_right svc.ruleEngine.thresholdResults
    have hcounts₁ := (hfree.congr halerts₁ hactions₁).counts hrun₁
    have hcounts₂ := ((hfree.perm hresults).congr halerts₂ hactions₂).counts hrun₂
    rw [halerts₁] at hcounts₁
    rw [halerts₂] at hcounts₂
    rw [← hfinal₁, ← hfinal₂]
    exact hcounts₁.sameAlerting hcounts₂ hresults

/-- At a timely `collected_at`, the order of the samples does not count exactly if for each key no result
is a breach, or all are, or more alerts of it are open than there are results that are none. -/
theorem timelySampleOrder_iff (hrate : svc.ruleEngine.rulesConfig.rateOfChangeRules = [])
    (payload : NodeMetricsPayload) (ht : Timely payload.collectedAt) (receivedAt : Instant)
    (w : World) :
    (∀ samples : List MetricSample, samples.Perm payload.samples → ∀ env env',
      env.Faultless → env'.Faultless → SameAlerting (alertsAfter env svc payload receivedAt w)
        (alertsAfter env' svc { payload with samples } receivedAt w)) ↔
    ∀ key, Slot.Settled (openCount payload.nodeId key w.store.alerts)
      (signals (payload.samples.flatMap svc.ruleEngine.thresholdResults) key) := by
  rw [sampleOrder_iff hrate]
  exact ht.orderFree_iff

end Payloads

namespace Scenario

/-- One rule, for a full disk. -/
def diskService : AlertEvaluationService :=
  { service with
    ruleEngine := ⟨{
      thresholdRules := [⟨.diskUsagePercent, .greaterThan, 90, .critical, "disk"⟩]
      rateOfChangeRules := []
      thresholdRules_unique := List.nodup_singleton _
      rateOfChangeRules_unique := List.nodup_nil }⟩ }

/-- One of two mounts is full. -/
def mountsPayload : NodeMetricsPayload :=
  { payload 0 0 with samples :=
      [⟨.diskUsagePercent, 95, "percent", [("mount", "/")]⟩,
        ⟨.diskUsagePercent, 10, "percent", [("mount", "/data")]⟩] }

theorem timelySampleOrder_iff_mounts :
    (∀ samples : List MetricSample, samples.Perm mountsPayload.samples → ∀ env env',
      env.Faultless → env'.Faultless → SameAlerting
        (alertsAfter env diskService mountsPayload (clock 1).instant .fresh)
        (alertsAfter env' diskService { mountsPayload with samples } (clock 1).instant .fresh)) ↔
    ∀ key, Slot.Settled (openCount "node-1" key Store.empty.alerts)
      (signals (mountsPayload.samples.flatMap diskService.ruleEngine.thresholdResults) key) :=
  timelySampleOrder_iff rfl mountsPayload (clockReading_clock 0).timely (clock 1).instant .fresh

/-- The sample of the other mount resolves the alert, unless it comes first. -/
theorem not_sampleOrder : ¬ ∀ (svc : AlertEvaluationService) (env : Environment)
    (payload : NodeMetricsPayload) (samples : List MetricSample) (receivedAt : Instant)
    (ops : List Operation), env.Faultless → svc.ruleEngine.rulesConfig.rateOfChangeRules = [] →
      samples.Perm payload.samples → SameAlerting
        (alertsAfter env svc payload receivedAt (Operation.runAll env ops .fresh))
        (alertsAfter env svc { payload with samples } receivedAt
          (Operation.runAll env ops .fresh)) := by
  intro h
  have hsame := h diskService .calm mountsPayload mountsPayload.samples.reverse (clock 1).instant []
    Environment.calm_faultless rfl (List.reverse_perm _)
  exact absurd (hsame.firing "node-1" "threshold:disk.usage_percent") (by decide +kernel)

end Scenario

end ClusterPulse
