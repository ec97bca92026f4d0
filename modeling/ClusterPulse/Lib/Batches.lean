import ClusterPulse.Lib.Table

/-!
# Deleting rows batch by batch

A batch deletes some of the rows that are due, up to a limit, from whichever end of the table the
database looks first.  However the due rows are divided into batches, deleting batch after batch
until one comes out empty leaves the table that a single filter leaves.
-/

namespace Table

variable {ρ : Type} {key : ρ → ℕ} {t t' : Table ρ key} {due due' : ρ → Bool} {n : ℕ}

/-- `t'` is `t` without `n` rows, all of them due; there are none only if none was due. -/
structure Batch (due : ρ → Bool) (t t' : Table ρ key) (n : ℕ) : Prop where
  next : t'.next = t.next
  rows : ∃ gone : ρ → Bool, t'.rows = t.rows.filter (fun r => !gone r) ∧
    ∀ r ∈ t.rows, gone r = true → due r = true
  length : n + t'.rows.length = t.rows.length
  exhausted : n = 0 → ∀ r ∈ t.rows, due r = false

/-- A deletion of rows with the given keys, as many as there are keys. -/
theorem length_delete_of_keys {keys : List ℕ} (hnodup : keys.Nodup)
    (hkeys : ∀ k ∈ keys, ∃ r ∈ t.rows, key r = k) :
    keys.length + (t.delete fun r => keys.contains (key r)).rows.length = t.rows.length := by
  have hperm : ((t.rows.filter fun r => keys.contains (key r)).map key).Perm keys := by
    refine (List.perm_ext_iff_of_nodup (t.nodup.sublist (List.filter_sublist.map key)) hnodup).2 ?_
    intro k
    simp only [List.mem_map, List.mem_filter, List.contains_iff_mem]
    constructor
    · rintro ⟨r, ⟨-, hr⟩, rfl⟩
      exact hr
    · intro hk
      obtain ⟨r, hr, rfl⟩ := hkeys k hk
      exact ⟨r, ⟨hr, hk⟩, rfl⟩
  have hlength := hperm.length_eq
  rw [List.length_map] at hlength
  rw [rows_delete, ← hlength]
  exact (List.length_eq_length_filter_add fun r => keys.contains (key r)).symm

/-- The keys of the first due rows of a scan, at most `limit` of them, make a batch. -/
theorem batch_delete (due : ρ → Bool) (scan : ℕ → ℕ) {limit : ℕ} (hlimit : 1 ≤ limit)
    (t : Table ρ key) :
    let doomed := (((reorder scan t.rows).filter due).take limit).map key
    Batch due t (t.delete fun r => doomed.contains (key r)) doomed.length := by
  intro doomed
  have hdoomed : ∀ r ∈ ((reorder scan t.rows).filter due).take limit, r ∈ t.rows ∧ due r = true := by
    intro r hr
    have hmem := List.mem_filter.1 (List.mem_of_mem_take hr)
    exact ⟨mem_reorder.1 hmem.1, hmem.2⟩
  refine ⟨rfl, ⟨_, rfl, fun r hr hgone => ?_⟩, ?_, fun hzero r hr => ?_⟩
  · rw [List.contains_iff_mem] at hgone
    obtain ⟨r', hr', hkey⟩ := List.mem_map.1 hgone
    obtain rfl : r' = r := eq_of_key_eq hr (hdoomed r' hr').1 hkey
    exact (hdoomed r' hr').2
  · have hnodup : ((reorder scan t.rows).map key).Nodup :=
      ((reorder_perm scan t.rows).map key).nodup_iff.2 t.nodup
    refine length_delete_of_keys (hnodup.sublist ?_) fun k hk => ?_
    · exact ((List.take_sublist ..).trans List.filter_sublist).map key
    · obtain ⟨r, hr, rfl⟩ := List.mem_map.1 hk
      exact ⟨r, (hdoomed r hr).1, rfl⟩
  · rw [Bool.eq_false_iff]
    intro hdue
    have hmem : r ∈ (reorder scan t.rows).filter due :=
      List.mem_filter.2 ⟨mem_reorder.2 hr, hdue⟩
    have hlength := List.length_pos_of_mem hmem
    rw [List.length_map, List.length_take] at hzero
    omega

/-- A batch of rows that a filter deletes as well is not missed by the filter. -/
theorem Batch.delete_eq (h : Batch due t t' n) (himp : ∀ r ∈ t.rows, due r = true → due' r = true) :
    t'.delete due' = t.delete due' := by
  obtain ⟨gone, hrows, hgone⟩ := h.rows
  refine ext_rows ?_ h.next
  rw [rows_delete, rows_delete, hrows, List.filter_filter]
  refine List.filter_congr fun r hr => ?_
  by_cases hr' : gone r = true
  · simp [himp r hr (hgone r hr hr')]
  · simp [hr']

theorem delete_of_none_due (h : ∀ r ∈ t.rows, due r = false) : t.delete due = t := by
  refine ext_rows ?_ rfl
  rw [rows_delete, List.filter_eq_self]
  intro r hr
  rw [h r hr, Bool.not_false]

/-- The empty batch finds the table that a single filter leaves. -/
theorem Batch.eq_of_zero (h : Batch due t t' 0) : t' = t.delete due := by
  have hnone : ∀ r ∈ t.rows, due r = false := h.exhausted rfl
  obtain ⟨gone, hrows, hgone⟩ := h.rows
  rw [delete_of_none_due hnone]
  refine ext_rows ?_ h.next
  rw [hrows, List.filter_eq_self]
  intro r hr
  rw [Bool.not_eq_true', Bool.eq_false_iff]
  intro hr'
  exact Bool.false_ne_true ((hnone r hr).symm.trans (hgone r hr hr'))

end Table
