import ClusterPulse.Lib.Table

/-!
# What becomes of the rows of a table

`LeadsTo G t t'` says that `t'` comes later than `t`: no key has been given out again, and every row
that is still there has gone from one value to the next by `G`.  `Kept p t t'` says that no row is
gone of which `p` holds.  One rule for each of the ways of writing a table.
-/

namespace Table

variable {ρ : Type} {key : ρ → ℕ} {t t' t'' : Table ρ key}

/-- `t'` comes later than `t`. -/
structure LeadsTo (G : ρ → ρ → Prop) (t t' : Table ρ key) : Prop where
  next_le : t.next ≤ t'.next
  row : ∀ i r', i < t.next → t'.get? i = some r' → ∃ r, t.get? i = some r ∧ G r r'

/-- The rows of which `p` holds are there. -/
def Kept (p : ρ → Prop) (t t' : Table ρ key) : Prop :=
  ∀ i r, t.get? i = some r → p r → (t'.get? i).isSome

section LeadsTo

variable {G : ρ → ρ → Prop}

theorem LeadsTo.refl (hG : ∀ r, G r r) (t : Table ρ key) : LeadsTo G t t :=
  ⟨le_rfl, fun _ r' _ hr' => ⟨r', hr', hG r'⟩⟩

theorem LeadsTo.trans (hG : ∀ r r' r'', G r r' → G r' r'' → G r r'') (h : LeadsTo G t t')
    (h' : LeadsTo G t' t'') : LeadsTo G t t'' := by
  refine ⟨h.next_le.trans h'.next_le, fun i r'' hi hr'' => ?_⟩
  obtain ⟨r', hr', hstep'⟩ := h'.row i r'' (Nat.lt_of_lt_of_le hi h.next_le) hr''
  obtain ⟨r, hr, hstep⟩ := h.row i r' hi hr'
  exact ⟨r, hr, hG r r' r'' hstep hstep'⟩

/-- What `G` passes on holds of a row as long as it is there. -/
theorem LeadsTo.keeps {P : ρ → Prop} (hP : ∀ r r', G r r' → P r → P r') (h : LeadsTo G t t')
    {i : ℕ} (hi : i < t.next) (hr : ∀ r, t.get? i = some r → P r) :
    i < t'.next ∧ ∀ r', t'.get? i = some r' → P r' := by
  refine ⟨Nat.lt_of_lt_of_le hi h.next_le, fun r' hr' => ?_⟩
  obtain ⟨r, hget, hstep⟩ := h.row i r' hi hr'
  exact hP r r' hstep (hr r hget)

theorem leadsTo_insert (hG : ∀ r, G r r) {mk : ℕ → ρ} {hmk : ∀ n, key (mk n) = n} :
    LeadsTo G t (t.insert mk hmk) := by
  refine ⟨Nat.le_succ _, fun i r' hi hr' => ⟨r', ?_, hG r'⟩⟩
  rwa [get?_insert, if_neg hi.ne] at hr'

theorem leadsTo_modify (hG : ∀ r, G r r) {i : ℕ} {f : ρ → ρ} {hf : ∀ r, key (f r) = key r}
    (hi : ∀ r, t.get? i = some r → G r (f r)) : LeadsTo G t (t.modify i f hf) := by
  refine ⟨le_rfl, fun j r' _ hr' => ?_⟩
  by_cases hj : j = i
  · subst hj
    rw [get?_modify_self] at hr'
    obtain ⟨r, hr, rfl⟩ := Option.map_eq_some_iff.1 hr'
    exact ⟨r, hr, hi r hr⟩
  · rw [get?_modify_of_ne hj] at hr'
    exact ⟨r', hr', hG r'⟩

theorem leadsTo_delete (hG : ∀ r, G r r) {p : ρ → Bool} : LeadsTo G t (t.delete p) := by
  refine ⟨le_rfl, fun i r' _ hr' => ⟨r', ?_, hG r'⟩⟩
  rw [get?_delete, Option.filter_eq_some_iff] at hr'
  exact hr'.1

end LeadsTo

section Kept

variable {p : ρ → Prop}

theorem Kept.refl (p : ρ → Prop) (t : Table ρ key) : Kept p t t := by
  intro i r hr _
  rw [hr]
  rfl

theorem kept_insert {mk : ℕ → ρ} {hmk : ∀ n, key (mk n) = n} : Kept p t (t.insert mk hmk) := by
  intro i r hr _
  rw [get?_insert_of_get? hr]
  rfl

theorem kept_modify {i : ℕ} {f : ρ → ρ} {hf : ∀ r, key (f r) = key r} :
    Kept p t (t.modify i f hf) := by
  intro j r hr _
  by_cases hj : j = i
  · subst hj
    rw [get?_modify_self, hr]
    rfl
  · rw [get?_modify_of_ne hj, hr]
    rfl

theorem kept_delete {q : ρ → Bool} (hq : ∀ r ∈ t.rows, q r = true → ¬ p r) :
    Kept p t (t.delete q) := by
  intro i r hr hp
  have hstays : q r = false := by
    by_contra hgone
    exact hq r (mem_of_get? hr) (by simpa using hgone) hp
  rw [get?_delete, hr, Option.filter_some_pos]
  · rfl
  · simp [hstays]

end Kept

/-- The rows of a table written to are the old ones, written or not, and the new one. -/
theorem forall_mem_modify {P : ρ → Prop} {i : ℕ} {f : ρ → ρ} {hf : ∀ r, key (f r) = key r}
    (h : ∀ r ∈ t.rows, P r) (hi : ∀ r, t.get? i = some r → P r → P (f r)) :
    ∀ r ∈ (t.modify i f hf).rows, P r := by
  intro r hr
  obtain ⟨r₀, hr₀, rfl⟩ := mem_modify.1 hr
  split_ifs with hkey
  · apply hi r₀ _ (h r₀ hr₀)
    rw [← hkey]
    exact get?_of_mem hr₀
  · exact h r₀ hr₀

theorem forall_mem_insert {P : ρ → Prop} {mk : ℕ → ρ} {hmk : ∀ n, key (mk n) = n}
    (h : ∀ r ∈ t.rows, P r) (hnew : P (mk t.next)) : ∀ r ∈ (t.insert mk hmk).rows, P r := by
  intro r hr
  rcases mem_insert.1 hr with hr | rfl
  · exact h r hr
  · exact hnew

theorem forall_mem_delete {P : ρ → Prop} {q : ρ → Bool} (h : ∀ r ∈ t.rows, P r) :
    ∀ r ∈ (t.delete q).rows, P r :=
  fun r hr => h r (mem_delete.1 hr).1

end Table
