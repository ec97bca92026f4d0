import Mathlib.Algebra.BigOperators.Group.Finset.Piecewise
import Mathlib.Algebra.Order.BigOperators.Group.Finset
import Mathlib.Algebra.Order.Group.Multiset
import Mathlib.Data.Multiset.UnionInter
import Mathlib.Tactic.Abel

/-!
# What several parties hold of what was issued

Each party `i` holds `g i`, and all of them together no more than what was issued.  A party may only
come to hold more by as much as is issued at the same time; what is issued once is then held by one
party, once.
-/

open Finset

variable {ι M α : Type} [Fintype ι]

/-- The holding of one party changes, and what is issued by no less. -/
theorem sum_update_le [DecidableEq ι] [AddCommMonoid M] [PartialOrder M] [IsOrderedCancelAddMonoid M]
    {g : ι → M} {i : ι} {b issued issued' : M} (h : ∑ j, g j ≤ issued) (hi : b + issued ≤ g i + issued') :
    ∑ j, Function.update g i b j ≤ issued' := by
  rw [sum_update_of_mem (mem_univ i)]
  rw [← add_sum_erase _ _ (mem_univ i), ← sdiff_singleton_eq_erase] at h
  apply le_of_add_le_add_left (a := g i + issued)
  calc g i + issued + (b + ∑ j ∈ univ \ {i}, g j)
      = (b + issued) + (g i + ∑ j ∈ univ \ {i}, g j) := by abel
    _ ≤ g i + issued' + issued := add_le_add hi h
    _ = g i + issued + issued' := by abel

/-- A party holds what was issued. -/
theorem holding_le {g : ι → Multiset α} {issued : Multiset α} (h : ∑ j, g j ≤ issued) (i : ι) :
    g i ≤ issued :=
  (single_le_sum (fun _ _ => Multiset.zero_le _) (mem_univ i)).trans h

/-- Where nothing was issued twice, no two parties hold the same. -/
theorem disjoint_holdings {g : ι → Multiset α} {issued : Multiset α} (h : ∑ j, g j ≤ issued)
    (hissued : issued.Nodup) {i j : ι} (hij : i ≠ j) : Disjoint (g i) (g j) := by
  classical
  have hpair : g i + g j ≤ issued := by
    rw [← sum_pair hij]
    exact (sum_le_univ_sum_of_nonneg fun _ => Multiset.zero_le _).trans h
  exact (Multiset.nodup_add.1 (Multiset.nodup_of_le hpair hissued)).2.2
