import Mathlib.Algebra.Order.Group.Defs
import Mathlib.Algebra.Order.Sub.Defs
import Mathlib.Data.List.Count
import Mathlib.Tactic.Abel

/-!
# Limits over sliding windows

A log of timestamped entries, not necessarily in time order.  `Capped` bounds the number of counted
entries in every closed window of a given width, wherever it lies.  A one-sided check is enough to
keep it: count the entries from one width before the new entry on, with no upper end.
-/

variable {α T : Type} [AddCommGroup T] [LinearOrder T]

/-- Every closed window of width `width` has at most `cap` entries that satisfy `p`. -/
def Capped (time : α → T) (p : α → Bool) (width : T) (cap : ℕ) (L : List α) : Prop :=
  ∀ s, L.countP (fun a => p a && decide (s ≤ time a) && decide (time a ≤ s + width)) ≤ cap

variable {time : α → T} {p q : α → Bool} {width : T} {cap : ℕ} {L : List α} {x : α}

theorem capped_nil : Capped time p width cap [] := fun _ => Nat.zero_le _

/-- An entry that is not counted does not matter. -/
theorem Capped.concat_of_not (h : Capped time p width cap L) (hx : p x = false) :
    Capped time p width cap (L ++ [x]) := by
  intro s
  rw [List.countP_append, List.countP_singleton, if_neg (by simp [hx])]
  exact h s

/-- A counted entry needs room among the entries since `time x - width`, however late these are. -/
theorem Capped.concat [IsOrderedAddMonoid T] (h : Capped time p width cap L)
    (hpq : ∀ a, p a = true → q a = true)
    (hx : L.countP (fun a => q a && decide (time x - width ≤ time a)) < cap) :
    Capped time p width cap (L ++ [x]) := by
  intro s
  rw [List.countP_append, List.countP_singleton]
  split_ifs with hin
  · -- every entry of the window is among those that were counted
    have hle : L.countP (fun a => p a && decide (s ≤ time a) && decide (time a ≤ s + width)) ≤
        L.countP (fun a => q a && decide (time x - width ≤ time a)) := by
      refine List.countP_mono_left fun a _ ha => ?_
      simp only [Bool.and_eq_true, decide_eq_true_eq] at hin ha ⊢
      exact ⟨hpq a ha.1.1, (sub_le_iff_le_add.2 hin.2).trans ha.1.2⟩
    omega
  · exact h s
