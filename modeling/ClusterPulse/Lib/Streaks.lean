import Mathlib.Data.List.TakeWhile
import Mathlib.Data.List.Forall2
import Mathlib.Tactic.Common

/-!
# Streaks

The streaks of a list are its maximal runs of consecutive elements that satisfy a predicate.  A list
that grows at its end changes only its last streak: `streaks_concat` says how, one element at a
time.
-/

/-- A nonempty run of consecutive elements, and the element that ended it, if one has. -/
structure Streak (α : Type) where
  first : α
  rest : List α
  next : Option α

namespace Streak

variable {α : Type}

/-- The last element of a streak. -/
def last (s : Streak α) : α := (s.first :: s.rest).getLast (List.cons_ne_nil _ _)

end Streak

variable {α : Type} {p : α → Bool}

/-- The maximal runs of consecutive elements that satisfy `p`, in order. -/
def streaks (p : α → Bool) : List α → List (Streak α)
  | [] => []
  | x :: l =>
    if p x then ⟨x, l.takeWhile p, (l.dropWhile p).head?⟩ :: streaks p (l.dropWhile p)
    else streaks p l
termination_by l => l.length
decreasing_by
  · exact Nat.lt_succ_of_le (List.dropWhile_suffix p).length_le
  · exact Nat.lt_succ_self _

/-- One more element: it extends or ends the first streak that has not ended, or starts a new one. -/
def observe (p : α → Bool) (x : α) : List (Streak α) → List (Streak α)
  | [] => if p x then [⟨x, [], none⟩] else []
  | ⟨first, rest, some y⟩ :: ss => ⟨first, rest, some y⟩ :: observe p x ss
  | ⟨first, rest, none⟩ :: ss =>
    (if p x then ⟨first, rest ++ [x], none⟩ else ⟨first, rest, some x⟩) :: ss

theorem streaks_singleton (x : α) : streaks p [x] = if p x then [⟨x, [], none⟩] else [] := by
  rw [streaks]
  split_ifs
  · rw [List.takeWhile_nil, List.dropWhile_nil, streaks]
    rfl
  · rw [streaks]

/-- The streaks of a list that has grown by one element. -/
theorem streaks_concat (l : List α) (x : α) :
    streaks p (l ++ [x]) = observe p x (streaks p l) := by
  fun_induction streaks p l with
  | case1 => exact streaks_singleton x
  | case2 y l hy ih =>
    rw [List.cons_append, streaks, if_pos hy, List.takeWhile_append, List.dropWhile_append]
    have hsplit : l.takeWhile p ++ l.dropWhile p = l := List.takeWhile_append_dropWhile
    rcases hd : l.dropWhile p with _ | ⟨z, l'⟩
    · -- the streak has not ended yet
      have hall : l.takeWhile p = l := by rwa [hd, List.append_nil] at hsplit
      rw [hall, if_pos rfl]
      by_cases hx : p x = true
      · simp [observe, streaks, hx]
      · simp [observe, streaks, hx]
    · have hlt : (l.takeWhile p).length ≠ l.length := by
        have hlen := congrArg List.length hsplit
        rw [hd, List.length_append, List.length_cons] at hlen
        omega
      rw [hd] at ih
      rw [if_neg hlt, if_neg (by simp), ih]
      rfl
  | case3 y l hy ih =>
    rw [List.cons_append, streaks, if_neg hy]
    exact ih

/-- Every streak but the last has ended. -/
theorem next_isSome_of_mem_dropLast (l : List α) :
    ∀ s ∈ (streaks p l).dropLast, s.next.isSome := by
  fun_induction streaks p l with
  | case1 => simp
  | case2 y l hy ih =>
    rcases hd : l.dropWhile p with _ | ⟨z, l'⟩
    · simp [streaks]
    · rw [hd] at ih
      rcases hs : streaks p (z :: l') with _ | ⟨s', ss⟩
      · simp
      · rw [hs] at ih
        intro s hmem
        rw [List.dropLast_cons_of_ne_nil (List.cons_ne_nil _ _)] at hmem
        rcases List.mem_cons.1 hmem with rfl | hmem
        · rfl
        · exact ih s hmem
  | case3 y l hy ih => exact ih

/-! ## Growing at the end -/

theorem observe_append {ss : List (Streak α)} (hss : ∀ s ∈ ss, s.next.isSome) (x : α)
    (ss' : List (Streak α)) : observe p x (ss ++ ss') = ss ++ observe p x ss' := by
  induction ss with
  | nil => rfl
  | cons s ss ih =>
    obtain ⟨first, rest, next⟩ := s
    obtain ⟨y, rfl⟩ := Option.isSome_iff_exists.1 (hss _ List.mem_cons_self)
    rw [List.cons_append, observe, ih fun s hs => hss s (List.mem_cons_of_mem _ hs)]
    rfl

/-- All streaks have ended: a new one starts, or nothing happens. -/
theorem streaks_concat_of_ended {l : List α} (h : ∀ s ∈ streaks p l, s.next.isSome) (x : α) :
    streaks p (l ++ [x]) = streaks p l ++ if p x then [⟨x, [], none⟩] else [] := by
  have happend : observe p x (streaks p l ++ []) = _ := observe_append h x []
  rwa [List.append_nil, ← streaks_concat] at happend

/-- The last streak has not ended: it goes on, or it ends here. -/
theorem streaks_concat_of_open {l : List α} {ss : List (Streak α)} {s : Streak α}
    (h : streaks p l = ss ++ [s]) (hs : s.next = none) (x : α) :
    streaks p (l ++ [x]) =
      ss ++ [if p x then ⟨s.first, s.rest ++ [x], none⟩ else ⟨s.first, s.rest, some x⟩] := by
  have hss : ∀ r ∈ ss, r.next.isSome := by
    intro r hr
    have hmem : r ∈ (streaks p l).dropLast := by rwa [h, List.dropLast_concat]
    exact next_isSome_of_mem_dropLast l r hmem
  obtain ⟨first, rest, next⟩ := s
  subst hs
  rw [streaks_concat, h, observe_append hss]
  rfl

theorem Streak.last_concat (first : α) (rest : List α) (x : α) (next : Option α) :
    (Streak.mk first (rest ++ [x]) next).last = x := by
  unfold Streak.last
  exact (List.getLast_congr _ (by simp) (List.cons_append ..).symm).trans List.getLast_concat

/-! ## Lists that correspond element by element -/

namespace List

variable {β : Type} {R : α → β → Prop}

theorem forall₂_concat {l : List α} {u : List β} {a : α} {b : β} :
    Forall₂ R (l ++ [a]) (u ++ [b]) ↔ Forall₂ R l u ∧ R a b := by
  rw [← forall₂_reverse_iff, reverse_append, reverse_append, reverse_singleton, reverse_singleton,
    singleton_append, singleton_append, forall₂_cons, forall₂_reverse_iff, and_comm]

theorem Forall₂.exists_of_mem_left {l : List α} {u : List β} (h : Forall₂ R l u) {a : α}
    (ha : a ∈ l) : ∃ b ∈ u, R a b := by
  induction h with
  | nil => cases ha
  | cons hab _ ih =>
    rcases mem_cons.1 ha with rfl | ha
    · exact ⟨_, mem_cons_self, hab⟩
    · obtain ⟨b, hb, h⟩ := ih ha
      exact ⟨b, mem_cons_of_mem _ hb, h⟩

theorem Forall₂.exists_of_mem_right {l : List α} {u : List β} (h : Forall₂ R l u) {b : β}
    (hb : b ∈ u) : ∃ a ∈ l, R a b :=
  h.flip.exists_of_mem_left hb

end List
