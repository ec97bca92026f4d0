import Mathlib.Data.List.Count
import Mathlib.Data.List.Induction
import Mathlib.Tactic.Common

/-!
# Slots

A slot holds some items from before, or none, or one item that was put in since.  A signal that is on
fills an empty slot and leaves any other as it is; a signal that is off takes one item out.  The
order of the signals counts as soon as both kinds occur and there are enough of the second kind to
empty the slot; `Settled` says that it does not count.
-/

inductive Slot where
  /-- `n + 1` items from before. -/
  | held (n : ℕ)
  | empty
  | filled
deriving DecidableEq, Repr

namespace Slot

/-- The slot with so many items from before. -/
def ofCount : ℕ → Slot
  | 0 => empty
  | n + 1 => held n

/-- The number of items. -/
def count : Slot → ℕ
  | held n => n + 1
  | empty => 0
  | filled => 1

/-- The slot after a signal. -/
def next : Slot → Bool → Slot
  | empty, true => filled
  | s, true => s
  | held (n + 1), false => held n
  | _, false => empty

/-- The slot after some signals. -/
def after (s : Slot) (signals : List Bool) : Slot := signals.foldl next s

/-- How often some signals fill the slot. -/
def fills : Slot → List Bool → ℕ
  | _, [] => 0
  | s, b :: signals => (if s.count = 0 ∧ b = true then 1 else 0) + fills (s.next b) signals

@[simp] theorem count_ofCount (n : ℕ) : (ofCount n).count = n := by cases n <;> rfl

@[simp] theorem after_nil (s : Slot) : s.after [] = s := rfl

@[simp] theorem after_cons (s : Slot) (b : Bool) (signals : List Bool) :
    s.after (b :: signals) = (s.next b).after signals := rfl

theorem after_append (s : Slot) (signals signals' : List Bool) :
    s.after (signals ++ signals') = (s.after signals).after signals' := List.foldl_append ..

theorem fills_append (s : Slot) (signals signals' : List Bool) :
    s.fills (signals ++ signals') = s.fills signals + (s.after signals).fills signals' := by
  induction signals generalizing s with
  | nil => exact (Nat.zero_add _).symm
  | cons b signals ih => rw [List.cons_append, fills, ih, fills, after_cons, Nat.add_assoc]

theorem count_next (s : Slot) (b : Bool) :
    (s.next b).count = if b then max 1 s.count else s.count - 1 := by
  cases b with
  | true => cases s <;> simp [next, count]
  | false =>
    cases s with
    | held n => cases n <;> simp [next, count]
    | empty => rfl
    | filled => rfl

theorem exists_held_of_next {s : Slot} {b : Bool} {n : ℕ} (h : s.next b = held n) :
    ∃ m, s = held m := by
  cases s with
  | held m => exact ⟨m, rfl⟩
  | empty => cases b <;> cases h
  | filled => cases b <;> cases h

/-- A slot is filled by a signal that is on, unless it was. -/
theorem of_next_eq_filled {s : Slot} {b : Bool} (h : s.next b = filled) :
    b = true ∧ (s = empty ∨ s = filled) := by
  cases s with
  | held n => cases n <;> cases b <;> cases h
  | empty =>
    cases b with
    | true => exact ⟨rfl, .inl rfl⟩
    | false => cases h
  | filled =>
    cases b with
    | true => exact ⟨rfl, .inr rfl⟩
    | false => cases h

theorem count_eq_zero_iff (s : Slot) : s.count = 0 ↔ s = empty := by
  cases s <;> simp [count]

theorem fills_pos_of_after {s : Slot} (hs : s ≠ filled) {signals : List Bool}
    (h : s.after signals = filled) : 0 < s.fills signals := by
  induction signals generalizing s with
  | nil => exact absurd h hs
  | cons b signals ih =>
    rw [fills]
    by_cases hnext : s.next b = filled
    · obtain ⟨hb, hempty | hfilled⟩ := of_next_eq_filled hnext
      · rw [if_pos ⟨(count_eq_zero_iff s).2 hempty, hb⟩]
        omega
      · exact absurd hfilled hs
    · exact Nat.add_pos_right _ (ih hnext h)

theorem ofCount_ne_filled (n : ℕ) : ofCount n ≠ filled := by cases n <;> exact nofun

/-- The order of the signals does not count. -/
def Settled (n : ℕ) (signals : List Bool) : Prop :=
  signals.count true = 0 ∨ signals.count false = 0 ∨ signals.count false < n

instance (n : ℕ) (signals : List Bool) : Decidable (Settled n signals) :=
  inferInstanceAs (Decidable (_ ∨ _ ∨ _))

/-- The items that are left of `n`. -/
def left (n : ℕ) (signals : List Bool) : ℕ :=
  if signals.count false = 0 ∧ 0 < signals.count true then max 1 n else n - signals.count false

theorem settled_perm {n : ℕ} {signals signals' : List Bool} (h : signals'.Perm signals) :
    Settled n signals' ↔ Settled n signals := by
  unfold Settled
  rw [h.count_eq, h.count_eq]

theorem left_perm {n : ℕ} {signals signals' : List Bool} (h : signals'.Perm signals) :
    left n signals' = left n signals := by
  unfold left
  rw [h.count_eq, h.count_eq]

/-- A part of settled signals is settled. -/
theorem Settled.sublist {n : ℕ} {signals signals' : List Bool} (h : Settled n signals)
    (hsub : signals'.Sublist signals) : Settled n signals' := by
  have htrue := hsub.count_le true
  have hfalse := hsub.count_le false
  unfold Settled at *
  omega

/-- Settled signals leave what their numbers say, and fill the slot at most once. -/
theorem Settled.count_after {n : ℕ} {signals : List Bool} (h : Settled n signals) :
    ((ofCount n).after signals).count = left n signals ∧
      (ofCount n).fills signals = if n = 0 ∧ 0 < signals.count true then 1 else 0 := by
  induction signals using List.reverseRecOn with
  | nil => simp [left, fills]
  | append_singleton signals b ih =>
    obtain ⟨hcount, hfills⟩ := ih (h.sublist (List.sublist_append_left signals [b]))
    rw [after_append, fills_append, after_cons, after_nil, count_next, fills, fills, hcount, hfills]
    unfold Settled at h
    unfold left
    cases b with
    | true =>
      have htrue : (signals ++ [true]).count true = signals.count true + 1 := by simp
      have hfalse : (signals ++ [true]).count false = signals.count false := by simp
      rw [htrue, hfalse] at h ⊢
      simp only [if_true, and_true]
      constructor
      · split_ifs <;> omega
      · split_ifs <;> omega
    | false =>
      have htrue : (signals ++ [false]).count true = signals.count true := by simp
      have hfalse : (signals ++ [false]).count false = signals.count false + 1 := by simp
      rw [htrue, hfalse] at h ⊢
      simp only [Bool.false_eq_true, if_false, and_false]
      constructor
      · have hoff : ¬ (signals.count false + 1 = 0 ∧ 0 < signals.count true) := by omega
        rw [if_neg hoff]
        split_ifs <;> omega
      · split_ifs <;> omega

/-- The slot is filled or emptied for good. -/
def Changes (n : ℕ) (signals : List Bool) : Prop :=
  n = 0 ∧ 0 < signals.count true ∨ 0 < n ∧ n ≤ signals.count false

theorem changes_perm {n : ℕ} {signals signals' : List Bool} (h : signals'.Perm signals) :
    Changes n signals' ↔ Changes n signals := by
  unfold Changes
  rw [h.count_eq, h.count_eq]

/-- It does not show whether signals that change nothing go on to their end. -/
theorem Settled.of_not_changes {n : ℕ} {signals signals' : List Bool}
    (h : Settled n (signals ++ signals')) (hsame : ¬ Changes n (signals ++ signals')) :
    (0 < ((ofCount n).after signals).count ↔ 0 < left n (signals ++ signals')) ∧
      (ofCount n).fills signals =
        if n = 0 ∧ 0 < (signals ++ signals').count true then 1 else 0 := by
  obtain ⟨hcount, hfills⟩ := (h.sublist (List.sublist_append_left signals signals')).count_after
  rw [hcount, hfills]
  unfold Changes at hsame
  unfold left
  have htrue : (signals ++ signals').count true = signals.count true + signals'.count true := by simp
  have hfalse : (signals ++ signals').count false = signals.count false + signals'.count false := by
    simp
  rw [htrue] at hsame ⊢
  rw [hfalse] at hsame ⊢
  constructor
  · split_ifs <;> omega
  · split_ifs <;> omega

/-- Nor does it where they end before one that is on and finds an item. -/
theorem Settled.of_pos {n : ℕ} {signals signals' : List Bool}
    (h : Settled n (signals ++ true :: signals')) (hpos : 0 < ((ofCount n).after signals).count) :
    (0 < ((ofCount n).after signals).count ↔ 0 < left n (signals ++ true :: signals')) ∧
      (ofCount n).fills signals =
        if n = 0 ∧ 0 < (signals ++ true :: signals').count true then 1 else 0 := by
  obtain ⟨hcount, hfills⟩ := (h.sublist (List.sublist_append_left signals _)).count_after
  rw [hcount] at hpos
  rw [hcount, hfills]
  unfold Settled at h
  unfold left at hpos ⊢
  have htrue : (signals ++ true :: signals').count true =
      signals.count true + (signals'.count true + 1) := by simp
  have hfalse : (signals ++ true :: signals').count false =
      signals.count false + signals'.count false := by simp
  rw [htrue, hfalse] at h ⊢
  constructor
  · split_ifs at hpos ⊢ <;> omega
  · split_ifs at hpos ⊢ <;> omega

end Slot
