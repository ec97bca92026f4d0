import ClusterPulse.Lib.Interleaving
import Mathlib.Logic.Relation

/-!
# Programs that interfere with each other

What a program has read may be out of date by its next call, as others write in between.  `K s m` is
what a program in mode `m` may still count on in the state `s`; where every allowed call does no more
than `R`, and `R` leaves alone what the others count on, all programs keep to the protocol next to
each other, and each interleaving takes the state through steps of `R` (`Tolerates.run`).
-/

namespace Pool

open Prog Relation

variable {Op : Type} {Res : Op → Type} {ε α σ μ : Type} {h : Handler Op Res ε σ}

/-- Allowed calls of a program that counts on `K` take the state by `R` and leave it a `K` to count
on; and a step of `R` leaves the others theirs. -/
structure Tolerates (h : Handler Op Res ε σ) (A : Protocol Op Res ε μ) (R : σ → σ → Prop)
    (K : σ → μ → Prop) : Prop where
  step : ∀ s m op, K s m → A.allowed m op → R s (h op s).2
  knows : ∀ s m op, K s m → A.allowed m op → K (h op s).2 (A.next m op (h op s).1)
  stable : ∀ s s' m, R s s' → K s m → K s' m

namespace Tolerates

variable {A : Protocol Op Res ε μ} {R : σ → σ → Prop} {K : σ → μ → Prop}
  {Q : ℕ → Except ε α → μ → Prop} {modes : ℕ → μ} {P : Pool Op Res ε α σ}

/-- A thread makes its next call. -/
theorem threadStep (hT : Tolerates h A R K) (hP : P.Follows A Q modes)
    (hK : ∀ j, K P.state (modes j)) (i : ℕ) :
    ∃ modes', (P.step h i).Follows A Q modes' ∧ (∀ j, K (P.step h i).state (modes' j)) ∧
      ReflGen R P.state (P.step h i).state := by
  rcases hc : P.nextCall i with _ | op
  · rw [step_of_ended hc]
    exact ⟨modes, hP, hK, .refl⟩
  · obtain ⟨k, hk⟩ := nextCall_eq_some_iff.1 hc
    rw [step_of_call hk]
    obtain ⟨hop, hnext⟩ := hP.called (h := h) hk
    have hR : R P.state (h op P.state).2 := hT.step _ _ op (hK i) hop
    refine ⟨_, hnext, fun j => ?_, .single hR⟩
    by_cases hj : j = i
    · subst hj
      rw [Function.update_self]
      exact hT.knows _ _ op (hK j) hop
    · rw [Function.update_of_ne hj]
      exact hT.stable _ _ _ hR (hK j)

/-- Every interleaving takes the state through steps of `R`. -/
theorem run (hT : Tolerates h A R K) (hP : P.Follows A Q modes) (hK : ∀ j, K P.state (modes j))
    (sched : List ℕ) :
    ∃ modes', (Pool.run h sched P).Follows A Q modes' ∧
      (∀ j, K (Pool.run h sched P).state (modes' j)) ∧
        ReflTransGen R P.state (Pool.run h sched P).state := by
  induction sched generalizing P modes with
  | nil => exact ⟨modes, hP, hK, .refl⟩
  | cons i sched ih =>
    obtain ⟨modes₁, hP₁, hK₁, hR⟩ := hT.threadStep hP hK i
    obtain ⟨modes₂, hP₂, hK₂, hRs⟩ := ih hP₁ hK₁
    exact ⟨modes₂, hP₂, hK₂, hR.to_reflTransGen.trans hRs⟩

end Tolerates

end Pool
