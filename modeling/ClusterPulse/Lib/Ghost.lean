import ClusterPulse.Lib.Interleaving
import ClusterPulse.Lib.Safety
import Mathlib.Order.Basic

/-!
# Runs with a ghost

A ghost is a value beside the state that no program knows of and that only grows.  `RunsWith h I p g s P`
follows a run from the ghost `g`: after every call `I` relates the ghost to the state, and a run that
ends without an exception satisfies `P`.  So at any two moments of a run, wherever it is stopped, there
are ghosts in order (`RunsWith.moments`).
-/

namespace Prog

variable {Op : Type} {Res : Op → Type} {ε α β σ γ : Type}

/-- Run from `s` with the ghost `g`. -/
def RunsWith [Preorder γ] (h : Handler Op Res ε σ) (I : γ → σ → Prop) :
    Prog Op Res ε α → γ → σ → (α → γ → σ → Prop) → Prop
  | .pure a, g, s, P => ∃ g', g ≤ g' ∧ P a g' s
  | .throw _, _, _, _ => True
  | .call op k, g, s, P => ∃ g', g ≤ g' ∧ I g' (h op s).2 ∧
    RunsWith h I (k (h op s).1) g' (h op s).2 P

section RunsWith

variable [Preorder γ] {h : Handler Op Res ε σ} {I : γ → σ → Prop} {p : Prog Op Res ε α} {g g' : γ}
  {s : σ} {P : α → γ → σ → Prop}

/-- The ghost may grow before the run. -/
theorem RunsWith.grow (hg : g ≤ g') (hp : RunsWith h I p g' s P) : RunsWith h I p g s P := by
  cases p with
  | throw e => trivial
  | pure a =>
    obtain ⟨g'', hg', hP⟩ := hp
    exact ⟨g'', hg.trans hg', hP⟩
  | call op k =>
    obtain ⟨g'', hg', hI, hrest⟩ := hp
    exact ⟨g'', hg.trans hg', hI, hrest⟩

theorem RunsWith.bind {f : α → Prog Op Res ε β} {P' : β → γ → σ → Prop}
    (hp : RunsWith h I p g s P) (hf : ∀ a g' s', P a g' s' → RunsWith h I (f a) g' s' P') :
    RunsWith h I (p >>= f) g s P' := by
  induction p generalizing g s with
  | throw e => trivial
  | pure a =>
    obtain ⟨g', hg, hP⟩ := hp
    exact (hf a g' s hP).grow hg
  | call op k ih =>
    obtain ⟨g', hg, hI, hrest⟩ := hp
    exact ⟨g', hg, hI, ih _ hrest⟩

/-- The run is stopped after so many calls, and goes on from there. -/
theorem RunsWith.moment (hp : RunsWith h I p g s P) (hs : I g s) (n : ℕ) :
    ∃ g', g ≤ g' ∧ I g' (p.nextN h n s).2 ∧
      RunsWith h I (p.nextN h n s).1 g' (p.nextN h n s).2 P := by
  induction n generalizing p g s with
  | zero => exact ⟨g, le_rfl, hs, hp⟩
  | succ n ih =>
    cases p with
    | pure a => exact ih (p := .pure a) hp hs
    | throw e => exact ih (p := .throw e) hp hs
    | call op k =>
      obtain ⟨g', hg, hI, hrest⟩ := hp
      obtain ⟨g'', hg', hmoment⟩ := ih hrest hI
      exact ⟨g'', hg.trans hg', hmoment⟩

end RunsWith

/-- What a safe program keeps holds along any run of it. -/
theorem Safe.along {h : Handler Op Res ε σ} {I : σ → Prop} {R R' : σ → σ → Prop} {E : ε → Prop}
    {p : Prog Op Res ε α} {s : σ} {Q : Except ε α → σ → Prop} (hp : Safe h I R E p) (hs : I s)
    (hq : Runs h R' p s Q) : Runs h (fun _ s' => I s') p s Q := by
  have hkept : Runs h (fun _ s' => I s') p s fun _ _ => True :=
    (hp s hs).mono (fun _ _ h => h.2) fun _ _ _ => trivial
  exact (hkept.and hq).post fun _ _ h => h.2

end Prog
