import ClusterPulse.Lib.Program

/-!
# Two runs side by side

`Coupled h h' Q E p p' s s'`: run from `s` under `h` and from `s'` under `h'`, the two programs end
in the same way.  Both return, with results and states that `Q` relates, or both raise the same
exception, in states that `E` relates.  There is one rule for each way of composing programs, so two
runs are compared along their common text, one pair of calls at a time.
-/

namespace Prog

variable {Op : Type} {Res : Op → Type} {ε σ α α' β β' γ : Type}

/-- Two outcomes of the same kind, related by `Q` or by `E`. -/
inductive Related (Q : α → α' → σ → σ → Prop) (E : σ → σ → Prop) :
    Except ε α × σ → Except ε α' × σ → Prop where
  | returned {a : α} {a' : α'} {s s' : σ} (hQ : Q a a' s s') : Related Q E (.ok a, s) (.ok a', s')
  | raised (e : ε) {s s' : σ} (hE : E s s') : Related Q E (.error e, s) (.error e, s')

/-- The two programs end in related outcomes. -/
def Coupled (h h' : Handler Op Res ε σ) (Q : α → α' → σ → σ → Prop) (E : σ → σ → Prop)
    (p : Prog Op Res ε α) (p' : Prog Op Res ε α') (s s' : σ) : Prop :=
  Related Q E (p.run h s) (p'.run h' s')

variable {h h' : Handler Op Res ε σ} {Q : α → α' → σ → σ → Prop} {Q' : β → β' → σ → σ → Prop}
  {E : σ → σ → Prop} {s s' : σ}

theorem coupled_pure {a : α} {a' : α'} (hQ : Q a a' s s') :
    Coupled h h' Q E (.pure a) (.pure a') s s' := .returned hQ

theorem coupled_perform (c c' : Op) {Q : Res c → Res c' → σ → σ → Prop}
    (hQ : Related Q E (h c s) (h' c' s')) : Coupled h h' Q E (perform c) (perform c') s s' := by
  unfold Coupled
  rw [run_perform, run_perform]
  exact hQ

section Rules

variable {p : Prog Op Res ε α} {p' : Prog Op Res ε α'}

theorem Coupled.mono {Q₂ : α → α' → σ → σ → Prop} {E₂ : σ → σ → Prop}
    (hp : Coupled h h' Q E p p' s s') (hQ : ∀ a a' t t', Q a a' t t' → Q₂ a a' t t')
    (hE : ∀ t t', E t t' → E₂ t t') : Coupled h h' Q₂ E₂ p p' s s' := by
  unfold Coupled at hp ⊢
  generalize p.run h s = x at hp ⊢
  generalize p'.run h' s' = x' at hp ⊢
  cases hp with
  | returned h => exact .returned (hQ _ _ _ _ h)
  | raised e h => exact .raised e (hE _ _ h)

theorem Coupled.bind {f : α → Prog Op Res ε β} {f' : α' → Prog Op Res ε β'}
    (hp : Coupled h h' Q E p p' s s')
    (hf : ∀ a a' t t', Q a a' t t' → Coupled h h' Q' E (f a) (f' a') t t') :
    Coupled h h' Q' E (p >>= f) (p' >>= f') s s' := by
  unfold Coupled at hp
  unfold Coupled
  rw [run_bind, run_bind]
  generalize p.run h s = x at hp ⊢
  generalize p'.run h' s' = x' at hp ⊢
  cases hp with
  | returned hQ => exact hf _ _ _ _ hQ
  | raised e hE => exact .raised e hE

/-- Both programs return, or both run their handler on the same exception. -/
theorem Coupled.tryCatch {f : ε → Prog Op Res ε α} {f' : ε → Prog Op Res ε α'}
    (hp : Coupled h h' Q E p p' s s')
    (hf : ∀ e t t', E t t' → Coupled h h' Q E (f e) (f' e) t t') :
    Coupled h h' Q E (p.tryCatch f) (p'.tryCatch f') s s' := by
  unfold Coupled at hp
  unfold Coupled
  rw [run_tryCatch, run_tryCatch]
  generalize p.run h s = x at hp ⊢
  generalize p'.run h' s' = x' at hp ⊢
  cases hp with
  | returned hQ => exact .returned hQ
  | raised e hE => exact hf e _ _ hE

/-- Whatever the two programs do, related states are left. -/
theorem Coupled.states {R : σ → σ → Prop} (hp : Coupled h h' Q E p p' s s')
    (hQ : ∀ a a' t t', Q a a' t t' → R t t') (hE : ∀ t t', E t t' → R t t') :
    R (p.run h s).2 (p'.run h' s').2 := by
  unfold Coupled at hp
  generalize p.run h s = x at hp ⊢
  generalize p'.run h' s' = x' at hp ⊢
  cases hp with
  | returned h => exact hQ _ _ _ _ h
  | raised e h => exact hE _ _ h

/-- If one program raises, so does the other. -/
theorem Coupled.error {e : ε} (hp : Coupled h h' Q E p p' s s') (he : (p.run h s).1 = .error e) :
    (p'.run h' s').1 = .error e := by
  unfold Coupled at hp
  generalize p.run h s = x at hp he
  generalize p'.run h' s' = x' at hp ⊢
  cases hp with
  | returned => cases he
  | raised =>
    obtain rfl := Except.error.inj he
    rfl

end Rules

/-- The same loop on both sides. -/
theorem Coupled.foldlM {f : α → γ → Prog Op Res ε α} {f' : α' → γ → Prog Op Res ε α'}
    (hf : ∀ c a a' t t', Q a a' t t' → Coupled h h' Q E (f a c) (f' a' c) t t') :
    ∀ (l : List γ) (a : α) (a' : α') (s s' : σ), Q a a' s s' →
      Coupled h h' Q E (l.foldlM f a) (l.foldlM f' a') s s'
  | [], _, _, _, _, hQ => .returned hQ
  | c :: l, a, a', s, s', hQ => by
    rw [List.foldlM_cons, List.foldlM_cons]
    exact (hf c a a' s s' hQ).bind fun a₁ a₁' t t' hQ₁ => Coupled.foldlM hf l a₁ a₁' t t' hQ₁

end Prog
