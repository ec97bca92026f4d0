import ClusterPulse.Lib.Program

/-!
# Programs made of other programs

`p.interpret f` runs the program `f op` for every call `op` of `p`.  The two levels may differ in
their calls and in their exceptions, so what `p` raises is a result of the interpreted program.
`Projects` is for calls that work on a part of a larger state.
-/

namespace Prog

variable {Op Op' : Type} {Res : Op → Type} {Res' : Op' → Type} {ε ε' α β γ σ τ : Type}

/-! ## Interpretation -/

/-- The result of `p`, or what it raises. -/
def result (p : Prog Op Res ε α) : Prog Op Res ε (Except ε α) :=
  (Except.ok <$> p).tryCatch fun e => .pure (.error e)

/-- Run `f op` for every call `op`. -/
def interpret (f : (op : Op) → Prog Op' Res' ε' (Except ε (Res op))) :
    Prog Op Res ε α → Prog Op' Res' ε' (Except ε α)
  | .pure a => .pure (.ok a)
  | .throw e => .pure (.error e)
  | .call op k => f op >>= fun r => (k r).interpret f

theorem Runs.result {h : Handler Op Res ε σ} {R : σ → σ → Prop} {Q : Except ε α → σ → Prop}
    {p : Prog Op Res ε α} {s : σ} (hp : Runs h R p s Q) :
    Runs h R p.result s fun r s' => ∃ r₀, r = .ok r₀ ∧ Q r₀ s' := by
  have hmap : Runs h R (Except.ok (ε := ε) <$> p) s fun r s' =>
      Ends (fun r₀ _ => Q r₀ s') (fun e _ => Q (.error e) s') r s' := by
    refine hp.map fun r s' hr => ?_
    cases r with
    | ok a => exact hr
    | error e => exact hr
  exact hmap.tryCatch (fun r₀ s' hQ => ⟨r₀, rfl, hQ⟩) fun e s' hQ => ⟨.error e, rfl, hQ⟩

variable {f : (op : Op) → Prog Op' Res' ε' (Except ε (Res op))} {h : Handler Op' Res' ε' σ}
  {h₀ : Handler Op Res ε σ} {s : σ}

/-- If `f` answers every call as `h₀` does, then a program and its interpretation end alike. -/
theorem run_interpret (hf : ∀ op s, (f op).run h s = (.ok (h₀ op s).1, (h₀ op s).2))
    (p : Prog Op Res ε α) (s : σ) :
    (p.interpret f).run h s = (.ok (p.run h₀ s).1, (p.run h₀ s).2) := by
  induction p generalizing s with
  | pure a => rfl
  | throw e => rfl
  | call op k ih =>
    show (f op >>= fun r => (k r).interpret f).run h s = _
    rw [run_bind, hf]
    exact ih _ _

/-- What holds around the calls of a program holds around those of its interpretation. -/
theorem Runs.interpret {R R₀ : σ → σ → Prop} {Q : Except ε α → σ → Prop}
    (hf : ∀ op s, R₀ s (h₀ op s).2 →
      Runs h R (f op) s fun r s' => r = .ok (h₀ op s).1 ∧ s' = (h₀ op s).2)
    {p : Prog Op Res ε α} (hp : Runs h₀ R₀ p s Q) :
    Runs h R (p.interpret f) s fun r s' => ∃ r₀, r = .ok r₀ ∧ Q r₀ s' := by
  induction p generalizing s with
  | pure a => exact ⟨_, rfl, hp⟩
  | throw e => exact ⟨_, rfl, hp⟩
  | call op k ih =>
    refine (hf op s hp.1).bind (fun r s' hr => ?_) fun e s' he => ?_
    · obtain ⟨hr, rfl⟩ := hr
      obtain rfl := Except.ok.inj hr
      exact ih _ hp.2
    · cases he.1

/-- The calls of an interpreted program are those of its parts. -/
theorem Only.interpret {C : Op → Prop} {C' : Op' → Prop} {p : Prog Op Res ε α} (hp : Only C p)
    (hf : ∀ op, C op → Only C' (f op)) : Only C' (p.interpret f) := by
  induction p with
  | pure a => trivial
  | throw e => trivial
  | call op k ih => exact (hf op hp.1).bind fun r => ih r (hp.2 r)

theorem Only.result {C : Op → Prop} {p : Prog Op Res ε α} (hp : Only C p) : Only C p.result :=
  (hp.bind fun _ => only_pure _).tryCatch fun _ => only_pure _

/-! ## A part of the state -/

/-- On the part of the state that `get` reads, `h` does what `g` does. -/
def Projects (get : σ → τ) (h : Handler Op Res ε σ) (g : Handler Op Res ε τ) : Prop :=
  ∀ op s, (h op s).1 = (g op (get s)).1 ∧ get (h op s).2 = (g op (get s)).2

section Projects

variable {get : σ → τ} {h : Handler Op Res ε σ} {g : Handler Op Res ε τ}

theorem Projects.run (hget : Projects get h g) (p : Prog Op Res ε α) (s : σ) :
    (p.run h s).1 = (p.run g (get s)).1 ∧ get (p.run h s).2 = (p.run g (get s)).2 := by
  induction p generalizing s with
  | pure a => exact ⟨rfl, rfl⟩
  | throw e => exact ⟨rfl, rfl⟩
  | call op k ih =>
    rw [run_call, run_call, (hget op s).1, ← (hget op s).2]
    exact ih _ _

theorem Projects.runs (hget : Projects get h g) {R : τ → τ → Prop} {p : Prog Op Res ε α}
    {Q : Except ε α → τ → Prop} {s : σ} (hp : Runs g R p (get s) Q) :
    Runs h (fun s s' => R (get s) (get s')) p s fun r s' => Q r (get s') := by
  induction p generalizing s with
  | pure a => exact hp
  | throw e => exact hp
  | call op k ih =>
    refine ⟨?_, ih _ ?_⟩
    · show R (get s) (get (h op s).2)
      rw [(hget op s).2]
      exact hp.1
    · rw [(hget op s).1, (hget op s).2]
      exact hp.2

end Projects

end Prog
