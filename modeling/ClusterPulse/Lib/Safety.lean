import ClusterPulse.Lib.Interleaving
import ClusterPulse.Lib.Interpretation
import Mathlib.Logic.Relation

/-!
# Programs that are safe from every state

`Safe h I R E p` is a judgement about a program from whatever state that satisfies `I`: its calls keep
`I` and relate the states around them by `R`, and what it raises satisfies `E`.  So it says what holds
at every moment of a program that may be stopped anywhere (`Safe.moment`), and which exceptions are
left where a handler takes some of them (`Safe.tryCatch`).
-/

namespace Prog

variable {Op Op' : Type} {Res : Op → Type} {Res' : Op' → Type} {ε ε' α β γ σ : Type}

/-- From every state that satisfies `I`, every call keeps `I` and relates the states around it by `R`,
and the program raises an `E`, if it raises. -/
def Safe (h : Handler Op Res ε σ) (I : σ → Prop) (R : σ → σ → Prop) (E : ε → Prop)
    (p : Prog Op Res ε α) : Prop :=
  ∀ s, I s → Runs h (fun s s' => R s s' ∧ I s') p s (Ends (fun _ s' => I s') fun e s' => E e ∧ I s')

/-- From every state that satisfies `I`, the program returns a `P`, if it returns. -/
def Yields (h : Handler Op Res ε σ) (I : σ → Prop) (P : α → Prop) (p : Prog Op Res ε α) : Prop :=
  ∀ s, I s → ∀ a, (p.run h s).1 = .ok a → P a

section Yields

variable {h : Handler Op Res ε σ} {I : σ → Prop} {P : α → Prop} {P' : β → Prop}

theorem yields_pure {a : α} (ha : P a) : Yields h I P (.pure a : Prog Op Res ε α) := by
  intro s _ a' ha'
  obtain rfl := Except.ok.inj ha'
  exact ha

theorem yields_trivial (p : Prog Op Res ε α) : Yields h I (fun _ => True) p :=
  fun _ _ _ _ => trivial

/-- The second program may start anywhere. -/
theorem Yields.bind {p : Prog Op Res ε α} {f : α → Prog Op Res ε β} (hp : Yields h I P p)
    (hf : ∀ a, P a → Yields h (fun _ => True) P' (f a)) : Yields h I P' (p >>= f) := by
  intro s hs b hb
  rw [run_bind] at hb
  rcases hrun : p.run h s with ⟨_ | a, s'⟩
  · rw [hrun] at hb
    cases hb
  · rw [hrun] at hb
    exact hf a (hp s hs a (by rw [hrun])) s' trivial b hb

theorem Yields.map {p : Prog Op Res ε α} (f : α → β) (hp : Yields h I P p)
    (hf : ∀ a, P a → P' (f a)) : Yields h I P' (f <$> p) :=
  hp.bind fun a ha => yields_pure (hf a ha)

theorem Yields.tryCatch {p : Prog Op Res ε α} {f : ε → Prog Op Res ε α} (hp : Yields h I P p)
    (hf : ∀ e, Yields h (fun _ => True) P (f e)) : Yields h I P (p.tryCatch f) := by
  intro s hs a ha
  rw [run_tryCatch] at ha
  rcases hrun : p.run h s with ⟨e | a', s'⟩
  · rw [hrun] at ha
    exact hf e s' trivial a ha
  · rw [hrun] at ha
    obtain rfl := Except.ok.inj ha
    exact hp s hs a' (by rw [hrun])

theorem Yields.foldlM {f : α → γ → Prog Op Res ε α} (l : List γ)
    (hf : ∀ b, P b → ∀ c ∈ l, Yields h (fun _ => True) P (f b c)) {b : α} (hb : P b) :
    Yields h (fun _ => True) P (l.foldlM f b) := by
  induction l generalizing b with
  | nil => exact yields_pure hb
  | cons c l ih =>
    rw [List.foldlM_cons]
    exact (hf b hb c List.mem_cons_self).bind fun b' hb' =>
      ih (fun b hb c' hc' => hf b hb c' (List.mem_cons_of_mem _ hc')) hb'

end Yields

section Safe

variable {h : Handler Op Res ε σ} {I : σ → Prop} {R : σ → σ → Prop} {E E' : ε → Prop} {s : σ}

theorem safe_pure (a : α) : Safe h I R E (.pure a) := fun _ hs => hs

theorem safe_throw {e : ε} (he : E e) : Safe h I R E (.throw e : Prog Op Res ε α) :=
  fun _ hs => ⟨he, hs⟩

theorem safe_lift {x : Except ε α} (hx : ∀ e, x = .error e → E e) : Safe h I R E (lift x) := by
  cases x with
  | ok a => exact safe_pure a
  | error e => exact safe_throw (hx e rfl)

theorem safe_perform {op : Op} (hop : ∀ s, I s → R s (h op s).2 ∧ I (h op s).2)
    (hraise : ∀ s e, I s → (h op s).1 = .error e → E e) : Safe h I R E (perform op) := by
  intro s hs
  refine runs_perform (hop s hs) ?_
  cases hr : (h op s).1 with
  | ok a => exact (hop s hs).2
  | error e => exact ⟨hraise s e hs hr, (hop s hs).2⟩

theorem Safe.mono {p : Prog Op Res ε α} (hp : Safe h I R E p) (hE : ∀ e, E e → E' e) :
    Safe h I R E' p := by
  intro s hs
  refine (hp s hs).post fun r s' hr => ?_
  cases r with
  | ok a => exact hr
  | error e => exact ⟨hE e hr.1, hr.2⟩

theorem Safe.relax {p : Prog Op Res ε α} {R' : σ → σ → Prop} (hp : Safe h I R E p)
    (hR : ∀ s s', R s s' → R' s s') : Safe h I R' E p := fun s hs =>
  (hp s hs).mono (fun _ _ h => ⟨hR _ _ h.1, h.2⟩) fun _ _ hr => hr

theorem Safe.bind {p : Prog Op Res ε α} {f : α → Prog Op Res ε β} (hp : Safe h I R E p)
    (hf : ∀ a, Safe h I R E (f a)) : Safe h I R E (p >>= f) :=
  fun s hs => (hp s hs).andThen fun a s' hs' => hf a s' hs'

theorem Safe.map {p : Prog Op Res ε α} (f : α → β) (hp : Safe h I R E p) :
    Safe h I R E (f <$> p) :=
  hp.bind fun a => safe_pure (f a)

theorem Safe.tryCatch {p : Prog Op Res ε α} {f : ε → Prog Op Res ε α} (hp : Safe h I R E' p)
    (hf : ∀ e, E' e → Safe h I R E (f e)) : Safe h I R E (p.tryCatch f) := fun s hs =>
  (hp s hs).tryCatch (fun _ _ hs' => hs') fun e s' he => hf e he.1 s' he.2

theorem Safe.bind_yields {p : Prog Op Res ε α} {f : α → Prog Op Res ε β} {P : α → Prop}
    (hp : Safe h I R E p) (hyields : Yields h I P p) (hf : ∀ a, P a → Safe h I R E (f a)) :
    Safe h I R E (p >>= f) := by
  intro s hs
  have hrun : Runs h (fun _ _ => True) p s fun r _ => ∀ a, r = .ok a → P a :=
    runs_of_run fun a ha => hyields s hs a ha
  refine ((hp s hs).and hrun).bind (fun a s' ha => ?_) fun e s' he => he.1
  exact hf a (ha.2 a rfl) s' ha.1

/-- What every call keeps, a run keeps. -/
theorem Runs.carry {p : Prog Op Res ε α} {Q : Except ε α → σ → Prop} {J : σ → Prop}
    (hp : Runs h R p s Q) (hJ : ∀ s s', R s s' → J s → J s') (hs : J s) :
    Runs h (fun s s' => R s s' ∧ J s') p s fun r s' => Q r s' ∧ J s' := by
  induction p generalizing s with
  | pure a => exact ⟨hp, hs⟩
  | throw e => exact ⟨hp, hs⟩
  | call op k ih =>
    have hs' := hJ _ _ hp.1 hs
    exact ⟨⟨hp.1, hs'⟩, ih _ hp.2 hs'⟩

theorem Safe.keep {p : Prog Op Res ε α} (hp : Safe h (fun _ => True) R E p)
    (hI : ∀ s s', R s s' → I s → I s') : Safe h I R E p := by
  intro s hs
  refine ((hp s trivial).carry (fun s s' hR => hI s s' hR.1) hs).mono
    (fun _ _ hstep => ⟨hstep.1.1, hstep.2⟩) fun r s' hr => ?_
  cases r with
  | ok a => exact hr.2
  | error e => exact ⟨hr.1.1, hr.2⟩

theorem Safe.foldlM {f : β → γ → Prog Op Res ε β} (l : List γ)
    (hf : ∀ b, ∀ c ∈ l, Safe h I R E (f b c)) (b : β) : Safe h I R E (l.foldlM f b) := by
  induction l generalizing b with
  | nil => exact safe_pure b
  | cons c l ih =>
    rw [List.foldlM_cons]
    exact (hf b c List.mem_cons_self).bind fun b' =>
      ih (fun b c' hc' => hf b c' (List.mem_cons_of_mem _ hc')) b'

/-- The exceptions of an interpreted program are among its results. -/
theorem Safe.interpret {h : Handler Op' Res' ε' σ} {E : ε' → Prop}
    {f : (op : Op) → Prog Op' Res' ε' (Except ε (Res op))} (hf : ∀ op, Safe h I R E (f op))
    (p : Prog Op Res ε α) : Safe h I R E (p.interpret f) := by
  induction p with
  | pure a => exact safe_pure _
  | throw e => exact safe_pure _
  | call op k ih => exact (hf op).bind fun r => ih r

theorem Safe.result {p : Prog Op Res ε α} (hp : Safe h I R E' p) : Safe h I R E p.result :=
  (hp.map _).tryCatch fun _ _ => safe_pure _

/-- The outcome of a run, of which the program only restricts the calls. -/
theorem Safe.outcome {p : Prog Op Res ε α} (hp : Safe h I R E' p)
    (hend : ∀ s e, I s → (p.run h s).1 = .error e → E e) : Safe h I R E p := by
  intro s hs
  have hrun : Runs h (fun _ _ => True) p s fun r _ => ∀ e, r = .error e → E e :=
    runs_of_run fun e he => hend s e hs he
  refine ((hp s hs).and hrun).post fun r s' hr => ?_
  cases r with
  | ok a => exact hr.1
  | error e => exact ⟨hr.2 e rfl, hr.1.2⟩

/-- Wherever a run is stopped, `I` holds, and the steps up to there are related. -/
theorem Safe.moment {p : Prog Op Res ε α} (hp : Safe h I R E p) (hs : I s) (n : ℕ) :
    Relation.ReflTransGen R s (p.nextN h n s).2 ∧ I (p.nextN h n s).2 := by
  have hrun := hp s hs
  generalize Ends (fun (_ : α) s' => I s') (fun e s' => E e ∧ I s') = Q at hrun
  clear hp
  induction n generalizing p s with
  | zero => exact ⟨.refl, hs⟩
  | succ n ih =>
    cases p with
    | pure a => exact ih (p := .pure a) hs hrun
    | throw e => exact ih (p := .throw e) hs hrun
    | call op k =>
      obtain ⟨⟨hR, hI⟩, hrest⟩ := hrun
      obtain ⟨hsteps, hend⟩ := ih hI hrest
      exact ⟨.head hR hsteps, hend⟩

/-- From one moment of a run to the next, there is a call or nothing. -/
theorem Safe.step {p : Prog Op Res ε α} (hp : Safe h I R E p) (hs : I s) (n : ℕ) :
    (p.nextN h (n + 1) s).2 = (p.nextN h n s).2 ∨ R (p.nextN h n s).2 (p.nextN h (n + 1) s).2 := by
  have hrun := hp s hs
  generalize Ends (fun (_ : α) s' => I s') (fun e s' => E e ∧ I s') = Q at hrun
  clear hp
  induction n generalizing p s with
  | zero =>
    cases p with
    | pure a => exact .inl rfl
    | throw e => exact .inl rfl
    | call op k => exact .inr hrun.1.1
  | succ n ih =>
    cases p with
    | pure a => exact ih (p := .pure a) hs hrun
    | throw e => exact ih (p := .throw e) hs hrun
    | call op k => exact ih hrun.1.2 hrun.2

theorem Safe.raises {p : Prog Op Res ε α} (hp : Safe h I R E p) (hs : I s) {e : ε}
    (he : (p.run h s).1 = .error e) : E e := by
  have hrun := (hp s hs).run
  rw [he] at hrun
  exact hrun.1

end Safe

end Prog
