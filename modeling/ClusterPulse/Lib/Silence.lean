import ClusterPulse.Lib.Interpretation
import Mathlib.Order.Interval.Set.Defs
import Mathlib.Order.Monotone.Basic
import Mathlib.Order.Nat

/-!
# Programs without their silent calls

`Erases S A p p'`: the program `p'` is `p` without some of its silent calls, those in `S`, whatever of
`A` they answer.  The answer to a call may depend on how many calls were made before, so the calls that
are left meet the fates that they met in `p`: `Erases.exists_run` finds the number that each of them had
there, and `Renumbers` says that the calls are the same.
-/

namespace Prog

variable {Op : Type} {Res : Op → Type} {ε α β γ σ E : Type}

/-- `p'` is `p` without some of its silent calls. -/
inductive Erases (S : Op → Prop) (A : (op : Op) → Except ε (Res op) → Prop) :
    Prog Op Res ε α → Prog Op Res ε α → Prop
  | pure (a : α) : Erases S A (.pure a) (.pure a)
  | throw (e : ε) : Erases S A (.throw e) (.throw e)
  | call (op : Op) {k k' : Except ε (Res op) → Prog Op Res ε α} (h : ∀ r, Erases S A (k r) (k' r)) :
    Erases S A (.call op k) (.call op k')
  | silent {op : Op} {k : Except ε (Res op) → Prog Op Res ε α} {p' : Prog Op Res ε α} (hop : S op)
    (h : ∀ r, A op r → Erases S A (k r) p') : Erases S A (.call op k) p'

variable {S : Op → Prop} {A : (op : Op) → Except ε (Res op) → Prop} {p p' : Prog Op Res ε α}

/-! ## Composing programs -/

theorem Erases.refl (p : Prog Op Res ε α) : Erases S A p p := by
  induction p with
  | pure a => exact .pure a
  | throw e => exact .throw e
  | call op k ih => exact .call op ih

theorem Erases.bind {f f' : α → Prog Op Res ε β} (hp : Erases S A p p')
    (hf : ∀ a, Erases S A (f a) (f' a)) : Erases S A (p >>= f) (p' >>= f') := by
  induction hp with
  | pure a => exact hf a
  | throw e => exact .throw e
  | call op _ ih => exact .call op ih
  | silent hop _ ih => exact .silent hop ih

theorem Erases.map (f : α → β) (hp : Erases S A p p') : Erases S A (f <$> p) (f <$> p') :=
  hp.bind fun a => .pure (f a)

theorem Erases.tryCatch {f f' : ε → Prog Op Res ε α} (hp : Erases S A p p')
    (hf : ∀ e, Erases S A (f e) (f' e)) : Erases S A (p.tryCatch f) (p'.tryCatch f') := by
  induction hp with
  | pure a => exact .pure a
  | throw e => exact hf e
  | call op _ ih => exact .call op ih
  | silent hop _ ih => exact .silent hop ih

theorem Erases.result (hp : Erases S A p p') : Erases S A p.result p'.result :=
  (hp.map Except.ok).tryCatch fun e => .pure (Except.error e)

theorem Erases.foldlM {f f' : β → γ → Prog Op Res ε β} (hf : ∀ b c, Erases S A (f b c) (f' b c)) :
    ∀ (l : List γ) (b : β), Erases S A (l.foldlM f b) (l.foldlM f' b)
  | [], b => .pure b
  | c :: l, b => by
    rw [List.foldlM_cons, List.foldlM_cons]
    exact (hf b c).bind fun b' => Erases.foldlM hf l b'

/-- A silent call that always returns. -/
theorem erases_perform {op : Op} {p' : Prog Op Res ε (Res op)} (hop : S op)
    (hA : ∀ r, A op r → ∃ a, r = .ok a) (hp' : ∀ a, Erases S A (.pure a) p') :
    Erases S A (perform op) p' := by
  refine .silent hop fun r hr => ?_
  obtain ⟨a, rfl⟩ := hA r hr
  exact hp' a

/-- A silent program before the rest, whatever it returns or raises. -/
theorem erases_result {p : Prog Op Res ε β} {f : Except ε β → Prog Op Res ε α} (hp : Only S p)
    (hf : ∀ r, Erases S A (f r) p') : Erases S A (p.result >>= f) p' := by
  induction p with
  | pure a => exact hf (.ok a)
  | throw e => exact hf (.error e)
  | call op k ih => exact .silent hp.1 fun r _ => ih r (hp.2 r)

/-! ## The results of a serial run -/

/-- Run the programs one after the other and list their results. -/
def results : List (Prog Op Res ε α) → Prog Op Res ε (List (Except ε α))
  | [] => .pure []
  | p :: ps => do
    let r ← p.result
    let rs ← results ps
    return r :: rs

theorem Erases.results {L : Type} {prog prog' : L → Prog Op Res ε α}
    (hprog : ∀ l, Erases S A (prog l) (prog' l)) (ls : List L) :
    Erases S A (results (ls.map prog)) (results (ls.map prog')) := by
  induction ls with
  | nil => exact .pure []
  | cons l ls ih => exact (hprog l).result.bind fun r => ih.map _

/-! ## Runs -/

/-- In an environment, the fate of a call depends on its number; `Agree` says that two environments
give the same fate at two numbers.  Silent calls keep related states related, and the others, of the same
fate, are answered alike. -/
structure Silences (count : σ → ℕ) (h : E → Handler Op Res ε σ) (Agree : E → ℕ → E → ℕ → Prop)
    (S : Op → Prop) (A : (op : Op) → Except ε (Res op) → Prop) (R : σ → σ → Prop) (env : E) :
    Prop where
  count_succ : ∀ env op s, count (h env op s).2 = count s + 1
  answers : ∀ op s, S op → A op (h env op s).1
  silent : ∀ op s s', S op → R s s' → R (h env op s).2 s'
  visible : ∀ env' op s s', Agree env (count s) env' (count s') → R s s' →
    (h env' op s').1 = (h env op s).1 ∧ R (h env op s).2 (h env' op s').2

/-- One number more in front. -/
theorem strictMonoOn_cons {f : ℕ → ℕ} {n m : ℕ} (hf : StrictMonoOn f (Set.Ici (n + 1)))
    (hm : m < f (n + 1)) : StrictMonoOn (fun i => if i ≤ n then m else f i) (Set.Ici n) := by
  intro i hi i' _ hlt
  have hi : n ≤ i := hi
  have hi' : n + 1 ≤ i' := by omega
  have hstart : f (n + 1) ≤ f i' := hf.monotoneOn (Set.mem_Ici.2 le_rfl) (Set.mem_Ici.2 hi') hi'
  have hlast : ¬ i' ≤ n := by omega
  by_cases hin : i ≤ n
  · simp only [if_pos hin, if_neg hlast]
    omega
  · simp only [if_neg hin, if_neg hlast]
    exact hf (Set.mem_Ici.2 (not_le.1 hin)) (Set.mem_Ici.2 hi') hlt

/-- The calls `made'` are calls of `made`, in their order and with the number that `f` gives for their
own, and all of `made` but silent ones are among them. -/
structure Renumbers (count : σ → ℕ) (S : Op → Prop) (f : ℕ → ℕ) (made made' : List (Op × σ)) :
    Prop where
  left : (made'.map fun x => (x.1, f (count x.2))).Sublist (made.map fun x => (x.1, count x.2))
  others : ∀ x ∈ made, ¬ S x.1 → (x.1, count x.2) ∈ made'.map fun x => (x.1, f (count x.2))

theorem renumbers_nil {count : σ → ℕ} {f : ℕ → ℕ} : Renumbers count S f [] [] :=
  ⟨List.Sublist.slnil, fun _ hx => absurd hx List.not_mem_nil⟩

theorem Renumbers.silent {count : σ → ℕ} {f : ℕ → ℕ} {made made' : List (Op × σ)} {op : Op} {s : σ}
    (hop : S op) (h : Renumbers count S f made made') :
    Renumbers count S f ((op, s) :: made) made' := by
  refine ⟨h.left.cons _, fun x hx hnot => ?_⟩
  rcases List.mem_cons.1 hx with rfl | hx
  · exact absurd hop hnot
  · exact h.others x hx hnot

theorem Renumbers.cons {count : σ → ℕ} {f g : ℕ → ℕ} {made made' : List (Op × σ)} {op : Op} {s s' : σ}
    (hs : f (count s') = count s) (hfg : ∀ x ∈ made', f (count x.2) = g (count x.2))
    (h : Renumbers count S g made made') :
    Renumbers count S f ((op, s) :: made) ((op, s') :: made') := by
  have hmap : made'.map (fun x => (x.1, f (count x.2))) = made'.map fun x => (x.1, g (count x.2)) :=
    List.map_congr_left fun x hx => by rw [hfg x hx]
  refine ⟨?_, fun x hx hnot => ?_⟩
  · rw [List.map_cons, List.map_cons, hmap, hs]
    exact h.left.cons_cons _
  · rw [List.map_cons, hmap, hs]
    rcases List.mem_cons.1 hx with rfl | hx
    · exact List.mem_cons_self
    · exact List.mem_cons_of_mem _ (h.others x hx hnot)

/-- The calls of a run have the numbers from that of its start on. -/
theorem count_le_of_mem_trace {count : σ → ℕ} {h : Handler Op Res ε σ}
    (hcount : ∀ op s, count (h op s).2 = count s + 1) {p : Prog Op Res ε α} {s : σ} :
    ∀ x ∈ p.trace h s, count s ≤ count x.2 := by
  induction p generalizing s with
  | pure a => simp [trace]
  | throw e => simp [trace]
  | call op k ih =>
    intro x hx
    rcases List.mem_cons.1 hx with rfl | hx
    · exact le_rfl
    · have hle := ih _ x hx
      rw [hcount] at hle
      exact Nat.le_of_succ_le hle

/-- The program without its silent calls returns the same, in any environment that gives the calls that
are left the fates they had: the `i`-th call has that of the number `f i`. -/
theorem Erases.exists_run {count : σ → ℕ} {h : E → Handler Op Res ε σ}
    {Agree : E → ℕ → E → ℕ → Prop} {R : σ → σ → Prop} {env : E}
    (hh : Silences count h Agree S A R env) (hp : Erases S A p p') (s : σ) (n : ℕ) :
    ∃ f : ℕ → ℕ, StrictMonoOn f (Set.Ici n) ∧ count s ≤ f n ∧
      ∀ s' env', R s s' → count s' = n → (∀ i, n ≤ i → Agree env (f i) env' i) →
        (p'.run (h env') s').1 = (p.run (h env) s).1 ∧
          R (p.run (h env) s).2 (p'.run (h env') s').2 ∧
          Renumbers count S f (p.trace (h env) s) (p'.trace (h env') s') := by
  induction hp generalizing s n with
  | pure a =>
    exact ⟨fun i => i + count s, fun _ _ _ _ hlt => Nat.add_lt_add_right hlt _, Nat.le_add_left _ _,
      fun _ _ hR _ _ => ⟨rfl, hR, renumbers_nil⟩⟩
  | throw e =>
    exact ⟨fun i => i + count s, fun _ _ _ _ hlt => Nat.add_lt_add_right hlt _, Nat.le_add_left _ _,
      fun _ _ hR _ _ => ⟨rfl, hR, renumbers_nil⟩⟩
  | @silent op k p' hop _ ih =>
    obtain ⟨f, hmono, hle, hrun⟩ := ih _ (hh.answers op s hop) (h env op s).2 n
    rw [hh.count_succ] at hle
    refine ⟨f, hmono, by omega, fun s' env' hR hn hagree => ?_⟩
    obtain ⟨hanswer, hR', hcalls⟩ := hrun s' env' (hh.silent op s s' hop hR) hn hagree
    exact ⟨hanswer, hR', hcalls.silent hop⟩
  | @call op k k' _ ih =>
    obtain ⟨f, hmono, hle, hrun⟩ := ih (h env op s).1 (h env op s).2 (n + 1)
    rw [hh.count_succ] at hle
    -- the call itself keeps its number, and the calls after it are those of `f`
    refine ⟨fun i => if i ≤ n then count s else f i, strictMonoOn_cons hmono hle, by simp,
      fun s' env' hR hn hagree => ?_⟩
    have hfirst : Agree env (count s) env' (count s') := by
      have hat := hagree n le_rfl
      simp only [if_pos le_rfl] at hat
      rwa [hn]
    obtain ⟨hanswer, hR'⟩ := hh.visible env' op s s' hfirst hR
    obtain ⟨hrest, hR'', hcalls⟩ := hrun (h env' op s').2 env' hR' (by rw [hh.count_succ, hn])
      fun i hi => by
        have hat := hagree i (by omega)
        simp only [if_neg (show ¬ i ≤ n by omega)] at hat
        exact hat
    unfold trace
    rw [run_call, run_call, hanswer]
    refine ⟨hrest, hR'', hcalls.cons (by simp [hn]) fun x hx => ?_⟩
    -- a later call has a later number
    have hlater := count_le_of_mem_trace (hh.count_succ env') x hx
    rw [hh.count_succ, hn] at hlater
    rw [if_neg (show ¬ count x.2 ≤ n by omega)]

end Prog
