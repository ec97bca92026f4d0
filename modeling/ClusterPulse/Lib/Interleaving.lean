import ClusterPulse.Lib.Program
import Mathlib.Data.List.Infix
import Mathlib.Logic.Function.Basic

/-!
# Programs interleaved call by call

A `Pool` is a shared state and a list of programs that run next to each other, each call one atomic
step on the state.  A schedule is the list of the threads that make the successive calls; every
interleaving of the programs is the run of some schedule, and a prefix of a schedule reaches an
intermediate state of its run.

`Meets` says that every step of a run meets a condition on the state before it, and
`Pool.run_invariant_of_meets` carries an invariant through the schedules that do.
-/

namespace Prog

variable {Op : Type} {Res : Op → Type} {ε α σ : Type}

/-- Make the next call of a program; a program that has ended stays as it is. -/
def next (h : Handler Op Res ε σ) : Prog Op Res ε α → σ → Prog Op Res ε α × σ
  | .call op k, s => (k (h op s).1, (h op s).2)
  | p, s => (p, s)

/-- Make the next `n` calls of a program. -/
def nextN (h : Handler Op Res ε σ) : ℕ → Prog Op Res ε α → σ → Prog Op Res ε α × σ
  | 0, p, s => (p, s)
  | n + 1, p, s => nextN h n (p.next h s).1 (p.next h s).2

/-- The call a program makes next. -/
def nextCall : Prog Op Res ε α → Option Op
  | .call op _ => some op
  | _ => none

/-- The outcome of a program that has ended. -/
def outcome : Prog Op Res ε α → Option (Except ε α)
  | .pure a => some (.ok a)
  | .throw e => some (.error e)
  | .call _ _ => none

theorem eq_pure_of_outcome {p : Prog Op Res ε α} {a : α} (h : p.outcome = some (.ok a)) :
    p = .pure a := by
  cases p with
  | pure a' => exact congrArg Prog.pure (Except.ok.inj (Option.some.inj h))
  | throw e => cases h
  | call op k => cases h

end Prog

/-- A shared state and the programs that run on it. -/
structure Pool (Op : Type) (Res : Op → Type) (ε α σ : Type) where
  state : σ
  threads : List (Prog Op Res ε α)

namespace Pool

variable {Op : Type} {Res : Op → Type} {ε α σ : Type} {h : Handler Op Res ε σ}

/-- The call that thread `i` makes next. -/
def nextCall (P : Pool Op Res ε α σ) (i : ℕ) : Option Op := P.threads[i]?.bind Prog.nextCall

/-- The outcome of thread `i`, once it has ended. -/
def outcome (P : Pool Op Res ε α σ) (i : ℕ) : Option (Except ε α) :=
  P.threads[i]?.bind Prog.outcome

/-- Thread `i` makes its next call. -/
def step (h : Handler Op Res ε σ) (i : ℕ) (P : Pool Op Res ε α σ) : Pool Op Res ε α σ :=
  match P.threads[i]? with
  | some p => ⟨(p.next h P.state).2, P.threads.set i (p.next h P.state).1⟩
  | none => P

/-- The pool after thread `i` has made the call `op`, from which it goes on with `k`. -/
def called (h : Handler Op Res ε σ) (P : Pool Op Res ε α σ) (i : ℕ) (op : Op)
    (k : Except ε (Res op) → Prog Op Res ε α) : Pool Op Res ε α σ :=
  ⟨(h op P.state).2, P.threads.set i (k (h op P.state).1)⟩

/-- The threads named by the schedule make their calls in turn. -/
def run (h : Handler Op Res ε σ) : List ℕ → Pool Op Res ε α σ → Pool Op Res ε α σ
  | [], P => P
  | i :: sched, P => run h sched (P.step h i)

/-- Every step of the run meets the condition `C` on the state before it. -/
def Meets (h : Handler Op Res ε σ) (C : Pool Op Res ε α σ → ℕ → Prop) :
    List ℕ → Pool Op Res ε α σ → Prop
  | [], _ => True
  | i :: sched, P => C P i ∧ Meets h C sched (P.step h i)

instance Meets.decidable (C : Pool Op Res ε α σ → ℕ → Prop) [∀ P i, Decidable (C P i)] :
    (sched : List ℕ) → (P : Pool Op Res ε α σ) → Decidable (Meets h C sched P)
  | [], _ => inferInstanceAs (Decidable True)
  | i :: sched, P =>
    have := Meets.decidable C sched (P.step h i)
    inferInstanceAs (Decidable (C P i ∧ Meets h C sched (P.step h i)))

/-- `Q` holds of every state the schedule goes through, the first and the last included. -/
def Throughout (h : Handler Op Res ε σ) (Q : Pool Op Res ε α σ → Prop) (sched : List ℕ)
    (P : Pool Op Res ε α σ) : Prop :=
  ∀ pre, pre <+: sched → Q (run h pre P)

/-! ## One step -/

theorem step_of_call {P : Pool Op Res ε α σ} {i : ℕ} {op : Op}
    {k : Except ε (Res op) → Prog Op Res ε α} (hi : P.threads[i]? = some (.call op k)) :
    P.step h i = P.called h i op k := by
  unfold step
  rw [hi]
  rfl

theorem step_of_ended {P : Pool Op Res ε α σ} {i : ℕ} (hi : P.nextCall i = none) :
    P.step h i = P := by
  unfold step
  rcases hp : P.threads[i]? with _ | p
  · rfl
  · have hset : P.threads.set i p = P.threads := by
      rw [List.getElem?_eq_some_iff] at hp
      obtain ⟨hlt, rfl⟩ := hp
      exact List.set_getElem_self hlt
    cases p with
    | pure a => exact congrArg (Pool.mk P.state) hset
    | throw e => exact congrArg (Pool.mk P.state) hset
    | call op k => simp [nextCall, hp, Prog.nextCall] at hi

theorem nextCall_eq_some_iff {P : Pool Op Res ε α σ} {i : ℕ} {op : Op} :
    P.nextCall i = some op ↔ ∃ k, P.threads[i]? = some (.call op k) := by
  unfold nextCall
  rcases P.threads[i]? with _ | p
  · simp
  · cases p with
    | pure a => simp [Prog.nextCall]
    | throw e => simp [Prog.nextCall]
    | call op' k =>
      simp only [Option.bind_some, Prog.nextCall, Option.some.injEq, Prog.call.injEq]
      constructor
      · rintro rfl
        exact ⟨k, rfl, HEq.rfl⟩
      · rintro ⟨_, rfl, -⟩
        rfl

/-- The thread list after a step, thread by thread. -/
theorem getElem?_set_threads {P : Pool Op Res ε α σ} {i j : ℕ} {p q : Prog Op Res ε α}
    (hi : P.threads[i]? = some q) :
    (P.threads.set i p)[j]? = if j = i then some p else P.threads[j]? := by
  have hlt : i < P.threads.length := (List.getElem?_eq_some_iff.1 hi).1
  rw [List.getElem?_set]
  split_ifs with h₁ h₂ h₃ <;> first | rfl | omega

section Called

variable {P : Pool Op Res ε α σ} {i j : ℕ} {op : Op} {k : Except ε (Res op) → Prog Op Res ε α}

@[simp] theorem state_called : (P.called h i op k).state = (h op P.state).2 := rfl

theorem threads_called (hk : P.threads[i]? = some (.call op k)) :
    (P.called h i op k).threads[j]? =
      if j = i then some (k (h op P.state).1) else P.threads[j]? :=
  getElem?_set_threads hk

theorem outcome_called_of_ne (hk : P.threads[i]? = some (.call op k)) (hj : j ≠ i) :
    (P.called h i op k).outcome j = P.outcome j := by
  unfold outcome
  rw [threads_called hk, if_neg hj]

theorem outcome_called_self (hk : P.threads[i]? = some (.call op k)) :
    (P.called h i op k).outcome i = (k (h op P.state).1).outcome := by
  unfold outcome
  rw [threads_called hk, if_pos rfl, Option.bind_some]

theorem outcome_eq_none_of_call (hk : P.threads[i]? = some (.call op k)) : P.outcome i = none := by
  unfold outcome
  rw [hk]
  rfl

theorem thread_of_outcome {a : α} (h : P.outcome i = some (.ok a)) :
    P.threads[i]? = some (.pure a) := by
  obtain ⟨p, hp, houtcome⟩ := Option.bind_eq_some_iff.1 h
  rw [hp, Prog.eq_pure_of_outcome houtcome]

/-- Every thread follows the protocol from its own mode on. -/
def Follows {μ : Type} (A : Prog.Protocol Op Res ε μ) (Q : ℕ → Except ε α → μ → Prop)
    (modes : ℕ → μ) (P : Pool Op Res ε α σ) : Prop :=
  ∀ (i : ℕ) (p : Prog Op Res ε α), P.threads[i]? = some p → Prog.Follows A (modes i) p (Q i)

theorem Follows.called {μ : Type} {A : Prog.Protocol Op Res ε μ}
    {Q : ℕ → Except ε α → μ → Prop} {modes : ℕ → μ} (hP : P.Follows A Q modes)
    (hk : P.threads[i]? = some (.call op k)) :
    A.allowed (modes i) op ∧ (P.called h i op k).Follows A Q
      (Function.update modes i (A.next (modes i) op (h op P.state).1)) := by
  obtain ⟨hop, hnext⟩ := hP i _ hk
  refine ⟨hop, fun j p hp => ?_⟩
  rw [threads_called hk] at hp
  by_cases hj : j = i
  · subst hj
    rw [if_pos rfl] at hp
    obtain rfl := Option.some.inj hp
    rw [Function.update_self]
    exact hnext _
  · rw [if_neg hj] at hp
    rw [Function.update_of_ne hj]
    exact hP j p hp

end Called

/-! ## Runs -/

@[simp] theorem run_nil (P : Pool Op Res ε α σ) : run h [] P = P := rfl

@[simp] theorem run_cons (i : ℕ) (sched : List ℕ) (P : Pool Op Res ε α σ) :
    run h (i :: sched) P = run h sched (P.step h i) := rfl

theorem run_append (s₁ s₂ : List ℕ) (P : Pool Op Res ε α σ) :
    run h (s₁ ++ s₂) P = run h s₂ (run h s₁ P) := by
  induction s₁ generalizing P with
  | nil => rfl
  | cons i s₁ ih => exact ih _

theorem meets_append {C : Pool Op Res ε α σ → ℕ → Prop} {s₁ s₂ : List ℕ}
    {P : Pool Op Res ε α σ} :
    Meets h C (s₁ ++ s₂) P ↔ Meets h C s₁ P ∧ Meets h C s₂ (run h s₁ P) := by
  induction s₁ generalizing P with
  | nil => simp [Meets]
  | cons i s₁ ih => simp only [List.cons_append, Meets, ih, run_cons, and_assoc]

/-- A step invariant under a condition holds at the end of every run that meets the condition. -/
theorem run_invariant_of_meets {C : Pool Op Res ε α σ → ℕ → Prop} (I : Pool Op Res ε α σ → Prop)
    (hstep : ∀ (P : Pool Op Res ε α σ) i op k, P.threads[i]? = some (.call op k) → C P i → I P →
      I (P.called h i op k))
    {sched : List ℕ} {P : Pool Op Res ε α σ} (hC : Meets h C sched P) (hI : I P) :
    I (run h sched P) := by
  induction sched generalizing P with
  | nil => exact hI
  | cons i sched ih =>
    refine ih hC.2 ?_
    rcases hc : P.nextCall i with _ | op
    · rwa [step_of_ended hc]
    · obtain ⟨k, hk⟩ := nextCall_eq_some_iff.1 hc
      rw [step_of_call hk]
      exact hstep P i op k hk hC.1 hI

theorem Meets.initial {C : Pool Op Res ε α σ → ℕ → Prop} {pre sched : List ℕ}
    {P : Pool Op Res ε α σ} (hC : Meets h C sched P) (hpre : pre <+: sched) : Meets h C pre P := by
  obtain ⟨rest, rfl⟩ := hpre
  exact (meets_append.1 hC).1

/-- If `Q` throughout a run forces the condition at each of its steps, the run meets it. -/
theorem meets_of_throughout {C : Pool Op Res ε α σ → ℕ → Prop} {Q : Pool Op Res ε α σ → Prop}
    {P : Pool Op Res ε α σ} {sched : List ℕ}
    (hC : ∀ pre i, pre ++ [i] <+: sched → Throughout h Q (pre ++ [i]) P → C (run h pre P) i)
    (hQ : Throughout h Q sched P) : Meets h C sched P := by
  induction sched using List.reverseRecOn with
  | nil => trivial
  | append_singleton sched i ih =>
    rw [meets_append]
    have hsub : sched <+: sched ++ [i] := List.prefix_append _ _
    refine ⟨ih (fun pre j hpre => hC pre j (hpre.trans hsub)) fun pre hpre =>
      hQ pre (hpre.trans hsub), ?_, trivial⟩
    exact hC sched i (List.prefix_refl _) hQ

end Pool
