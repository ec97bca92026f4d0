import Mathlib.Logic.Basic
import Mathlib.Order.Notation
import Mathlib.Tactic.Common

/-!
# Programs that call out

`Prog Op Res ε α` is a sequential program that makes calls `op : Op` to the outside, each answered
by an `Except ε (Res op)`, and that returns a value of `α` or raises an `ε`.  What the calls mean
is left open: a `Handler` says how a state answers them, `run` runs a program to its end under a
handler, and `next` makes a single call.  The same program can thus be run alone, with failing
calls, or one call at a time next to others.

Three judgements describe programs, each with one rule for every way of composing them.  `Runs` is
about a run from a given state: what each call does to the state, and what holds at the end.  `Only`
and `Follows` are about the program alone, whatever the answers: which calls it makes at all, and
which call it makes next as a function of the calls it has made.
-/

/-- A program with calls `Op`, answers `Res`, exceptions `ε` and results `α`. -/
inductive Prog (Op : Type) (Res : Op → Type) (ε α : Type) : Type where
  | pure (a : α)
  | throw (e : ε)
  | call (op : Op) (k : Except ε (Res op) → Prog Op Res ε α)

/-- How a state answers a call: the answer and the next state. -/
abbrev Handler (Op : Type) (Res : Op → Type) (ε σ : Type) : Type :=
  (op : Op) → σ → Except ε (Res op) × σ

namespace Prog

variable {Op : Type} {Res : Op → Type} {ε α β γ σ : Type}

/-! ## Sequencing and exceptions -/

/-- Run `p`, then `f` on its result; an exception of `p` skips `f`. -/
def bind : Prog Op Res ε α → (α → Prog Op Res ε β) → Prog Op Res ε β
  | .pure a, f => f a
  | .throw e, _ => .throw e
  | .call op k, f => .call op fun r => (k r).bind f

/-- `try p except e: f e`. -/
def tryCatch : Prog Op Res ε α → (ε → Prog Op Res ε α) → Prog Op Res ε α
  | .pure a, _ => .pure a
  | .throw e, f => f e
  | .call op k, f => .call op fun r => (k r).tryCatch f

/-- Make one call, raising the exception it answers with. -/
def perform (op : Op) : Prog Op Res ε (Res op) :=
  .call op fun
    | .ok r => .pure r
    | .error e => .throw e

/-- The value of `x`, or its exception. -/
def lift : Except ε α → Prog Op Res ε α
  | .ok a => .pure a
  | .error e => .throw e

instance : Monad (Prog Op Res ε) where
  pure := Prog.pure
  bind := Prog.bind

@[simp] theorem pure_eq (a : α) : (Pure.pure a : Prog Op Res ε α) = .pure a := rfl

@[simp] theorem pure_bind' (a : α) (f : α → Prog Op Res ε β) : (Prog.pure a >>= f) = f a := rfl

@[simp] theorem throw_bind (e : ε) (f : α → Prog Op Res ε β) :
    (Prog.throw e >>= f) = .throw e := rfl

@[simp] theorem call_bind (op : Op) (k : Except ε (Res op) → Prog Op Res ε α)
    (f : α → Prog Op Res ε β) : (Prog.call op k >>= f) = .call op fun r => k r >>= f := rfl

theorem map_call (f : α → β) (op : Op) (k : Except ε (Res op) → Prog Op Res ε α) :
    f <$> Prog.call op k = .call op fun r => f <$> k r := rfl

@[simp] theorem lift_ok (a : α) : (lift (.ok a) : Prog Op Res ε α) = .pure a := rfl

@[simp] theorem lift_error (e : ε) : (lift (.error e) : Prog Op Res ε α) = .throw e := rfl

theorem perform_bind (op : Op) (f : Res op → Prog Op Res ε β) :
    (perform op >>= f) = .call op fun
      | .ok r => f r
      | .error e => .throw e := by
  unfold perform
  rw [call_bind]
  congr 1
  funext r
  cases r <;> rfl

theorem bind_pure' (p : Prog Op Res ε α) : (p >>= Prog.pure) = p := by
  induction p with
  | pure a => rfl
  | throw e => rfl
  | call op k ih => exact congrArg _ (funext ih)

theorem bind_assoc' (p : Prog Op Res ε α) (f : α → Prog Op Res ε β) (g : β → Prog Op Res ε γ) :
    (p >>= f >>= g) = p >>= fun a => f a >>= g := by
  induction p with
  | pure a => rfl
  | throw e => rfl
  | call op k ih => exact congrArg _ (funext ih)

instance : LawfulMonad (Prog Op Res ε) := LawfulMonad.mk' _ bind_pure' pure_bind' bind_assoc'

/-! ## Running a program alone -/

/-- Run a program to its end, every call answered by `h`. -/
def run (h : Handler Op Res ε σ) : Prog Op Res ε α → σ → Except ε α × σ
  | .pure a, s => (.ok a, s)
  | .throw e, s => (.error e, s)
  | .call op k, s => (k (h op s).1).run h (h op s).2

section Run

variable {h : Handler Op Res ε σ}

@[simp] theorem run_pure (a : α) (s : σ) : (Prog.pure a : Prog Op Res ε α).run h s = (.ok a, s) :=
  rfl

@[simp] theorem run_throw (e : ε) (s : σ) :
    (Prog.throw e : Prog Op Res ε α).run h s = (.error e, s) := rfl

@[simp] theorem run_call (op : Op) (k : Except ε (Res op) → Prog Op Res ε α) (s : σ) :
    (Prog.call op k).run h s = (k (h op s).1).run h (h op s).2 := rfl

@[simp] theorem run_perform (op : Op) (s : σ) : (perform op).run h s = h op s := by
  unfold perform
  rw [run_call]
  rcases h op s with ⟨_ | _, _⟩ <;> rfl

theorem run_bind (p : Prog Op Res ε α) (f : α → Prog Op Res ε β) (s : σ) :
    (p >>= f).run h s = match p.run h s with
      | (.ok a, s') => (f a).run h s'
      | (.error e, s') => (.error e, s') := by
  induction p generalizing s with
  | pure a => rfl
  | throw e => rfl
  | call op k ih => exact ih _ _

theorem run_map (f : α → β) (p : Prog Op Res ε α) (s : σ) :
    (f <$> p).run h s = ((p.run h s).1.map f, (p.run h s).2) := by
  show (p >>= fun a => .pure (f a)).run h s = _
  rw [run_bind]
  rcases p.run h s with ⟨_ | a, s'⟩ <;> rfl

theorem run_tryCatch (p : Prog Op Res ε α) (f : ε → Prog Op Res ε α) (s : σ) :
    (p.tryCatch f).run h s = match p.run h s with
      | (.ok a, s') => (.ok a, s')
      | (.error e, s') => (f e).run h s' := by
  induction p generalizing s with
  | pure a => rfl
  | throw e => rfl
  | call op k ih => exact ih _ _

/-! ### The calls of a run -/

/-- The calls of a run, each with the state before it. -/
def trace (h : Handler Op Res ε σ) : Prog Op Res ε α → σ → List (Op × σ)
  | .pure _, _ => []
  | .throw _, _ => []
  | .call op k, s => (op, s) :: (k (h op s).1).trace h (h op s).2

theorem trace_bind (p : Prog Op Res ε α) (f : α → Prog Op Res ε β) (s : σ) :
    (p >>= f).trace h s = p.trace h s ++ match p.run h s with
      | (.ok a, s') => (f a).trace h s'
      | (.error _, _) => [] := by
  induction p generalizing s with
  | pure a => rfl
  | throw e => rfl
  | call op k ih => exact congrArg _ (ih _ _)

theorem trace_map (f : α → β) (p : Prog Op Res ε α) (s : σ) :
    (f <$> p).trace h s = p.trace h s := by
  show (p >>= fun a => .pure (f a)).trace h s = _
  rw [trace_bind]
  rcases p.run h s with ⟨_ | a, s'⟩ <;> simp [trace]

theorem trace_tryCatch (p : Prog Op Res ε α) (f : ε → Prog Op Res ε α) (s : σ) :
    (p.tryCatch f).trace h s = p.trace h s ++ match p.run h s with
      | (.ok _, _) => []
      | (.error e, s') => (f e).trace h s' := by
  induction p generalizing s with
  | pure a => rfl
  | throw e => rfl
  | call op k ih => exact congrArg _ (ih _ _)

/-- Handlers that answer the calls of a run alike give the same run. -/
theorem run_congr {h' : Handler Op Res ε σ} {p : Prog Op Res ε α} {s : σ}
    (hagree : ∀ x ∈ p.trace h s, h' x.1 x.2 = h x.1 x.2) :
    p.run h' s = p.run h s := by
  induction p generalizing s with
  | pure a => rfl
  | throw e => rfl
  | call op k ih =>
    have hop : h' op s = h op s := hagree (op, s) List.mem_cons_self
    rw [run_call, run_call, hop]
    exact ih _ fun x hx => hagree x (List.mem_cons_of_mem _ hx)

/-! ### Observers -/

variable {γ : Type}

/-- `h` next to an observer, which `f` brings up to date after each call: from the call, the state
before it, and its answer with the state after it. -/
def observed (h : Handler Op Res ε σ)
    (f : (op : Op) → σ → Except ε (Res op) × σ → γ → γ) : Handler Op Res ε (σ × γ) := fun op s =>
  ((h op s.1).1, (h op s.1).2, f op s.1 (h op s.1) s.2)

/-- An observer has no influence. -/
theorem run_observed (f : (op : Op) → σ → Except ε (Res op) × σ → γ → γ) (p : Prog Op Res ε α)
    (s : σ × γ) : (p.run (observed h f) s).1 = (p.run h s.1).1 ∧
      (p.run (observed h f) s).2.1 = (p.run h s.1).2 := by
  induction p generalizing s with
  | pure a => exact ⟨rfl, rfl⟩
  | throw e => exact ⟨rfl, rfl⟩
  | call op k ih => exact ih _ _

end Run

/-- `P` of the result, or `E` of the exception. -/
def Ends (P : α → σ → Prop) (E : ε → σ → Prop) : Except ε α → σ → Prop
  | .ok a, s => P a s
  | .error e, s => E e s

/-! ## Runs from a state -/

/-- Run from `s`, every call of the program relates the states around it by `R`, and the program
ends with an outcome and a state that satisfy `Q`. -/
def Runs (h : Handler Op Res ε σ) (R : σ → σ → Prop) :
    Prog Op Res ε α → σ → (Except ε α → σ → Prop) → Prop
  | .pure a, s, Q => Q (.ok a) s
  | .throw e, s, Q => Q (.error e) s
  | .call op k, s, Q => R s (h op s).2 ∧ Runs h R (k (h op s).1) (h op s).2 Q

section Runs

variable {h : Handler Op Res ε σ} {R : σ → σ → Prop} {s : σ}

theorem runs_perform {op : Op} {Q : Except ε (Res op) → σ → Prop} (hR : R s (h op s).2)
    (hQ : Q (h op s).1 (h op s).2) : Runs h R (perform op) s Q := by
  refine ⟨hR, ?_⟩
  rcases hr : (h op s).1 with _ | _ <;> rw [hr] at hQ <;> exact hQ

theorem Runs.mono {p : Prog Op Res ε α} {R' : σ → σ → Prop} {Q Q' : Except ε α → σ → Prop}
    (hp : Runs h R p s Q) (hR : ∀ s s', R s s' → R' s s') (hQ : ∀ r s', Q r s' → Q' r s') :
    Runs h R' p s Q' := by
  induction p generalizing s with
  | pure a => exact hQ _ _ hp
  | throw e => exact hQ _ _ hp
  | call op k ih => exact ⟨hR _ _ hp.1, ih _ hp.2⟩

/-- A relation that every call respects holds around each call of any program. -/
theorem runs_of_forall (hR : ∀ op s, R s (h op s).2) (p : Prog Op Res ε α) :
    Runs h R p s fun _ _ => True := by
  induction p generalizing s with
  | pure a => trivial
  | throw e => trivial
  | call op k ih => exact ⟨hR op s, ih _⟩

theorem runs_lift {x : Except ε α} {Q : Except ε α → σ → Prop} (hQ : Q x s) :
    Runs h R (lift x) s Q := by
  cases x <;> exact hQ

theorem Runs.post {p : Prog Op Res ε α} {Q Q' : Except ε α → σ → Prop} (hp : Runs h R p s Q)
    (hQ : ∀ r s', Q r s' → Q' r s') : Runs h R p s Q' :=
  hp.mono (fun _ _ hR => hR) hQ

/-- What two judgements say of the same run. -/
theorem Runs.and {p : Prog Op Res ε α} {R' : σ → σ → Prop} {Q Q' : Except ε α → σ → Prop}
    (hp : Runs h R p s Q) (hp' : Runs h R' p s Q') : Runs h R p s fun r s' => Q r s' ∧ Q' r s' := by
  induction p generalizing s with
  | pure a => exact ⟨hp, hp'⟩
  | throw e => exact ⟨hp, hp'⟩
  | call op k ih => exact ⟨hp.1, ih _ hp.2 hp'.2⟩

theorem Runs.bind {p : Prog Op Res ε α} {f : α → Prog Op Res ε β} {Q : Except ε α → σ → Prop}
    {Q' : Except ε β → σ → Prop} (hp : Runs h R p s Q)
    (hok : ∀ a s', Q (.ok a) s' → Runs h R (f a) s' Q')
    (herr : ∀ e s', Q (.error e) s' → Q' (.error e) s') : Runs h R (p >>= f) s Q' := by
  induction p generalizing s with
  | pure a => exact hok _ _ hp
  | throw e => exact herr _ _ hp
  | call op k ih => exact ⟨hp.1, ih _ hp.2⟩

/-- Only the end of the run counts. -/
theorem Runs.ending {p : Prog Op Res ε α} {Q : Except ε α → σ → Prop} (hp : Runs h R p s Q) :
    Runs h (fun _ _ => True) p s Q :=
  hp.mono (fun _ _ _ => trivial) fun _ _ hQ => hQ

/-- `Runs.bind`, when the exceptions of both parts end in the same way. -/
theorem Runs.andThen {p : Prog Op Res ε α} {f : α → Prog Op Res ε β} {P : α → σ → Prop}
    {P' : β → σ → Prop} {E : ε → σ → Prop} (hp : Runs h R p s (Ends P E))
    (hf : ∀ a s', P a s' → Runs h R (f a) s' (Ends P' E)) :
    Runs h R (p >>= f) s (Ends P' E) :=
  hp.bind hf fun _ _ he => he

theorem Runs.tryCatch {p : Prog Op Res ε α} {f : ε → Prog Op Res ε α}
    {Q Q' : Except ε α → σ → Prop} (hp : Runs h R p s Q)
    (hok : ∀ a s', Q (.ok a) s' → Q' (.ok a) s')
    (herr : ∀ e s', Q (.error e) s' → Runs h R (f e) s' Q') : Runs h R (p.tryCatch f) s Q' := by
  induction p generalizing s with
  | pure a => exact hok _ _ hp
  | throw e => exact herr _ _ hp
  | call op k ih => exact ⟨hp.1, ih _ hp.2⟩

/-- A loop keeps what each pass keeps, and stops with it at the first exception. -/
theorem Runs.foldlM {f : β → γ → Prog Op Res ε β} {I : β → σ → Prop} {E : ε → σ → Prop}
    (hstep : ∀ b c s, I b s → Runs h R (f b c) s (Ends I E)) :
    ∀ (l : List γ) (b : β) (s : σ), I b s → Runs h R (l.foldlM f b) s (Ends I E)
  | [], _, _, hb => hb
  | c :: l, b, s, hb => by
    rw [List.foldlM_cons]
    exact (hstep b c s hb).andThen fun b' s' hb' => Runs.foldlM hstep l b' s' hb'

theorem Runs.map {p : Prog Op Res ε α} {f : α → β} {Q : Except ε α → σ → Prop}
    {Q' : Except ε β → σ → Prop} (hp : Runs h R p s Q) (hQ : ∀ r s', Q r s' → Q' (r.map f) s') :
    Runs h R (f <$> p) s Q' :=
  hp.bind (fun a s' ha => hQ (.ok a) s' ha) fun e s' he => hQ (.error e) s' he

/-- The program keeps `I`, whether it returns or raises. -/
abbrev Keeps (h : Handler Op Res ε σ) (I : σ → Prop) (p : Prog Op Res ε α) (s : σ) : Prop :=
  Runs h (fun _ _ => True) p s fun _ s' => I s'

theorem Keeps.bind {I : σ → Prop} {p : Prog Op Res ε α} {f : α → Prog Op Res ε β}
    (hp : Keeps h I p s) (hf : ∀ a s', I s' → Keeps h I (f a) s') : Keeps h I (p >>= f) s :=
  Runs.bind hp hf fun _ _ hs' => hs'

theorem Keeps.tryCatch {I : σ → Prop} {p : Prog Op Res ε α} {f : ε → Prog Op Res ε α}
    (hp : Keeps h I p s) (hf : ∀ e s', I s' → Keeps h I (f e) s') : Keeps h I (p.tryCatch f) s :=
  Runs.tryCatch hp (fun _ _ hs' => hs') hf

theorem Keeps.foldlM {I : σ → Prop} {f : β → γ → Prog Op Res ε β}
    (hf : ∀ b c s, I s → Keeps h I (f b c) s) :
    ∀ (l : List γ) (b : β) (s : σ), I s → Keeps h I (l.foldlM f b) s
  | [], _, _, hs => hs
  | c :: l, b, s, hs => by
    rw [List.foldlM_cons]
    exact Keeps.bind (hf b c s hs) fun b' s' hs' => Keeps.foldlM hf l b' s' hs'

theorem Runs.run {p : Prog Op Res ε α} {Q : Except ε α → σ → Prop} (hp : Runs h R p s Q) :
    Q (p.run h s).1 (p.run h s).2 := by
  induction p generalizing s with
  | pure a => exact hp
  | throw e => exact hp
  | call op k ih => exact ih _ hp.2

/-- Where the calls are free, only the end of the run counts. -/
theorem runs_of_run {p : Prog Op Res ε α} {Q : Except ε α → σ → Prop}
    (hQ : Q (p.run h s).1 (p.run h s).2) : Runs h (fun _ _ => True) p s Q := by
  induction p generalizing s with
  | pure a => exact hQ
  | throw e => exact hQ
  | call op k ih => exact ⟨trivial, ih _ hQ⟩

end Runs

/-! ## The calls of a program -/

/-- Whatever the answers, the program makes only calls that satisfy `C`. -/
def Only (C : Op → Prop) : Prog Op Res ε α → Prop
  | .pure _ => True
  | .throw _ => True
  | .call op k => C op ∧ ∀ r, Only C (k r)

section Only

variable {C : Op → Prop}

theorem only_pure (a : α) : Only C (.pure a : Prog Op Res ε α) := trivial

theorem only_throw (e : ε) : Only C (.throw e : Prog Op Res ε α) := trivial

theorem only_lift (x : Except ε α) : Only C (lift x : Prog Op Res ε α) := by
  cases x <;> trivial

theorem only_perform {op : Op} (hop : C op) : Only C (perform op : Prog Op Res ε (Res op)) := by
  refine ⟨hop, fun r => ?_⟩
  cases r <;> trivial

theorem Only.mono {C' : Op → Prop} {p : Prog Op Res ε α} (hp : Only C p) (hC : ∀ op, C op → C' op) :
    Only C' p := by
  induction p with
  | pure a => trivial
  | throw e => trivial
  | call op k ih => exact ⟨hC op hp.1, fun r => ih r (hp.2 r)⟩

theorem Only.bind {p : Prog Op Res ε α} {f : α → Prog Op Res ε β} (hp : Only C p)
    (hf : ∀ a, Only C (f a)) : Only C (p >>= f) := by
  induction p with
  | pure a => exact hf a
  | throw e => trivial
  | call op k ih => exact ⟨hp.1, fun r => ih r (hp.2 r)⟩

theorem Only.foldlM {f : β → γ → Prog Op Res ε β} (hf : ∀ b c, Only C (f b c)) :
    ∀ (l : List γ) (b : β), Only C (l.foldlM f b)
  | [], _ => trivial
  | c :: l, b => by
    rw [List.foldlM_cons]
    exact (hf b c).bind fun b' => Only.foldlM hf l b'

theorem Only.tryCatch {p : Prog Op Res ε α} {f : ε → Prog Op Res ε α} (hp : Only C p)
    (hf : ∀ e, Only C (f e)) : Only C (p.tryCatch f) := by
  induction p with
  | pure a => trivial
  | throw e => exact hf e
  | call op k ih => exact ⟨hp.1, fun r => ih r (hp.2 r)⟩

/-- What every allowed call keeps holds at the end of a run. -/
theorem Only.runs_step {h : Handler Op Res ε σ} {R : σ → σ → Prop} {p : Prog Op Res ε α}
    (hp : Only C p) (I : σ → Prop)
    (hI : ∀ op s, C op → I s → R s (h op s).2 ∧ I (h op s).2) {s : σ} (hs : I s) :
    Runs h R p s fun _ s' => I s' := by
  induction p generalizing s with
  | pure a => exact hs
  | throw e => exact hs
  | call op k ih => exact ⟨(hI op s hp.1 hs).1, ih _ (hp.2 _) (hI op s hp.1 hs).2⟩

theorem Only.runs {h : Handler Op Res ε σ} {p : Prog Op Res ε α} (hp : Only C p) (I : σ → Prop)
    (hI : ∀ op s, C op → I s → I (h op s).2) {s : σ} (hs : I s) :
    Runs h (fun _ _ => True) p s fun _ s' => I s' :=
  hp.runs_step I (fun op s hop hs => ⟨trivial, hI op s hop hs⟩) hs

end Only

/-! ## The order of the calls -/

/-- What a program may call, as a function of a mode that its calls and their answers change. -/
structure Protocol (Op : Type) (Res : Op → Type) (ε μ : Type) where
  allowed : μ → Op → Prop
  next : μ → (op : Op) → Except ε (Res op) → μ

/-- From mode `m` on, whatever the answers, the program makes allowed calls only and ends in a mode
that satisfies `Q`. -/
def Follows {μ : Type} (A : Protocol Op Res ε μ) :
    μ → Prog Op Res ε α → (Except ε α → μ → Prop) → Prop
  | m, .pure a, Q => Q (.ok a) m
  | m, .throw e, Q => Q (.error e) m
  | m, .call op k, Q => A.allowed m op ∧ ∀ r, Follows A (A.next m op r) (k r) Q

section Follows

variable {μ : Type} {A : Protocol Op Res ε μ} {m : μ}

theorem follows_pure {a : α} {Q : Except ε α → μ → Prop} (hQ : Q (.ok a) m) :
    Follows A m (.pure a : Prog Op Res ε α) Q := hQ

theorem follows_lift {x : Except ε α} {Q : Except ε α → μ → Prop} (hQ : Q x m) :
    Follows A m (lift x : Prog Op Res ε α) Q := by
  cases x <;> exact hQ

theorem follows_perform {op : Op} {Q : Except ε (Res op) → μ → Prop} (hop : A.allowed m op)
    (hQ : ∀ r, Q r (A.next m op r)) : Follows A m (perform op) Q := by
  refine ⟨hop, fun r => ?_⟩
  cases r with
  | ok r => exact hQ _
  | error e => exact hQ _

/-- Calls that are allowed in a mode and do not change it. -/
theorem Only.follows {C : Op → Prop} {p : Prog Op Res ε α} (hp : Only C p)
    (hC : ∀ op, C op → A.allowed m op ∧ ∀ r, A.next m op r = m) :
    Follows A m p fun _ m' => m' = m := by
  induction p with
  | pure a => rfl
  | throw e => rfl
  | call op k ih =>
    refine ⟨(hC op hp.1).1, fun r => ?_⟩
    rw [(hC op hp.1).2 r]
    exact ih r (hp.2 r)

/-- Calls that are allowed in every mode. -/
theorem Only.follows_of_forall {C : Op → Prop} {p : Prog Op Res ε α} (hp : Only C p)
    (hC : ∀ op, C op → ∀ m, A.allowed m op) : Follows A m p fun _ _ => True := by
  induction p generalizing m with
  | pure a => trivial
  | throw e => trivial
  | call op k ih => exact ⟨hC op hp.1 m, fun r => ih r (hp.2 r)⟩

/-- Calls that are allowed where `I` holds of the mode, and keep it. -/
theorem Only.follows_keeps {C : Op → Prop} {p : Prog Op Res ε α} (hp : Only C p) (I : μ → Prop)
    (hC : ∀ op m, C op → I m → A.allowed m op ∧ ∀ r, I (A.next m op r)) (hm : I m) :
    Follows A m p fun _ m' => I m' := by
  induction p generalizing m with
  | pure a => exact hm
  | throw e => exact hm
  | call op k ih =>
    obtain ⟨hop, hnext⟩ := hC op m hp.1 hm
    exact ⟨hop, fun r => ih r (hp.2 r) (hnext r)⟩

theorem Follows.mono {p : Prog Op Res ε α} {Q Q' : Except ε α → μ → Prop}
    (hp : Follows A m p Q) (hQ : ∀ r m', Q r m' → Q' r m') : Follows A m p Q' := by
  induction p generalizing m with
  | pure a => exact hQ _ _ hp
  | throw e => exact hQ _ _ hp
  | call op k ih => exact ⟨hp.1, fun r => ih r (hp.2 r)⟩

theorem Follows.bind {p : Prog Op Res ε α} {f : α → Prog Op Res ε β}
    {Q : Except ε α → μ → Prop} {Q' : Except ε β → μ → Prop} (hp : Follows A m p Q)
    (hok : ∀ a m', Q (.ok a) m' → Follows A m' (f a) Q')
    (herr : ∀ e m', Q (.error e) m' → Q' (.error e) m') : Follows A m (p >>= f) Q' := by
  induction p generalizing m with
  | pure a => exact hok _ _ hp
  | throw e => exact herr _ _ hp
  | call op k ih => exact ⟨hp.1, fun r => ih r (hp.2 r)⟩

theorem Follows.andThen {p : Prog Op Res ε α} {f : α → Prog Op Res ε β} {P : α → μ → Prop}
    {P' : β → μ → Prop} {E : ε → μ → Prop} (hp : Follows A m p (Ends P E))
    (hf : ∀ a m', P a m' → Follows A m' (f a) (Ends P' E)) :
    Follows A m (p >>= f) (Ends P' E) :=
  hp.bind hf fun _ _ he => he

theorem Follows.tryCatch {p : Prog Op Res ε α} {f : ε → Prog Op Res ε α}
    {Q Q' : Except ε α → μ → Prop} (hp : Follows A m p Q)
    (hok : ∀ a m', Q (.ok a) m' → Q' (.ok a) m')
    (herr : ∀ e m', Q (.error e) m' → Follows A m' (f e) Q') : Follows A m (p.tryCatch f) Q' := by
  induction p generalizing m with
  | pure a => exact hok _ _ hp
  | throw e => exact herr _ _ hp
  | call op k ih => exact ⟨hp.1, fun r => ih r (hp.2 r)⟩

theorem Follows.map {p : Prog Op Res ε α} {f : α → β} {Q : Except ε α → μ → Prop}
    {Q' : Except ε β → μ → Prop} (hp : Follows A m p Q)
    (hQ : ∀ r m', Q r m' → Q' (r.map f) m') : Follows A m (f <$> p) Q' :=
  hp.bind (fun a m' ha => hQ (.ok a) m' ha) fun e m' he => hQ (.error e) m' he

theorem Follows.foldlM {f : β → γ → Prog Op Res ε β} {I : β → μ → Prop} {E : ε → μ → Prop}
    (hstep : ∀ b c m, I b m → Follows A m (f b c) (Ends I E)) :
    ∀ (l : List γ) (b : β) (m : μ), I b m → Follows A m (l.foldlM f b) (Ends I E)
  | [], _, _, hb => hb
  | c :: l, b, m, hb => by
    rw [List.foldlM_cons]
    exact (hstep b c m hb).andThen fun b' m' hb' => Follows.foldlM hstep l b' m' hb'

/-- What the allowed calls keep of the state and the mode holds of them at the end of a run. -/
theorem Follows.run {σ : Type} {h : Handler Op Res ε σ} {J : σ → μ → Prop}
    (hJ : ∀ s m op, J s m → A.allowed m op → J (h op s).2 (A.next m op (h op s).1))
    {p : Prog Op Res ε α} {Q : Except ε α → μ → Prop} (hp : Follows A m p Q) {s : σ} (hs : J s m) :
    ∃ m', J (p.run h s).2 m' ∧ Q (p.run h s).1 m' := by
  induction p generalizing m s with
  | pure a => exact ⟨m, hs, hp⟩
  | throw e => exact ⟨m, hs, hp⟩
  | call op k ih => exact ih _ (hp.2 _) (hJ s m op hs hp.1)

/-- Each call of a run is allowed in a mode that has to do with the state it is made in. -/
theorem Follows.trace {σ : Type} {h : Handler Op Res ε σ} {J : σ → μ → Prop}
    (hJ : ∀ s m op, J s m → A.allowed m op → J (h op s).2 (A.next m op (h op s).1))
    {p : Prog Op Res ε α} {Q : Except ε α → μ → Prop} (hp : Follows A m p Q) {s : σ} (hs : J s m) :
    ∀ x ∈ p.trace h s, ∃ m', J x.2 m' ∧ A.allowed m' x.1 := by
  induction p generalizing m s with
  | pure a => simp [Prog.trace]
  | throw e => simp [Prog.trace]
  | call op k ih =>
    intro x hx
    rcases List.mem_cons.1 hx with rfl | hx
    · exact ⟨m, hs, hp.1⟩
    · exact ih _ (hp.2 _) (hJ s m op hs hp.1) x hx

end Follows

end Prog
