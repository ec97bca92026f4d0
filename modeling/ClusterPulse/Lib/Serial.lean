import ClusterPulse.Lib.Program

/-!
# Programs run one after the other

`serial` runs programs in turn, each to its end, whatever the others return or raise.  `timeline`
lists the steps of such a run, one for each call, each labelled with the program that made it.

`timeline_linked` turns one `Runs` judgement for each program into a relation between the states
around every step, `Linked.invariant` gives what holds in every state of the run, and
`Linked.pairwise` relates any earlier state to any later one.
-/

namespace Prog

variable {Op : Type} {Res : Op → Type} {ε α σ L : Type}

/-- Run `p` and drop its result or exception. -/
def attempt (p : Prog Op Res ε α) : Prog Op Res ε Unit :=
  (p >>= fun _ => pure ()).tryCatch fun _ => pure ()

/-- Run the programs one after the other, each to its end. -/
def serial : List (Prog Op Res ε α) → Prog Op Res ε Unit
  | [] => .pure ()
  | p :: ps => p.attempt >>= fun _ => serial ps

/-- The states around the successive calls of a run. -/
def steps (h : Handler Op Res ε σ) : Prog Op Res ε α → σ → List (σ × σ)
  | .pure _, _ => []
  | .throw _, _ => []
  | .call op k, s => (s, (h op s).2) :: (k (h op s).1).steps h (h op s).2

/-- One call of a serial run. -/
structure Step (L σ : Type) where
  label : L
  before : σ
  after : σ

/-- The calls of a serial run of the programs with these labels. -/
def timeline (h : Handler Op Res ε σ) (prog : L → Prog Op Res ε α) : List L → σ → List (Step L σ)
  | [], _ => []
  | l :: ls, s =>
    ((prog l).steps h s).map (fun x => ⟨l, x.1, x.2⟩) ++ timeline h prog ls ((prog l).run h s).2

variable {h : Handler Op Res ε σ} {s : σ}

/-! ## The final state -/

theorem run_attempt (p : Prog Op Res ε α) (s : σ) :
    p.attempt.run h s = (.ok (), (p.run h s).2) := by
  unfold attempt
  rw [run_tryCatch, run_bind]
  rcases p.run h s with ⟨_ | a, s'⟩ <;> rfl

theorem trace_attempt (p : Prog Op Res ε α) (s : σ) : p.attempt.trace h s = p.trace h s := by
  unfold attempt
  rw [trace_tryCatch, trace_bind, run_bind]
  rcases p.run h s with ⟨_ | a, s'⟩ <;> simp [trace]

@[simp] theorem run_serial_nil (s : σ) :
    (serial ([] : List (Prog Op Res ε α))).run h s = (.ok (), s) := rfl

@[simp] theorem run_serial_cons (p : Prog Op Res ε α) (ps : List (Prog Op Res ε α)) (s : σ) :
    (serial (p :: ps)).run h s = (serial ps).run h (p.run h s).2 := by
  rw [serial, run_bind, run_attempt]

theorem run_serial_append (ps qs : List (Prog Op Res ε α)) (s : σ) :
    ((serial (ps ++ qs)).run h s).2 = ((serial qs).run h ((serial ps).run h s).2).2 := by
  induction ps generalizing s with
  | nil => rfl
  | cons p ps ih => rw [List.cons_append, run_serial_cons, run_serial_cons, ih]

theorem trace_serial_cons (p : Prog Op Res ε α) (ps : List (Prog Op Res ε α)) (s : σ) :
    (serial (p :: ps)).trace h s = p.trace h s ++ (serial ps).trace h (p.run h s).2 := by
  rw [serial, trace_bind, trace_attempt, run_attempt]

/-- An invariant of each program is an invariant of the serial run. -/
theorem run_serial_invariant (I : σ → Prop) {ps : List (Prog Op Res ε α)}
    (hI : ∀ p ∈ ps, ∀ s, I s → I (p.run h s).2) (hs : I s) : I ((serial ps).run h s).2 := by
  induction ps generalizing s with
  | nil => exact hs
  | cons p ps ih =>
    rw [run_serial_cons]
    exact ih (fun q hq => hI q (List.mem_cons_of_mem _ hq)) (hI p List.mem_cons_self s hs)

/-! ## The steps -/

theorem steps_congr {h' : Handler Op Res ε σ} {p : Prog Op Res ε α}
    (hagree : ∀ x ∈ p.trace h s, h' x.1 x.2 = h x.1 x.2) : p.steps h' s = p.steps h s := by
  induction p generalizing s with
  | pure a => rfl
  | throw e => rfl
  | call op k ih =>
    have hop : h' op s = h op s := hagree (op, s) List.mem_cons_self
    unfold steps
    rw [hop, ih _ fun x hx => hagree x (List.mem_cons_of_mem _ hx)]

/-- Handlers that answer the calls of a serial run alike give the same run. -/
theorem timeline_congr {h' : Handler Op Res ε σ} {prog : L → Prog Op Res ε α} {ls : List L}
    (hagree : ∀ x ∈ (serial (ls.map prog)).trace h s, h' x.1 x.2 = h x.1 x.2) :
    timeline h' prog ls s = timeline h prog ls s := by
  induction ls generalizing s with
  | nil => rfl
  | cons l ls ih =>
    rw [List.map_cons, trace_serial_cons] at hagree
    have hfirst : ∀ x ∈ (prog l).trace h s, h' x.1 x.2 = h x.1 x.2 := fun x hx =>
      hagree x (List.mem_append_left _ hx)
    have hrest := ih fun x hx => hagree x (List.mem_append_right _ hx)
    unfold timeline
    rw [steps_congr hfirst, run_congr hfirst, hrest]

/-- Each step starts where the one before it ended, and relates its states by `R`. -/
def Linked (R : L → σ → σ → Prop) : σ → List (Step L σ) → Prop
  | _, [] => True
  | s, x :: T => x.before = s ∧ R x.label x.before x.after ∧ Linked R x.after T

variable {R : L → σ → σ → Prop} {T : List (Step L σ)}

theorem Linked.append_steps {l : L} {p : Prog Op Res ε α} {Q : Except ε α → σ → Prop}
    (hp : Runs h (R l) p s Q) (hT : Linked R (p.run h s).2 T) :
    Linked R s ((p.steps h s).map (fun x => ⟨l, x.1, x.2⟩) ++ T) := by
  induction p generalizing s with
  | pure a => exact hT
  | throw e => exact hT
  | call op k ih => exact ⟨rfl, hp.1, ih _ hp.2 hT⟩

/-- Programs that keep `I` from their start to their end, and relate the states around each of
their calls by `R`, make a linked run. -/
theorem timeline_linked {prog : L → Prog Op Res ε α} {I : σ → Prop} {ls : List L}
    (hprog : ∀ l ∈ ls, ∀ s, I s → Runs h (R l) (prog l) s fun _ s' => I s') (hs : I s) :
    Linked R s (timeline h prog ls s) := by
  induction ls generalizing s with
  | nil => trivial
  | cons l ls ih =>
    have hl := hprog l List.mem_cons_self s hs
    exact .append_steps hl (ih (fun l' hl' => hprog l' (List.mem_cons_of_mem _ hl')) hl.run)

theorem Linked.mem (hT : Linked R s T) : ∀ x ∈ T, R x.label x.before x.after := by
  induction T generalizing s with
  | nil => simp
  | cons y T ih =>
    intro x hx
    rcases List.mem_cons.1 hx with rfl | hx
    · exact hT.2.1
    · exact ih hT.2.2 x hx

theorem Linked.invariant (I : σ → Prop) (hI : ∀ l s s', R l s s' → I s → I s')
    (hT : Linked R s T) (hs : I s) : ∀ x ∈ T, I x.before ∧ I x.after := by
  induction T generalizing s with
  | nil => simp
  | cons y T ih =>
    obtain ⟨rfl, hR, hT⟩ := hT
    have hy := hI _ _ _ hR hs
    intro x hx
    rcases List.mem_cons.1 hx with rfl | hx
    · exact ⟨hs, hy⟩
    · exact ih hT hy x hx

theorem Linked.le_after (S : σ → σ → Prop) (htrans : ∀ a b c, S a b → S b c → S a c)
    (hS : ∀ l s s', R l s s' → S s s') {a : σ} (ha : S a s) (hT : Linked R s T) :
    ∀ x ∈ T, S a x.after := by
  induction T generalizing s with
  | nil => simp
  | cons y T ih =>
    obtain ⟨rfl, hR, hT⟩ := hT
    have hy := htrans _ _ _ ha (hS _ _ _ hR)
    intro x hx
    rcases List.mem_cons.1 hx with rfl | hx
    · exact hy
    · exact ih hy hT x hx

/-- A preorder that contains every step relates each state of the run to all later ones. -/
theorem Linked.pairwise (S : σ → σ → Prop) (hrefl : ∀ a, S a a) (htrans : ∀ a b c, S a b → S b c → S a c)
    (hS : ∀ l s s', R l s s' → S s s') (hT : Linked R s T) {i j : ℕ} (hij : i ≤ j)
    {x y : Step L σ} (hx : T[i]? = some x) (hy : T[j]? = some y) : S x.before y.after := by
  induction T generalizing s i j with
  | nil => simp at hx
  | cons z T ih =>
    obtain ⟨rfl, hR, hT⟩ := hT
    cases i with
    | zero =>
      obtain rfl : z = x := by simpa using hx
      have hz : Linked R z.before (z :: T) := ⟨rfl, hR, hT⟩
      exact hz.le_after S htrans hS (hrefl _) y (List.mem_of_getElem? hy)
    | succ i =>
      obtain ⟨j, rfl⟩ := Nat.exists_eq_succ_of_ne_zero (Nat.ne_of_gt (Nat.lt_of_lt_of_le
        (Nat.succ_pos i) hij))
      exact ih hT (Nat.le_of_succ_le_succ hij) (by simpa using hx) (by simpa using hy)

end Prog
