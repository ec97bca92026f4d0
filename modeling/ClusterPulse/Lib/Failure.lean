import ClusterPulse.Lib.Program

/-!
# Failed calls

`Propagates` says that a program handles no failed call; such a program ends with its first failed
call, in the state that this call leaves.
-/

namespace Prog

variable {Op : Type} {Res : Op → Type} {ε α β γ σ : Type} {h : Handler Op Res ε σ} {s : σ}

/-- What every allowed call keeps holds whenever the program makes a call. -/
theorem Only.trace {C : Op → Prop} {p : Prog Op Res ε α} (hp : Only C p) (I : σ → Prop)
    (hI : ∀ op s, C op → I s → I (h op s).2) (hs : I s) : ∀ x ∈ p.trace h s, I x.2 := by
  induction p generalizing s with
  | pure a => simp [Prog.trace]
  | throw e => simp [Prog.trace]
  | call op k ih =>
    intro x hx
    rcases List.mem_cons.1 hx with rfl | hx
    · exact hs
    · exact ih _ (hp.2 _) (hI op s hp.1 hs) x hx

/-! ## Programs that handle no failure -/

/-- The program ends with the exception of the first call that fails. -/
def Propagates : Prog Op Res ε α → Prop
  | .pure _ => True
  | .throw _ => True
  | .call _ k => (∀ e, k (.error e) = .throw e) ∧ ∀ a, (k (.ok a)).Propagates

theorem propagates_pure (a : α) : (Prog.pure a : Prog Op Res ε α).Propagates := trivial

theorem propagates_perform (op : Op) : (perform op : Prog Op Res ε (Res op)).Propagates :=
  ⟨fun _ => rfl, fun _ => trivial⟩

theorem propagates_lift (x : Except ε α) : (lift x : Prog Op Res ε α).Propagates := by
  cases x <;> trivial

theorem Propagates.bind {p : Prog Op Res ε α} {f : α → Prog Op Res ε β} (hp : p.Propagates)
    (hf : ∀ a, (f a).Propagates) : (p >>= f).Propagates := by
  induction p with
  | pure a => exact hf a
  | throw e => trivial
  | call op k ih =>
    refine ⟨fun e => ?_, fun a => ih _ (hp.2 a)⟩
    show k (.error e) >>= f = .throw e
    rw [hp.1 e, throw_bind]

theorem Propagates.foldlM {f : β → γ → Prog Op Res ε β} (hf : ∀ b c, (f b c).Propagates) :
    ∀ (l : List γ) (b : β), (l.foldlM f b).Propagates
  | [], _ => trivial
  | c :: l, b => by
    rw [List.foldlM_cons]
    exact (hf b c).bind fun b' => Propagates.foldlM hf l b'

/-- The run ends with a failed call. -/
theorem Propagates.run_of_failed {p : Prog Op Res ε α} (hp : p.Propagates) {x : Op × σ}
    (hx : x ∈ p.trace h s) {e : ε} {s' : σ} (hfail : h x.1 x.2 = (.error e, s')) :
    p.run h s = (.error e, s') := by
  induction p generalizing s with
  | pure a => cases hx
  | throw e => cases hx
  | call op k ih =>
    rcases List.mem_cons.1 hx with rfl | hx
    · rw [run_call, hfail, hp.1 e, run_throw]
    · rw [run_call]
      rcases hr : (h op s).1 with e' | a
      · -- an earlier failed call would have ended the run
        rw [hr, hp.1 e'] at hx
        cases hx
      · rw [hr] at hx
        exact ih _ (hp.2 a) hx

end Prog
