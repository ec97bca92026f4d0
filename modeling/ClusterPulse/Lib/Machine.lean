import Mathlib.Data.List.Infix

/-!
# Machines

A machine is a step function on a type of states, driven by events; an event that cannot happen
leaves the state as it is.  `Throughout` says that every state of a run has a property, and `Meets`
that every event of it meets a condition on the state it comes in.

`throughout_iff_meets` is the rule for the exact condition of a property: what keeps an invariant
behind the property, and what the property of the next state forces.  `meets_iff_meets` carries a
condition over to a second machine that represents the first.
-/

namespace Machine

variable {σ E : Type} (step : σ → E → σ)

/-- The state after some events. -/
def run (s : σ) (events : List E) : σ := events.foldl step s

/-- `Q` holds of every state the run goes through, the first and the last included. -/
def Throughout (Q : σ → Prop) : σ → List E → Prop
  | s, [] => Q s
  | s, e :: events => Q s ∧ Throughout Q (step s e) events

/-- Every event of the run meets `C` in the state before it. -/
def Meets (C : σ → E → Prop) : σ → List E → Prop
  | _, [] => True
  | s, e :: events => C s e ∧ Meets C (step s e) events

instance Meets.decidable (C : σ → E → Prop) [∀ s e, Decidable (C s e)] :
    (s : σ) → (events : List E) → Decidable (Meets step C s events)
  | _, [] => inferInstanceAs (Decidable True)
  | s, e :: events =>
    have := Meets.decidable C (step s e) events
    inferInstanceAs (Decidable (C s e ∧ Meets step C (step s e) events))

variable {step} {Q : σ → Prop} {C : σ → E → Prop} {s : σ} {events : List E}

theorem Throughout.first (h : Throughout step Q s events) : Q s := by
  cases events with
  | nil => exact h
  | cons e events => exact h.1

theorem Throughout.last (h : Throughout step Q s events) : Q (run step s events) := by
  induction events generalizing s with
  | nil => exact h
  | cons e events ih => exact ih h.2

/-- What an invariant implies of an event holds at every event. -/
theorem meets_of_invariant (I : σ → Prop) (hI : ∀ s e, I s → I (step s e))
    (hC : ∀ s e, I s → C s e) (hs : I s) : Meets step C s events := by
  induction events generalizing s with
  | nil => trivial
  | cons e events ih => exact ⟨hC s e hs, ih (hI s e hs)⟩

/-- What each event that meets the condition does to the state, the run does. -/
theorem Meets.run_of_step {R : σ → σ → Prop} (hrefl : ∀ s, R s s)
    (htrans : ∀ s t u, R s t → R t u → R s u) (hstep : ∀ s e, C s e → R s (step s e))
    (h : Meets step C s events) : R s (run step s events) := by
  induction events generalizing s with
  | nil => exact hrefl s
  | cons e events ih => exact htrans _ _ _ (hstep s e h.1) (ih h.2)

/-- If the condition keeps an invariant that has the property, and the property of the next state
forces the condition, then the condition is exact. -/
theorem throughout_iff_meets (I : σ → Prop) (hQ : ∀ s, I s → Q s)
    (hI : ∀ s e, I s → C s e → I (step s e)) (hC : ∀ s e, I s → Q (step s e) → C s e) (hs : I s) :
    Throughout step Q s events ↔ Meets step C s events := by
  induction events generalizing s with
  | nil => exact iff_of_true (hQ s hs) trivial
  | cons e events ih =>
    constructor
    · rintro ⟨-, h⟩
      have he := hC s e hs h.first
      exact ⟨he, (ih (hI s e hs he)).1 h⟩
    · rintro ⟨he, h⟩
      exact ⟨hQ s hs, (ih (hI s e hs he)).2 h⟩

/-- A relation to the states of a second machine that every step keeps whose condition is met, and
under which the two conditions agree. -/
theorem meets_iff_meets {σ' : Type} {step' : σ' → E → σ'} {C' : σ' → E → Prop} {s' : σ'}
    (R : σ → σ' → Prop) (hR : ∀ s s' e, R s s' → C' s' e → R (step s e) (step' s' e))
    (hC : ∀ s s' e, R s s' → (C s e ↔ C' s' e)) (hs : R s s') :
    Meets step C s events ↔ Meets step' C' s' events := by
  induction events generalizing s s' with
  | nil => exact Iff.rfl
  | cons e events ih =>
    constructor
    · rintro ⟨he, h⟩
      have he' := (hC s s' e hs).1 he
      exact ⟨he', (ih (hR s s' e hs he')).1 h⟩
    · rintro ⟨he', h⟩
      exact ⟨(hC s s' e hs).2 he', (ih (hR s s' e hs he')).2 h⟩

end Machine
