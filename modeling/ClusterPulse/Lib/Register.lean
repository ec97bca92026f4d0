import Mathlib.Data.List.Induction
import Mathlib.Data.List.Perm.Basic

/-!
# A register that events overwrite

Each event writes a value to a register or leaves it alone.  Whatever the order of the events, the
register ends with what the last write left, so two orders of the same events agree exactly if their
last writes do.
-/

namespace Register

variable {α β : Type} (writes : α → Option β)

/-- The register after the events, from the value `b`. -/
def after (b : β) (events : List α) : β := events.foldl (fun b a => (writes a).getD b) b

/-- What the last write among the events leaves; none, if no event writes. -/
def last (events : List α) : Option β := (events.filterMap writes).getLast?

variable {writes} {b : β} {a : α} {events events' : List α}

@[simp] theorem after_nil : after writes b [] = b := rfl

@[simp] theorem after_cons :
    after writes b (a :: events) = after writes ((writes a).getD b) events := rfl

theorem after_append :
    after writes b (events ++ events') = after writes (after writes b events) events' :=
  List.foldl_append

/-- The order of the events matters through the last write only. -/
theorem after_eq : after writes b events = (last writes events).getD b := by
  induction events using List.reverseRecOn with
  | nil => rfl
  | append_singleton events a ih =>
    rw [after_append, ih, after_cons, after_nil]
    unfold last
    rw [List.filterMap_append]
    cases h : writes a with
    | none => simp [h]
    | some c => simp [h]

theorem last_eq_none_iff : last writes events = none ↔ ∀ a ∈ events, writes a = none := by
  unfold last
  rw [List.getLast?_eq_none_iff, List.filterMap_eq_nil_iff]

theorem last_eq_none_iff_of_perm (h : events.Perm events') :
    last writes events = none ↔ last writes events' = none := by
  simp only [last_eq_none_iff, h.mem_iff]

/-- Two orders of the same events leave the same value exactly if their last writes do. -/
theorem after_eq_after_iff (h : events.Perm events') :
    after writes b events = after writes b events' ↔ last writes events = last writes events' := by
  rw [after_eq, after_eq]
  have hnone : last writes events = none ↔ last writes events' = none := last_eq_none_iff_of_perm h
  cases hlast : last writes events with
  | none => simp [hnone.1 hlast]
  | some c =>
    cases hlast' : last writes events' with
    | none => simp [hnone.2 hlast'] at hlast
    | some c' => simp

end Register
