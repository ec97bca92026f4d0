import Mathlib.Data.List.Flatten
import Mathlib.Data.List.Perm.Subperm

/-!
# A lossy link between a client and a server

A `Link` holds the requests that are on their way to the server and the responses that are on their
way back.  Any of them can be lost, and requests can be served in any order; an `Attempt` tells
apart requests with the same content, so that a response answers one attempt only.

A response can carry things of which there is only one each.  `carried` lists what the responses in
flight carry: nothing but the server adds to it, and what a client takes from the link is no longer
on it.
-/

/-- One attempt at a request. -/
structure Attempt (Req : Type) where
  number : ℕ
  request : Req
deriving DecidableEq

/-- The messages in flight. -/
structure Link (Req Resp : Type) where
  /-- The number of attempts so far. -/
  attempts : ℕ := 0
  requests : List (Attempt Req) := []
  responses : List (Attempt Req × Resp) := []

namespace Link

variable {Req Resp τ : Type}

/-- The client starts an attempt. -/
def send (l : Link Req Resp) (request : Req) : Link Req Resp :=
  { l with attempts := l.attempts + 1, requests := l.requests ++ [⟨l.attempts, request⟩] }

/-- The `i`-th request in flight is lost. -/
def loseRequest (l : Link Req Resp) (i : ℕ) : Link Req Resp :=
  { l with requests := l.requests.eraseIdx i }

/-- The `i`-th response in flight is lost. -/
def loseResponse (l : Link Req Resp) (i : ℕ) : Link Req Resp :=
  { l with responses := l.responses.eraseIdx i }

/-- The server has served the `i`-th request in flight, the attempt `a`. -/
def respond (l : Link Req Resp) (i : ℕ) (a : Attempt Req) (r : Resp) : Link Req Resp :=
  { l with requests := l.requests.eraseIdx i, responses := l.responses ++ [(a, r)] }

/-- The client takes the `i`-th response in flight, if it answers the attempt `a`. -/
def receive [DecidableEq Req] (l : Link Req Resp) (i : ℕ) (a : Attempt Req) :
    Option (Resp × Link Req Resp) :=
  match l.responses[i]? with
  | some (a', r) => if a' = a then some (r, l.loseResponse i) else none
  | none => none

/-- What the responses in flight carry. -/
def carried (f : Req → Resp → List τ) (l : Link Req Resp) : List τ :=
  l.responses.flatMap fun x => f x.1.request x.2

variable {f : Req → Resp → List τ} {l : Link Req Resp} {i : ℕ} {a : Attempt Req} {r : Resp}

@[simp] theorem carried_empty : carried f ({} : Link Req Resp) = [] := rfl

@[simp] theorem carried_send (request : Req) : carried f (l.send request) = carried f l := rfl

@[simp] theorem carried_loseRequest : carried f (l.loseRequest i) = carried f l := rfl

theorem carried_respond : carried f (l.respond i a r) = carried f l ++ f a.request r := by
  unfold carried respond
  rw [List.flatMap_append, List.flatMap_singleton]

theorem carried_loseResponse : (carried f (l.loseResponse i)).Sublist (carried f l) := by
  unfold carried
  exact (List.eraseIdx_sublist l.responses i).flatMap _

theorem carried_receive [DecidableEq Req] {l' : Link Req Resp} (h : l.receive i a = some (r, l')) :
    (f a.request r ++ carried f l').Perm (carried f l) := by
  unfold receive at h
  split at h
  · rename_i a' r' hi
    split_ifs at h with ha
    obtain ⟨rfl, rfl⟩ := Prod.mk.inj (Option.some.inj h)
    obtain ⟨hlt, hx⟩ := List.getElem?_eq_some_iff.1 hi
    have hperm := List.getElem_cons_eraseIdx_perm hlt
    rw [hx] at hperm
    subst ha
    exact hperm.flatMap_right fun x => f x.1.request x.2
  · cases h

theorem requests_receive [DecidableEq Req] {l' : Link Req Resp}
    (h : l.receive i a = some (r, l')) : l'.requests = l.requests := by
  unfold receive at h
  split at h
  · split_ifs at h
    obtain ⟨-, rfl⟩ := Prod.mk.inj (Option.some.inj h)
    rfl
  · cases h

end Link
