import ClusterPulse.Agent.Transport
import ClusterPulse.Collector.Operations

/-!
# How a delivery ends

One attempt of `HttpTransport` ends in an answer or in an exception that `_post` classifies; the
retry policy makes the next attempt after a retryable one.  A delivery should end in a result or in
a `TransportError`, with one more attempt after each transient failure and none after a rejection.
It does exactly if its body can be encoded and the first outcome that is neither a timeout, a refused
connection nor a server error is a rejection or an answer that can be read; any other exception of
httpx, and an answer that is no acknowledgement, goes past the retry policy and past every caller.
-/

namespace ClusterPulse

open Prog

/-! ## The retry policy -/

namespace HttpTransport

section Retry

variable {Op : Type} {Res : Op → Type} {α σ : Type}

/-- The attempts go on as long as they raise retryable errors, and the last one decides. -/
theorem run_retry {h : Handler Op Res AgentError σ} {p : Prog Op Res AgentError α} {s : ℕ → σ}
    {r : ℕ → Except AgentError α} (hp : ∀ k, p.run h (s k) = (r k, s (k + 1))) (more k : ℕ) :
    ∃ m ≤ more, (retry more p).run h (s k) = (r (k + m), s (k + m + 1)) ∧
      (∀ j < m, ∃ e, r (k + j) = .error e ∧ e.isRetryable = true) ∧
      (m = more ∨ ∀ e, r (k + m) = .error e → e.isRetryable = false) := by
  induction more generalizing k with
  | zero => exact ⟨0, le_rfl, hp k, fun j hj => absurd hj (Nat.not_lt_zero j), .inl rfl⟩
  | succ more ih =>
    rw [retry, run_tryCatch, hp k]
    cases hr : r k with
    | ok a =>
      refine ⟨0, Nat.zero_le _, ?_, fun j hj => absurd hj (Nat.not_lt_zero j), .inr fun e he => ?_⟩
      · exact congrArg (·, s (k + 1)) hr.symm
      · cases hr.symm.trans he
    | error e =>
      by_cases he : e.isRetryable = true
      · obtain ⟨m, hm, hrun, hbefore, hlast⟩ := ih (k + 1)
        refine ⟨m + 1, by omega, ?_, fun j hj => ?_, ?_⟩
        · dsimp only
          rw [if_pos he, hrun, Nat.add_assoc k 1 m, Nat.add_comm 1 m]
        · cases j with
          | zero => exact ⟨e, hr, he⟩
          | succ j =>
            obtain ⟨e', he'⟩ := hbefore j (by omega)
            exact ⟨e', by rwa [Nat.add_assoc k 1 j, Nat.add_comm 1 j] at he'⟩
        · rw [Nat.add_assoc k 1 m, Nat.add_comm 1 m] at hlast
          exact hlast.imp (congrArg (· + 1)) id
      · refine ⟨0, Nat.zero_le _, ?_, fun j hj => absurd hj (Nat.not_lt_zero j),
          .inr fun e' he' => ?_⟩
        · dsimp only
          rw [if_neg he]
          exact congrArg (·, s (k + 1)) hr.symm
        · obtain rfl := Except.error.inj (hr.symm.trans he')
          exact Bool.eq_false_of_not_eq_true he

end Retry

end HttpTransport

/-! ## What comes of a request -/

/-- The subclasses of `httpx.NetworkError`. -/
def HttpxError.isNetworkError : HttpxError → Bool
  | connectError | readError | writeError | closeError => true
  | _ => false

/-- How the transport takes an outcome. -/
inductive OutcomeKind where
  /-- A timeout, a connection that could not be made, or a server error. -/
  | retried
  | rejected
  | read
  /-- Another exception, or an answer that cannot be read. -/
  | unclassified
deriving DecidableEq, Repr

/-- What comes of one HTTP request. -/
inductive HttpOutcome where
  | raised (error : HttpxError) (message : String)
  | answered (response : HttpResponse)
deriving DecidableEq, Repr

namespace HttpOutcome

open HttpTransport (httpServerErrorThreshold httpClientErrorThreshold)

def result : HttpOutcome → Except AgentError HttpResponse
  | raised error message => .error (.httpxError error message)
  | answered response => .ok response

/-- A failure of the network, or a server error. -/
def isTransient : HttpOutcome → Bool
  | raised error _ => error.isTimeout || error.isNetworkError
  | answered response => httpServerErrorThreshold ≤ response.statusCode

/-- A client error. -/
def isRejection : HttpOutcome → Bool
  | raised .. => false
  | answered response =>
    httpClientErrorThreshold ≤ response.statusCode && response.statusCode < httpServerErrorThreshold

/-- The kind of an outcome, where only the answers in `readable` can be read. -/
def kind (readable : HttpResponse → Bool) : HttpOutcome → OutcomeKind
  | raised error _ =>
    if error.isTimeout || error == .connectError then .retried else .unclassified
  | answered response =>
    if httpServerErrorThreshold ≤ response.statusCode then .retried
    else if httpClientErrorThreshold ≤ response.statusCode then .rejected
    else if readable response then .read
    else .unclassified

/-- What `_post` makes of it. -/
def posted (request : HttpRequest) : HttpOutcome → Except AgentError HttpResponse
  | raised error message => .error (HttpTransport.classify request (.httpxError error message))
  | answered response => HttpTransport.checkStatus response

end HttpOutcome

/-- The network, that lets the `k`-th request come to `outcomes k`. -/
def network (outcomes : ℕ → HttpOutcome) :
    Handler HttpRequest (fun _ => HttpResponse) AgentError ℕ :=
  fun _ k => ((outcomes k).result, k + 1)

/-- A transport whose client makes every request over the network. -/
def HttpTransport.overNetwork (retryAttempts : ℤ) :
    HttpTransport HttpRequest fun _ => HttpResponse := ⟨Prog.perform, retryAttempts⟩

/-- The attempts a delivery may make. -/
def HttpTransport.maxAttempts {Op : Type} {Res : Op → Type} (t : HttpTransport Op Res) : ℕ :=
  (t.retryAttempts - 1).toNat + 1

/-! ## One attempt -/

namespace HttpTransport

variable {outcomes : ℕ → HttpOutcome} {retryAttempts : ℤ}

theorem run_post (request : HttpRequest) (h : request.isFinite = true) (k : ℕ) :
    ((overNetwork retryAttempts).post request).run (network outcomes) k =
      ((outcomes k).posted request, k + 1) := by
  unfold post
  rw [clientPost_eq h, run_bind, run_tryCatch]
  unfold overNetwork
  rw [run_perform]
  unfold network
  cases outcomes k with
  | raised error message => rfl
  | answered response =>
    simp only [HttpOutcome.result, HttpOutcome.posted]
    cases checkStatus response <;> rfl

theorem run_sendOnce {payload : NodeMetricsPayload} (h : payload.isFinite = true) (k : ℕ) :
    ((overNetwork retryAttempts).sendOnce payload).run (network outcomes) k =
      ((outcomes k).posted (.metrics payload) >>= decodeAck, k + 1) := by
  unfold sendOnce
  rw [run_bind, run_post (.metrics payload) h]
  cases (outcomes k).posted (.metrics payload) with
  | error e => rfl
  | ok response =>
    show (Prog.lift (decodeAck response)).run (network outcomes) (k + 1) = (decodeAck response, k + 1)
    cases decodeAck response <;> rfl

theorem run_reportActionResultOnce (actionId : ℕ) (result : ActionResult) (k : ℕ) :
    ((overNetwork retryAttempts).reportActionResultOnce actionId result).run (network outcomes) k =
      (((outcomes k).posted (.actionResult actionId result)).map fun _ => (), k + 1) := by
  unfold reportActionResultOnce
  rw [run_bind, run_post (.actionResult actionId result) rfl]
  cases (outcomes k).posted (.actionResult actionId result) <;> rfl

end HttpTransport

/-- An attempt that comes to an outcome of this kind can end so. -/
def OutcomeKind.EndsIn {α : Type} (r : Except AgentError α) : OutcomeKind → Prop
  | retried => ∃ e, r = .error e ∧ e.isRetryable = true
  | rejected => ∃ e, r = .error e ∧ e.isFatal = true
  | read => ∃ a, r = .ok a
  | unclassified => ∃ e, r = .error e ∧ e.isTransportError = false

namespace HttpOutcome

open HttpTransport (httpServerErrorThreshold httpClientErrorThreshold)

variable {o : HttpOutcome} {readable : HttpResponse → Bool}

theorem kind_of_isRejection (h : o.isRejection = true) : o.kind readable = .rejected := by
  cases o with
  | raised error message => cases h
  | answered response =>
    simp only [isRejection, Bool.and_eq_true, decide_eq_true_eq] at h
    obtain ⟨hclient, hserver⟩ := h
    rw [kind, if_neg (Nat.not_le.2 hserver), if_pos hclient]

/-- A failure of the network is retried or not classified at all. -/
theorem kind_of_isTransient (h : o.isTransient = true) :
    o.kind readable = .retried ∨ o.kind readable = .unclassified := by
  cases o with
  | raised error message =>
    rw [kind]
    split_ifs
    · exact .inl rfl
    · exact .inr rfl
  | answered response =>
    rw [kind, if_pos (by simpa [isTransient] using h)]
    exact .inl rfl

/-- An attempt is the classification of its outcome, followed by a step that fails exactly on the
answers that cannot be read. -/
theorem endsIn_bind {α : Type} {f : HttpResponse → Except AgentError α} (request : HttpRequest)
    (hok : ∀ response, readable response = true → ∃ a, f response = .ok a)
    (herr : ∀ response, readable response = false →
      ∃ e, f response = .error e ∧ e.isTransportError = false) (o : HttpOutcome) :
    (o.kind readable).EndsIn (o.posted request >>= f) := by
  cases o with
  | raised error message =>
    rw [posted, HttpTransport.classify, kind]
    by_cases htimeout : error.isTimeout = true
    · rw [if_pos htimeout, htimeout]
      exact ⟨_, rfl, rfl⟩
    · rw [if_neg htimeout, Bool.eq_false_of_not_eq_true htimeout, Bool.false_or]
      by_cases hconnect : error = .connectError
      · rw [if_pos hconnect, if_pos (beq_iff_eq.2 hconnect)]
        exact ⟨_, rfl, rfl⟩
      · rw [if_neg hconnect, if_neg fun h => hconnect (beq_iff_eq.1 h)]
        exact ⟨_, rfl, rfl⟩
  | answered response =>
    rw [posted, HttpTransport.checkStatus, kind]
    split_ifs with hserver hclient hread
    · exact ⟨_, rfl, rfl⟩
    · exact ⟨_, rfl, rfl⟩
    · exact hok response hread
    · exact herr response (Bool.eq_false_of_not_eq_true hread)

end HttpOutcome

theorem AgentError.isTransportError_of_isRetryable {e : AgentError} (h : e.isRetryable = true) :
    e.isTransportError = true := by
  cases e <;> first | rfl | cases h

theorem AgentError.isTransportError_of_isFatal {e : AgentError} (h : e.isFatal = true) :
    e.isTransportError = true := by
  cases e <;> first | rfl | cases h

/-! ## A whole delivery -/

/-- A delivery is classified: after at most `maxAttempts` requests it ends in a result or in a
`TransportError`; after a failure of the network there is another request, unless it was the last
one allowed, and then the error is retryable; after a rejection there is none, and the error is
fatal. -/
structure Classified {α : Type} (outcomes : ℕ → HttpOutcome) (maxAttempts : ℕ)
    (ended : Except AgentError α × ℕ) : Prop where
  bounded : ended.2 ≤ maxAttempts
  transport : ∀ e, ended.1 = .error e → e.isTransportError = true
  transient : ∀ k < ended.2, (outcomes k).isTransient = true → k + 1 < ended.2 ∨
    k + 1 = maxAttempts ∧ ∃ e, ended.1 = .error e ∧ e.isRetryable = true
  rejected : ∀ k < ended.2, (outcomes k).isRejection = true →
    k + 1 = ended.2 ∧ ∃ e, ended.1 = .error e ∧ e.isFatal = true

/-- Within the attempts allowed, the first outcome that is not retried is of a kind that `_post` and
its caller expect. -/
def Expected (readable : HttpResponse → Bool) (outcomes : ℕ → HttpOutcome) (maxAttempts : ℕ) : Prop :=
  ∀ k < maxAttempts, (∀ j < k, (outcomes j).kind readable = .retried) →
    (outcomes k).kind readable ≠ .unclassified

section Delivery

variable {α : Type} {outcomes : ℕ → HttpOutcome} {readable : HttpResponse → Bool}
  {p : Prog HttpRequest (fun _ => HttpResponse) AgentError α} {r : ℕ → Except AgentError α}

theorem OutcomeKind.EndsIn.retried_iff {r : Except AgentError α} {kind : OutcomeKind}
    (h : kind.EndsIn r) : kind = .retried ↔ ∃ e, r = .error e ∧ e.isRetryable = true := by
  constructor
  · rintro rfl
    exact h
  · rintro ⟨e, rfl, he⟩
    cases kind with
    | retried => rfl
    | rejected =>
      obtain ⟨e', he', hfatal⟩ := h
      obtain rfl := Except.error.inj he'
      cases e <;> simp [AgentError.isRetryable, AgentError.isFatal] at he hfatal
    | read =>
      obtain ⟨a, ha⟩ := h
      cases ha
    | unclassified =>
      obtain ⟨e', he', hother⟩ := h
      obtain rfl := Except.error.inj he'
      rw [AgentError.isTransportError_of_isRetryable he] at hother
      cases hother

/-- What ends a delivery is a `TransportError` unless it is of no kind. -/
theorem OutcomeKind.EndsIn.isTransportError {r : Except AgentError α} {kind : OutcomeKind}
    (h : kind.EndsIn r) (hkind : kind ≠ .unclassified) {e : AgentError} (he : r = .error e) :
    e.isTransportError = true := by
  subst he
  cases kind with
  | retried =>
    obtain ⟨e', he, hretryable⟩ := h
    obtain rfl := Except.error.inj he
    exact AgentError.isTransportError_of_isRetryable hretryable
  | rejected =>
    obtain ⟨e', he, hfatal⟩ := h
    obtain rfl := Except.error.inj he
    exact AgentError.isTransportError_of_isFatal hfatal
  | read =>
    obtain ⟨a, ha⟩ := h
    cases ha
  | unclassified => exact absurd rfl hkind

/-- Of `more + 1` attempts, the one numbered `m` is the last that is made. -/
structure EndsAt (readable : HttpResponse → Bool) (outcomes : ℕ → HttpOutcome) (more m : ℕ) :
    Prop where
  le : m ≤ more
  retried : ∀ j < m, (outcomes j).kind readable = .retried
  last : (outcomes m).kind readable = .retried → m = more

theorem exists_endsAt (hp : ∀ k, p.run (network outcomes) k = (r k, k + 1))
    (hends : ∀ k, ((outcomes k).kind readable).EndsIn (r k)) (more : ℕ) :
    ∃ m, EndsAt readable outcomes more m ∧
      (HttpTransport.retry more p).run (network outcomes) 0 = (r m, m + 1) := by
  obtain ⟨m, hm, hrun, hbefore, hlast⟩ :=
    HttpTransport.run_retry (h := network outcomes) (s := id) hp more 0
  simp only [Nat.zero_add, id] at hrun hbefore hlast
  refine ⟨m, ⟨hm, fun j hj => (hends j).retried_iff.2 (hbefore j hj), fun hkind => ?_⟩, hrun⟩
  obtain ⟨e, he, hretryable⟩ := (hends m).retried_iff.1 hkind
  refine hlast.resolve_right fun h => ?_
  rw [h e he] at hretryable
  cases hretryable

/-- The first attempt that is not retried is the last one. -/
theorem EndsAt.eq {more m k : ℕ} (h : EndsAt readable outcomes more m) (hk : k ≤ more)
    (hprevious : ∀ j < k, (outcomes j).kind readable = .retried)
    (hkind : (outcomes k).kind readable ≠ .retried) : k = m := by
  obtain hlt | heq | hgt := Nat.lt_trichotomy k m
  · exact absurd (h.retried k hlt) hkind
  · exact heq
  · have hlast := h.last (hprevious m hgt)
    omega

theorem EndsAt.classified {more m : ℕ} (h : EndsAt readable outcomes more m)
    (hend : ((outcomes m).kind readable).EndsIn (r m))
    (hkind : (outcomes m).kind readable ≠ .unclassified) :
    Classified outcomes (more + 1) (r m, m + 1) where
  bounded := Nat.succ_le_succ h.le
  transport e he := hend.isTransportError hkind he
  transient k hk htransient := by
    by_cases hkm : k < m
    · exact .inl (Nat.succ_lt_succ hkm)
    · obtain rfl : k = m := by
        simp only at hk
        omega
      have hk' := (HttpOutcome.kind_of_isTransient htransient).resolve_right hkind
      refine .inr ⟨?_, hend.retried_iff.1 hk'⟩
      rw [h.last hk']
  rejected k hk hreject := by
    have hk' : (outcomes k).kind readable = .rejected := HttpOutcome.kind_of_isRejection hreject
    obtain rfl : k = m := by
      simp only at hk
      by_contra hne
      rw [h.retried k (by omega)] at hk'
      cases hk'
    rw [hk'] at hend
    exact ⟨rfl, hend⟩

/-- The retry policy classifies a delivery exactly if the outcomes are expected. -/
theorem classified_retry_iff (hp : ∀ k, p.run (network outcomes) k = (r k, k + 1))
    (hends : ∀ k, ((outcomes k).kind readable).EndsIn (r k)) (more : ℕ) :
    Classified outcomes (more + 1) ((HttpTransport.retry more p).run (network outcomes) 0) ↔
      Expected readable outcomes (more + 1) := by
  obtain ⟨m, hm, hrun⟩ := exists_endsAt hp hends more
  rw [hrun]
  constructor
  · intro h k hk hprevious hkind
    obtain rfl : k = m :=
      hm.eq (Nat.le_of_lt_succ hk) hprevious fun hretried => by rw [hretried] at hkind; cases hkind
    have hend := hends k
    rw [hkind] at hend
    obtain ⟨e, he, hother⟩ := hend
    rw [h.transport e he] at hother
    cases hother
  · intro h
    exact hm.classified (hends m) (h m (Nat.lt_succ_of_le hm.le) hm.retried)

end Delivery

/-- An answer that is an acknowledgement. -/
def HttpResponse.isAck (response : HttpResponse) : Bool := response.ack.isSome

/-- A payload is delivered, and a result reported, as the classification of errors says exactly if
the values of the payload are finite and the first outcome that is not retried is expected: an
exception of httpx other than a timeout and a failed connection is not, and neither is, for a payload,
an answer that is no acknowledgement. -/
theorem transport_classified_iff (retryAttempts : ℤ) (outcomes : ℕ → HttpOutcome) :
    let t := HttpTransport.overNetwork retryAttempts
    (∀ payload, Classified outcomes t.maxAttempts ((t.send payload).run (network outcomes) 0) ↔
      payload.isFinite = true ∧ Expected HttpResponse.isAck outcomes t.maxAttempts) ∧
    (∀ actionId result, Classified outcomes t.maxAttempts
        ((t.reportActionResult actionId result).run (network outcomes) 0) ↔
      Expected (fun _ => true) outcomes t.maxAttempts) := by
  refine ⟨fun payload => ?_, fun actionId result => ?_⟩
  · cases hfinite : payload.isFinite with
    | false =>
      rw [HttpTransport.send_of_not_isFinite hfinite]
      constructor
      · intro h
        have htransport := h.transport _ rfl
        cases htransport
      · intro h
        cases h.1
    | true =>
      refine Iff.trans ?_ (and_iff_right rfl).symm
      refine classified_retry_iff (HttpTransport.run_sendOnce hfinite) (fun k => ?_) _
      refine HttpOutcome.endsIn_bind (.metrics payload) (fun response h => ?_)
        (fun response h => ?_) (outcomes k)
      · obtain ⟨ack, hack⟩ := Option.isSome_iff_exists.1 h
        exact ⟨ack, by rw [HttpTransport.decodeAck, hack]⟩
      · have hack : response.ack = none := by simpa [HttpResponse.isAck] using h
        exact ⟨_, by rw [HttpTransport.decodeAck, hack], rfl⟩
  · refine classified_retry_iff (HttpTransport.run_reportActionResultOnce actionId result)
      (fun k => ?_) _
    have hends : ((outcomes k).kind fun _ => true).EndsIn
        ((outcomes k).posted (.actionResult actionId result) >>= fun _ => .ok ()) :=
      HttpOutcome.endsIn_bind (.actionResult actionId result) (fun _ _ => ⟨(), rfl⟩)
        (fun _ h => absurd h.symm Bool.false_ne_true) (outcomes k)
    cases hposted : (outcomes k).posted (.actionResult actionId result) <;>
      rw [hposted] at hends <;> exact hends

namespace Scenario

/-- A connection that breaks while the answer is read, at every attempt. -/
def brokenReads : ℕ → HttpOutcome := fun _ => .raised .readError "connection reset by peer"

/-- The exception of httpx ends the delivery at the first attempt. -/
theorem not_classified_brokenReads : ¬ ∀ (retryAttempts : ℤ) (outcomes : ℕ → HttpOutcome)
    (payload : NodeMetricsPayload), Classified outcomes
      (HttpTransport.overNetwork retryAttempts).maxAttempts
      (((HttpTransport.overNetwork retryAttempts).send payload).run (network outcomes) 0) := by
  intro h
  have hraised := (h 3 brokenReads (payload 43200 95)).transport
    (.httpxError .readError "connection reset by peer") rfl
  exact absurd hraised (by decide)

end Scenario

end ClusterPulse
