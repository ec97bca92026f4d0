import ClusterPulse.Collector.Authentication

/-!
# What the token check decides

The comparison raises as soon as one of its two strings is not ASCII.  So the check decides
membership, whatever the order of the set, exactly if no token is configured or if the presented
string and every configured token are ASCII.
-/

namespace ClusterPulse

section Comparison

variable {presented token : String} {order : List String}

theorem compareDigest_of_ascii (hp : isAscii presented = true) (ht : isAscii token = true) :
    compareDigest presented token = .ok (presented == token) := by
  unfold compareDigest
  rw [hp, ht, Bool.and_true, if_pos rfl]

theorem exists_compareDigest_error (h : ¬ (isAscii presented = true ∧ isAscii token = true)) :
    ∃ message, compareDigest presented token = .error (.typeError message) := by
  unfold compareDigest
  rw [if_neg (by simpa using h)]
  exact ⟨_, rfl⟩

theorem anyMatches_of_ascii (hp : isAscii presented = true)
    (ht : ∀ token ∈ order, isAscii token = true) :
    anyMatches presented order = .ok (decide (presented ∈ order)) := by
  induction order with
  | nil => rfl
  | cons token order ih =>
    obtain ⟨htoken, hrest⟩ := List.forall_mem_cons.1 ht
    unfold anyMatches
    rw [compareDigest_of_ascii hp htoken]
    by_cases heq : presented = token
    · simp [heq, pure, Except.pure, bind, Except.bind]
    · simp [heq, ih hrest, bind, Except.bind]

/-- The comparison with the first token of the order raises. -/
theorem exists_anyMatches_error (order : List String)
    (h : ¬ (isAscii presented = true ∧ isAscii token = true)) :
    ∃ message, anyMatches presented (token :: order) = .error (.typeError message) := by
  obtain ⟨message, hmessage⟩ := exists_compareDigest_error h
  unfold anyMatches
  rw [hmessage]
  exact ⟨message, rfl⟩

end Comparison

/-- Any element of a set may be the one iterated first. -/
theorem Iteration.exists_first {α : Type} [DecidableEq α] {s : Finset α} {a : α} (ha : a ∈ s) :
    ∃ (it : Iteration s) (rest : List α), it.order = a :: rest := by
  refine ⟨⟨a :: (s.erase a).toList, ?_, fun b => ?_⟩, _, rfl⟩
  · refine List.nodup_cons.2 ⟨?_, Finset.nodup_toList _⟩
    simp
  · by_cases hb : b = a
    · simp [hb, ha]
    · simp [hb]

/-! ## Membership -/

/-- The presented string is accepted if no token is configured or if it is one of the tokens, and
otherwise it is rejected with `AuthenticationError`. -/
def DecidesToken (tokens : Finset String) (presented : String) (result : Except TokenError Unit) :
    Prop :=
  if tokens = ∅ ∨ presented ∈ tokens then result = .ok ()
  else ∃ message, result = .error (.authenticationError message)

/-- The check decides membership, in whatever order the set of tokens is iterated. -/
def DecidesMembership (apiTokens : String) (credentials : Option String) : Prop :=
  ∀ iteration : Iteration (tokenSet apiTokens),
    DecidesToken (tokenSet apiTokens) (credentials.getD "") (verifyApiToken iteration credentials)

section Verify

variable {tokens : Finset String} {credentials : Option String}

theorem DecidesToken.not_typeError {presented : String} {result : Except TokenError Unit}
    (h : DecidesToken tokens presented result) (message : String) :
    result ≠ .error (.typeError message) := by
  unfold DecidesToken at h
  split_ifs at h
  · rw [h]
    exact fun he => by cases he
  · obtain ⟨message', h⟩ := h
    rw [h]
    exact fun he => by cases he

theorem order_eq_nil_iff (iteration : Iteration tokens) : iteration.order = [] ↔ tokens = ∅ := by
  rw [List.eq_nil_iff_forall_not_mem, Finset.eq_empty_iff_forall_notMem]
  exact forall_congr' fun token => not_congr (iteration.mem_iff token)

theorem verifyApiToken_of_empty (iteration : Iteration tokens) (h : tokens = ∅) :
    verifyApiToken iteration credentials = .ok () := by
  unfold verifyApiToken
  rw [(order_eq_nil_iff iteration).2 h]
  rfl

/-- With tokens configured, the outcome is that of the comparisons. -/
theorem verifyApiToken_of_nonempty (iteration : Iteration tokens) (h : tokens ≠ ∅) :
    verifyApiToken iteration credentials =
      (anyMatches (credentials.getD "") iteration.order >>= fun found =>
        if !found then .error (.authenticationError "missing or invalid API token")
        else .ok ()) := by
  have hne : iteration.order.isEmpty = false := by
    rw [List.isEmpty_eq_false_iff]
    exact fun hnil => h ((order_eq_nil_iff iteration).1 hnil)
  unfold verifyApiToken
  rw [hne]
  rfl

theorem decides_of_ascii (iteration : Iteration tokens)
    (hp : isAscii (credentials.getD "") = true) (ht : ∀ token ∈ tokens, isAscii token = true) :
    DecidesToken tokens (credentials.getD "") (verifyApiToken iteration credentials) := by
  by_cases hempty : tokens = ∅
  · unfold DecidesToken
    rw [if_pos (.inl hempty)]
    exact verifyApiToken_of_empty iteration hempty
  · have hascii : ∀ token ∈ iteration.order, isAscii token = true :=
      fun token htoken => ht token ((iteration.mem_iff token).1 htoken)
    unfold DecidesToken
    rw [verifyApiToken_of_nonempty iteration hempty, anyMatches_of_ascii hp hascii]
    by_cases hmem : credentials.getD "" ∈ tokens
    · have horder : credentials.getD "" ∈ iteration.order := (iteration.mem_iff _).2 hmem
      rw [if_pos (.inr hmem), decide_eq_true horder]
      rfl
    · have horder : credentials.getD "" ∉ iteration.order := fun h =>
        hmem ((iteration.mem_iff _).1 h)
      rw [if_neg (not_or.2 ⟨hempty, hmem⟩), decide_eq_false horder]
      exact ⟨_, rfl⟩

/-- The order that starts with the token raises `TypeError`. -/
theorem not_decides_of_first {token : String} (hmem : token ∈ tokens)
    (h : ¬ (isAscii (credentials.getD "") = true ∧ isAscii token = true)) :
    ∃ iteration : Iteration tokens,
      ¬ DecidesToken tokens (credentials.getD "") (verifyApiToken iteration credentials) := by
  have hne : tokens ≠ ∅ := Finset.ne_empty_of_mem hmem
  obtain ⟨iteration, rest, horder⟩ := Iteration.exists_first hmem
  obtain ⟨message, hmessage⟩ := exists_anyMatches_error rest h
  refine ⟨iteration, fun hdecides => hdecides.not_typeError message ?_⟩
  rw [verifyApiToken_of_nonempty iteration hne, horder, hmessage]
  rfl

end Verify

/-- The check decides membership exactly if no token is configured or if every string that is
compared is ASCII. -/
theorem decidesMembership_iff (apiTokens : String) (credentials : Option String) :
    DecidesMembership apiTokens credentials ↔ tokenSet apiTokens = ∅ ∨
      (isAscii (credentials.getD "") = true ∧
        ∀ token ∈ tokenSet apiTokens, isAscii token = true) := by
  constructor
  · intro h
    by_contra hnot
    obtain ⟨hne, hascii⟩ := not_or.1 hnot
    obtain ⟨token, hmem, hbad⟩ : ∃ token ∈ tokenSet apiTokens,
        ¬ (isAscii (credentials.getD "") = true ∧ isAscii token = true) := by
      by_contra hall
      push Not at hall
      obtain ⟨token, hmem⟩ := Finset.nonempty_iff_ne_empty.2 hne
      exact hascii ⟨(hall token hmem).1, fun token hmem => (hall token hmem).2⟩
    obtain ⟨iteration, hbad⟩ := not_decides_of_first hmem hbad
    exact hbad (h iteration)
  · rintro (hempty | ⟨hp, ht⟩) iteration
    · unfold DecidesToken
      rw [if_pos (.inl hempty)]
      exact verifyApiToken_of_empty iteration hempty
    · exact decides_of_ascii iteration hp ht

namespace Scenario

/-- One configured token. -/
def secretIteration : Iteration (tokenSet "secret") where
  order := ["secret"]
  nodup := List.nodup_singleton _
  mem_iff token := by
    rw [show tokenSet "secret" = {"secret"} by decide +kernel, Finset.mem_singleton,
      List.mem_singleton]

/-- A credential that a Latin-1 header decodes to is neither accepted nor rejected. -/
theorem not_decidesMembership : ¬ ∀ (apiTokens : String) (credentials : Option String),
    DecidesMembership apiTokens credentials := by
  intro h
  have hdecides := h "secret" (some "sécret") secretIteration
  refine hdecides.not_typeError "comparing strings with non-ASCII characters is not supported" ?_
  decide +kernel

/-- Blanks around the tokens and between the commas are dropped. -/
example : tokenSet "a, b ,, c" = {"a", "b", "c"} := by decide +kernel

end Scenario

end ClusterPulse
