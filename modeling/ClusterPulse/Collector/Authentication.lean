import ClusterPulse.Collector.Config
import Mathlib.Data.Finset.Dedup
import Mathlib.Data.List.DropRight

/-!
# The check of the bearer token

`verify_api_token` compares the presented credential with one configured token after the other, in
the order in which the set of the tokens is iterated.  `hmac.compare_digest` compares ASCII strings
only.
-/

namespace ClusterPulse

/-! ## The configured tokens -/

/-- `str.strip`. -/
def strip (text : List Char) : List Char :=
  (text.dropWhile TextFile.isSpace).rdropWhile TextFile.isSpace

/-- The configured tokens, ignoring blanks and whitespace. -/
def tokenSet (apiTokens : String) : Finset String :=
  (((apiTokens.toList.splitOn ',').map strip).filter fun token => !token.isEmpty).map String.ofList
    |>.toFinset

/-- An order in which the elements of a set are iterated. -/
structure Iteration {α : Type} (s : Finset α) where
  order : List α
  nodup : order.Nodup
  mem_iff : ∀ a, a ∈ order ↔ a ∈ s

/-! ## The check -/

/-- What the check raises. -/
inductive TokenError where
  | authenticationError (message : String)
  | typeError (message : String)
deriving DecidableEq, Repr

def isAscii (text : String) : Bool := text.toList.all fun c => c.toNat < 128

/-- `hmac.compare_digest` on two strings. -/
def compareDigest (a b : String) : Except TokenError Bool :=
  if isAscii a && isAscii b then .ok (a == b)
  else .error (.typeError "comparing strings with non-ASCII characters is not supported")

/-- `any(hmac.compare_digest(presented, token) for token in order)`. -/
def anyMatches (presented : String) : List String → Except TokenError Bool
  | [] => .ok false
  | token :: order => do
    if ← compareDigest presented token then return true else anyMatches presented order

/-- Reject the request unless it carries a configured bearer token. -/
def verifyApiToken {tokens : Finset String} (iteration : Iteration tokens)
    (credentials : Option String) : Except TokenError Unit := do
  if iteration.order.isEmpty then return ()
  let presented := credentials.getD ""
  if !(← anyMatches presented iteration.order) then
    throw (.authenticationError "missing or invalid API token")

end ClusterPulse
