import Mathlib.Algebra.Order.Floor.Ring
import Mathlib.Algebra.Order.Ring.Rat
import Mathlib.Data.Rat.Floor
import Mathlib.Data.Nat.Log
import Mathlib.Tactic.Linarith
import Mathlib.Tactic.NormNum
import Mathlib.Tactic.Positivity
import Mathlib.Tactic.FieldSimp

/-!
# Binary64 numbers

A `Double` is a NaN, an infinity or a rational; the two zeros are one value.  `ofRat` rounds a
rational to the nearest binary64 number, ties to even, and overflows to an infinity: it is what a
correctly rounded operation returns for the exact result.  Comparisons are those of IEEE 754, false
as soon as a NaN takes part.

The main result is that rounding is monotone (`ofRat_mono`): within a binade it rounds to multiples
of one power of two (`onGrid_mono`), and the power of two between two binades is a fixed point of
both roundings (`onGrid_two_zpow`).
-/

/-- A binary64 number. -/
inductive Double where
  | nan
  | inf (negative : Bool)
  | fin (q : ℚ)
deriving DecidableEq, Repr

namespace Double

instance (n : ℕ) : OfNat Double n := ⟨.fin n⟩

/-- `math.isfinite`. -/
def isFinite : Double → Bool
  | .fin _ => true
  | .inf _ | .nan => false

/-! ## Comparison -/

/-- `a < b`. -/
protected def lt : Double → Double → Bool
  | .nan, _ => false
  | _, .nan => false
  | .fin p, .fin q => p < q
  | .inf a, .inf b => a && !b
  | .inf a, .fin _ => a
  | .fin _, .inf b => !b

/-- `a ≤ b`. -/
protected def le : Double → Double → Bool
  | .nan, _ => false
  | _, .nan => false
  | .fin p, .fin q => p ≤ q
  | .inf a, .inf b => a || !b
  | .inf a, .fin _ => a
  | .fin _, .inf b => !b

instance : LT Double := ⟨fun a b => a.lt b = true⟩

instance : LE Double := ⟨fun a b => a.le b = true⟩

instance (a b : Double) : Decidable (a < b) := inferInstanceAs (Decidable (a.lt b = true))

instance (a b : Double) : Decidable (a ≤ b) := inferInstanceAs (Decidable (a.le b = true))

theorem lt_def (a b : Double) : a < b ↔ a.lt b = true := Iff.rfl

theorem le_def (a b : Double) : a ≤ b ↔ a.le b = true := Iff.rfl

theorem fin_lt_fin {p q : ℚ} : Double.fin p < .fin q ↔ p < q := by simp [lt_def, Double.lt]

protected theorem le_trans {a b c : Double} (hab : a ≤ b) (hbc : b ≤ c) : a ≤ c := by
  rw [le_def] at hab hbc ⊢
  rcases a with _ | (_ | _) | p <;> rcases b with _ | (_ | _) | q <;>
    rcases c with _ | (_ | _) | r <;>
    simp only [Double.le, decide_eq_true_eq, Bool.or_true, Bool.or_false, Bool.not_true,
      Bool.not_false, reduceCtorEq] at hab hbc ⊢
  exact hab.trans hbc

theorem not_lt_iff_le {a b : Double} (ha : a ≠ .nan) (hb : b ≠ .nan) : ¬ a < b ↔ b ≤ a := by
  rw [lt_def, le_def]
  rcases a with _ | (_ | _) | p <;> rcases b with _ | (_ | _) | q <;>
    simp_all [Double.lt, Double.le]

theorem ne_nan_of_le_left {a b : Double} (h : a ≤ b) : a ≠ .nan := by
  rintro rfl
  cases h

theorem ne_nan_of_le_right {a b : Double} (h : a ≤ b) : b ≠ .nan := by
  rintro rfl
  cases a <;> cases h

protected theorem lt_of_le_of_lt {a b c : Double} (hab : a ≤ b) (hbc : b < c) : a < c := by
  have hb : b ≠ .nan := ne_nan_of_le_right hab
  have hc : c ≠ .nan := by
    rintro rfl
    cases b <;> cases hbc
  by_contra h
  have hca : c ≤ a := (not_lt_iff_le (ne_nan_of_le_left hab) hc).1 h
  exact (not_lt_iff_le hb hc).2 (Double.le_trans hca hab) hbc

protected theorem le_refl {a : Double} (ha : a ≠ .nan) : a ≤ a := by
  rw [le_def]
  rcases a with _ | (_ | _) | p <;> simp_all [Double.le]

/-- The two comparisons differ at equality only. -/
theorem le_iff_lt_iff_ne {a b : Double} (hb : b ≠ .nan) : (a ≤ b ↔ a < b) ↔ b ≠ a := by
  rw [le_def, lt_def]
  rcases a with _ | (_ | _) | p <;> rcases b with _ | (_ | _) | q <;>
    simp_all [Double.lt, Double.le]
  rw [le_iff_lt_or_eq, or_iff_left_iff_imp, eq_comm]
  constructor
  · intro h hqp
    exact (h hqp).ne hqp.symm
  · exact fun hne hqp => absurd hqp hne

/-! ## Rounding to an integer -/

/-- The nearest integer, ties to even. -/
def roundEven (q : ℚ) : ℤ :=
  let n := ⌊q + 1 / 2⌋
  if q + 1 / 2 = n ∧ n % 2 = 1 then n - 1 else n

/-- `n` is a nearest integer of `q`, and the even one when there are two. -/
def IsNearestEven (q : ℚ) (n : ℤ) : Prop :=
  n - 1 / 2 ≤ q ∧ q ≤ n + 1 / 2 ∧ ((q = n - 1 / 2 ∨ q = n + 1 / 2) → n % 2 = 0)

theorem isNearestEven_roundEven (q : ℚ) : IsNearestEven q (roundEven q) := by
  have hle := Int.floor_le (q + 1 / 2)
  have hlt := Int.lt_floor_add_one (q + 1 / 2)
  unfold roundEven
  simp only
  split_ifs with h
  · obtain ⟨htie, hodd⟩ := h
    refine ⟨?_, ?_, fun _ => by omega⟩
    · push_cast
      linarith
    · push_cast
      linarith
  · refine ⟨by linarith, by linarith, ?_⟩
    rintro (htie | htie)
    · have : ¬ ⌊q + 1 / 2⌋ % 2 = 1 := fun hodd => h ⟨by linarith, hodd⟩
      omega
    · linarith

theorem IsNearestEven.le {p q : ℚ} {m n : ℤ} (hm : IsNearestEven p m) (hn : IsNearestEven q n)
    (h : p ≤ q) : m ≤ n := by
  by_contra hlt
  obtain ⟨hm₁, -, hm₃⟩ := hm
  obtain ⟨-, hn₂, hn₃⟩ := hn
  have hsucc : (n : ℚ) + 1 ≤ m := by exact_mod_cast not_le.1 hlt
  have hmn : (m : ℚ) = n + 1 := by linarith
  have hm_even := hm₃ (.inl (by linarith))
  have hn_even := hn₃ (.inr (by linarith))
  have : m = n + 1 := by exact_mod_cast hmn
  omega

theorem roundEven_mono {p q : ℚ} (h : p ≤ q) : roundEven p ≤ roundEven q :=
  (isNearestEven_roundEven p).le (isNearestEven_roundEven q) h

theorem roundEven_eq {q : ℚ} {n : ℤ} (hn : IsNearestEven q n) : roundEven q = n :=
  le_antisymm ((isNearestEven_roundEven q).le hn le_rfl) (hn.le (isNearestEven_roundEven q) le_rfl)

theorem roundEven_intCast (n : ℤ) : roundEven n = n := by
  refine roundEven_eq ⟨by linarith, by linarith, ?_⟩
  rintro (h | h) <;> linarith

theorem roundEven_neg (q : ℚ) : roundEven (-q) = -roundEven q := by
  obtain ⟨h₁, h₂, h₃⟩ := isNearestEven_roundEven q
  refine roundEven_eq ⟨by push_cast; linarith, by push_cast; linarith, ?_⟩
  rintro (h | h) <;> push_cast at h
  · have := h₃ (.inr (by linarith))
    omega
  · have := h₃ (.inl (by linarith))
    omega

/-! ## The binade of a rational -/

/-- The exponent `e` with `2 ^ e ≤ |q| < 2 ^ (e + 1)`, for `q ≠ 0`. -/
def exponent (q : ℚ) : ℤ :=
  let e := (q.num.natAbs.log2 : ℤ) - q.den.log2
  if (2 : ℚ) ^ e ≤ |q| then e else e - 1

private theorem two_zpow_pos (e : ℤ) : (0 : ℚ) < 2 ^ e := zpow_pos two_pos e

private theorem two_zpow_add_one (e : ℤ) : (2 : ℚ) ^ (e + 1) = 2 ^ e * 2 :=
  zpow_add_one₀ two_ne_zero e

private theorem two_zpow_mono {e f : ℤ} (h : e ≤ f) : (2 : ℚ) ^ e ≤ 2 ^ f :=
  zpow_le_zpow_right₀ one_le_two h

theorem exponent_spec {q : ℚ} (hq : q ≠ 0) :
    (2 : ℚ) ^ exponent q ≤ |q| ∧ |q| < 2 ^ (exponent q + 1) := by
  have hn0 : q.num.natAbs ≠ 0 := by simpa using hq
  have hn₁ : (2 : ℚ) ^ (q.num.natAbs.log2 : ℤ) ≤ q.num.natAbs := by
    rw [zpow_natCast]
    exact_mod_cast Nat.log2_self_le hn0
  have hn₂ : (q.num.natAbs : ℚ) < 2 ^ (q.num.natAbs.log2 : ℤ) * 2 := by
    rw [zpow_natCast, ← pow_succ]
    exact_mod_cast Nat.lt_log2_self
  have hd₁ : (2 : ℚ) ^ (q.den.log2 : ℤ) ≤ q.den := by
    rw [zpow_natCast]
    exact_mod_cast Nat.log2_self_le q.den_ne_zero
  have hd₂ : (q.den : ℚ) < 2 ^ (q.den.log2 : ℤ) * 2 := by
    rw [zpow_natCast, ← pow_succ]
    exact_mod_cast Nat.lt_log2_self
  have hd : (0 : ℚ) < q.den := by exact_mod_cast q.den_pos
  have habs : |q| = q.num.natAbs / q.den := by
    rw [Nat.cast_natAbs, Int.cast_abs, ← Nat.abs_cast q.den, ← abs_div, Rat.num_div_den]
  have hsplit : (2 : ℚ) ^ ((q.num.natAbs.log2 : ℤ) - q.den.log2) =
      2 ^ (q.num.natAbs.log2 : ℤ) / 2 ^ (q.den.log2 : ℤ) := zpow_sub₀ two_ne_zero _ _
  have hdp := two_zpow_pos (q.den.log2 : ℤ)
  have hnp := two_zpow_pos (q.num.natAbs.log2 : ℤ)
  unfold exponent
  simp only
  split_ifs with h
  · refine ⟨h, ?_⟩
    rw [two_zpow_add_one, hsplit, habs, div_lt_iff₀ hd]
    calc (q.num.natAbs : ℚ) < 2 ^ (q.num.natAbs.log2 : ℤ) * 2 := hn₂
      _ = 2 ^ (q.num.natAbs.log2 : ℤ) / 2 ^ (q.den.log2 : ℤ) * 2 * 2 ^ (q.den.log2 : ℤ) := by
        field_simp
      _ ≤ 2 ^ (q.num.natAbs.log2 : ℤ) / 2 ^ (q.den.log2 : ℤ) * 2 * q.den :=
        mul_le_mul_of_nonneg_left hd₁ (by positivity)
  · refine ⟨?_, by rw [sub_add_cancel]; exact not_le.1 h⟩
    have hpred : (2 : ℚ) ^ ((q.num.natAbs.log2 : ℤ) - q.den.log2 - 1) * 2 =
        2 ^ (q.num.natAbs.log2 : ℤ) / 2 ^ (q.den.log2 : ℤ) := by
      rw [← two_zpow_add_one, sub_add_cancel, hsplit]
    rw [habs, le_div_iff₀ hd]
    calc (2 : ℚ) ^ ((q.num.natAbs.log2 : ℤ) - q.den.log2 - 1) * q.den
        ≤ 2 ^ ((q.num.natAbs.log2 : ℤ) - q.den.log2 - 1) * (2 ^ (q.den.log2 : ℤ) * 2) :=
          mul_le_mul_of_nonneg_left hd₂.le (two_zpow_pos _).le
      _ = 2 ^ (q.num.natAbs.log2 : ℤ) := by
        rw [mul_left_comm, hpred]
        field_simp
      _ ≤ q.num.natAbs := hn₁

theorem exponent_mono {p q : ℚ} (hp : 0 < p) (hpq : p ≤ q) : exponent p ≤ exponent q := by
  by_contra hlt
  have hp' := (exponent_spec hp.ne').1
  have hq' := (exponent_spec (hp.trans_le hpq).ne').2
  rw [abs_of_pos hp] at hp'
  rw [abs_of_pos (hp.trans_le hpq)] at hq'
  have := two_zpow_mono (Int.add_one_le_iff.2 (not_le.1 hlt))
  linarith

theorem exponent_neg (q : ℚ) : exponent (-q) = exponent q := by
  simp [exponent]

/-! ## Rounding to a binary64 number -/

/-- The exponent of the last place of the binary64 numbers around `q`. -/
def quantum (q : ℚ) : ℤ := max (exponent q - 52) (-1074)

/-- The multiple of `2 ^ u` nearest to `q`. -/
def onGrid (u : ℤ) (q : ℚ) : ℚ := roundEven (q / 2 ^ u) * 2 ^ u

/-- `q` rounded to 53 significant bits. -/
def significant (q : ℚ) : ℚ := onGrid (quantum q) q

/-- The first power of two past the finite binary64 numbers. -/
def overflow : ℚ := 2 ^ 1024

/-- The binary64 number nearest to `q`. -/
def ofRat (q : ℚ) : Double :=
  if overflow ≤ significant q then .inf false
  else if significant q ≤ -overflow then .inf true
  else .fin (significant q)

/-- One tenth is not a binary64 number. -/
example : ofRat (1 / 10) = .fin (3602879701896397 / 36028797018963968) := by decide +kernel

theorem onGrid_mono {u : ℤ} {p q : ℚ} (h : p ≤ q) : onGrid u p ≤ onGrid u q := by
  refine mul_le_mul_of_nonneg_right ?_ (two_zpow_pos u).le
  exact_mod_cast roundEven_mono (div_le_div_of_nonneg_right h (two_zpow_pos u).le)

/-- A power of two is on every grid at most as coarse. -/
theorem onGrid_two_zpow {u e : ℤ} (h : u ≤ e) : onGrid u (2 ^ e) = 2 ^ e := by
  obtain ⟨n, hn⟩ := Int.eq_ofNat_of_zero_le (sub_nonneg.2 h)
  have hint : (2 : ℚ) ^ e / 2 ^ u = ((2 ^ n : ℤ) : ℚ) := by
    rw [← zpow_sub₀ two_ne_zero, hn]
    simp
  unfold onGrid
  rw [hint, roundEven_intCast, ← hint, div_mul_cancel₀ _ (two_zpow_pos u).ne']

theorem onGrid_zero (u : ℤ) : onGrid u 0 = 0 := by
  have := roundEven_intCast 0
  unfold onGrid
  rw [zero_div, ← Int.cast_zero, this]
  simp

theorem significant_neg (q : ℚ) : significant (-q) = -significant q := by
  unfold significant onGrid quantum
  rw [exponent_neg, neg_div, roundEven_neg]
  push_cast
  ring

theorem significant_nonneg {q : ℚ} (hq : 0 ≤ q) : 0 ≤ significant q :=
  onGrid_zero (quantum q) ▸ onGrid_mono hq

theorem significant_mono_of_pos {p q : ℚ} (hp : 0 < p) (hpq : p ≤ q) :
    significant p ≤ significant q := by
  have hq : 0 < q := hp.trans_le hpq
  have hexp := exponent_mono hp hpq
  rcases hexp.eq_or_lt with heq | hlt
  · unfold significant quantum
    rw [heq]
    exact onGrid_mono hpq
  · -- the power of two that opens the binade of `q` lies between the two results
    have hp2 : p ≤ 2 ^ exponent q := by
      have := (exponent_spec hp.ne').2
      rw [abs_of_pos hp] at this
      exact this.le.trans (two_zpow_mono (Int.add_one_le_iff.2 hlt))
    have hq2 : 2 ^ exponent q ≤ q := by
      have := (exponent_spec hq.ne').1
      rwa [abs_of_pos hq] at this
    rcases le_total (quantum q) (exponent q) with hgrid | hgrid
    · have hpgrid : quantum p ≤ exponent q := by
        unfold quantum at hgrid ⊢
        omega
      calc significant p ≤ onGrid (quantum p) (2 ^ exponent q) := onGrid_mono hp2
        _ = 2 ^ exponent q := onGrid_two_zpow hpgrid
        _ = onGrid (quantum q) (2 ^ exponent q) := (onGrid_two_zpow hgrid).symm
        _ ≤ significant q := onGrid_mono hq2
    · have hsame : quantum p = quantum q := by
        unfold quantum at hgrid ⊢
        omega
      unfold significant
      rw [hsame]
      exact onGrid_mono hpq

theorem significant_mono {p q : ℚ} (hpq : p ≤ q) : significant p ≤ significant q := by
  rcases lt_or_ge 0 p with hp | hp
  · exact significant_mono_of_pos hp hpq
  · rcases le_or_gt 0 q with hq | hq
    · have hp' := significant_nonneg (neg_nonneg.2 hp)
      rw [significant_neg] at hp'
      linarith [significant_nonneg hq]
    · have := significant_mono_of_pos (neg_pos.2 hq) (neg_le_neg hpq)
      rw [significant_neg, significant_neg] at this
      linarith

theorem ofRat_ne_nan (q : ℚ) : ofRat q ≠ .nan := by
  unfold ofRat
  split_ifs <;> simp

theorem ofRat_mono {p q : ℚ} (hpq : p ≤ q) : ofRat p ≤ ofRat q := by
  have h := significant_mono hpq
  have hpos : 0 < overflow := pow_pos two_pos _
  unfold ofRat
  rw [le_def]
  split_ifs <;> simp only [Double.le, Bool.or_true, Bool.or_false, Bool.not_false, Bool.not_true,
    decide_eq_true_eq, reduceCtorEq] <;> linarith

theorem significant_two_pow (n : ℕ) : significant (2 ^ n) = 2 ^ n := by
  have hexp : exponent (2 ^ n) ≤ n := by
    by_contra hlt
    have hspec := (exponent_spec (pow_ne_zero n (two_ne_zero (α := ℚ)))).1
    have hmono := two_zpow_mono (Int.add_one_le_iff.2 (not_le.1 hlt))
    rw [two_zpow_add_one, zpow_natCast] at hmono
    rw [abs_of_pos (pow_pos two_pos n)] at hspec
    have hpos : (0 : ℚ) < 2 ^ n := pow_pos two_pos n
    linarith
  have hgrid : quantum (2 ^ n) ≤ n := by
    unfold quantum
    omega
  have hround := onGrid_two_zpow hgrid
  rwa [zpow_natCast] at hround

/-- A number well inside the range is rounded to a finite one. -/
theorem ofRat_eq_fin {q : ℚ} {n : ℕ} (hn : n < 1024) (hq : |q| ≤ 2 ^ n) :
    ofRat q = .fin (significant q) := by
  obtain ⟨hlower, hupper⟩ := abs_le.1 hq
  have hle := significant_mono hupper
  have hge := significant_mono hlower
  rw [significant_neg] at hge
  rw [significant_two_pow] at hle hge
  have hsmall : (2 : ℚ) ^ n < overflow := pow_lt_pow_right₀ one_lt_two hn
  unfold ofRat
  rw [if_neg (by linarith), if_neg (by linarith)]

/-! ## Operations -/

/-- `a - b`, correctly rounded. -/
protected def sub : Double → Double → Double
  | .nan, _ => .nan
  | _, .nan => .nan
  | .inf a, .inf b => if a = b then .nan else .inf a
  | .inf a, .fin _ => .inf a
  | .fin _, .inf b => .inf !b
  | .fin p, .fin q => ofRat (p - q)

instance : Sub Double := ⟨Double.sub⟩

/-- `a + b`, correctly rounded. -/
protected def add : Double → Double → Double
  | .nan, _ => .nan
  | _, .nan => .nan
  | .inf a, .inf b => if a = b then .inf a else .nan
  | .inf a, .fin _ => .inf a
  | .fin _, .inf b => .inf b
  | .fin p, .fin q => ofRat (p + q)

instance : Add Double := ⟨Double.add⟩

/-- Python's `min(a, b)`. -/
def pyMin (a b : Double) : Double := if b < a then b else a

/-- Python's `max(a, b)`. -/
def pyMax (a b : Double) : Double := if a < b then b else a

/-- The integer part of a rational, towards zero. -/
def truncate (q : ℚ) : ℤ := if 0 ≤ q then ⌊q⌋ else ⌈q⌉

/-- The decimal digits of a number rounded to an integer. -/
def toFixed : Double → String
  | .nan => "nan"
  | .inf negative => if negative then "-inf" else "inf"
  | .fin q => (if q < 0 then "-" else "") ++ toString (roundEven |q|)

end Double
