import ClusterPulse.Lib.Double

/-!
# Exceptions, datetimes and durations

The exceptions that the modelled code raises, and Python's `datetime` arithmetic as it uses it.
Instants and durations are integers of microseconds; an instant counts from the first day of the
year 1 in UTC.  A `Datetime` is what arrives from outside: a wall clock inside Python's range, with
a UTC offset or without one.
-/

namespace ClusterPulse

/-- The exceptions raised by the Collector and by the Python operations it uses. -/
inductive PyError where
  | overflowError (message : String)
  | valueError (message : String)
  | typeError (message : String)
  | persistenceError (message : String)
  | alertNotFoundError (alertId : ℕ)
  | alertAlreadyResolvedError (alertId : ℕ)
  | remediationActionNotFoundError (actionId : ℕ)
  | remediationActionNotDispatchedError (actionId : ℕ) (status : String)
  /-- The process was stopped here. -/
  | interrupted
deriving DecidableEq, Repr

/-- The text an exception carries. -/
def PyError.message : PyError → String
  | .overflowError message => message
  | .valueError message => message
  | .typeError message => message
  | .persistenceError message => message
  | .alertNotFoundError alertId => "alert " ++ toString alertId ++ " does not exist"
  | .alertAlreadyResolvedError alertId => "alert " ++ toString alertId ++ " is already resolved"
  | .remediationActionNotFoundError actionId =>
    "remediation action " ++ toString actionId ++ " does not exist"
  | .remediationActionNotDispatchedError actionId status =>
    "remediation action " ++ toString actionId ++ " is not awaiting a result (status='" ++
      status ++ "')"
  | .interrupted => ""

/-- `int(x)`. -/
def intOfFloat : Double → Except PyError ℤ
  | .nan => .error (.valueError "cannot convert float NaN to integer")
  | .inf _ => .error (.overflowError "cannot convert float infinity to integer")
  | .fin q => .ok (Double.truncate q)

/-- A UTC instant: microseconds since 0001-01-01T00:00:00Z. -/
abbrev Instant : Type := ℤ

/-- A duration in microseconds. -/
abbrev Timedelta : Type := ℤ

namespace Timedelta

def second : Timedelta := 1000000

def hour : Timedelta := 3600 * second

def day : Timedelta := 24 * hour

/-- `td.total_seconds()`: the correctly rounded quotient. -/
def totalSeconds (d : Timedelta) : Double := Double.ofRat (d / 1000000)

/-- A duration is at most 999999999 days long. -/
def checked (d : Timedelta) : Except PyError Timedelta :=
  if -999999999 ≤ d / day ∧ d / day ≤ 999999999 then .ok d
  else .error (.overflowError "days out of range; must have magnitude <= 999999999")

/-- `timedelta(seconds=x)`: whole seconds exactly, the fraction through a binary64 product and then
to the nearest microsecond, ties to even. -/
def ofSeconds : Double → Except PyError Timedelta
  | .fin q =>
    let whole := Double.truncate q
    let micros := Double.significant ((q - whole) * 1000000)
    checked (whole * second + Double.roundEven micros)
  | x => do checked ((← intOfFloat x) * second)

/-- `timedelta(days=n)`. -/
def ofDays (n : ℤ) : Except PyError Timedelta := checked (n * day)

theorem totalSeconds_mono {d d' : Timedelta} (h : d ≤ d') : totalSeconds d ≤ totalSeconds d' := by
  refine Double.ofRat_mono (div_le_div_of_nonneg_right ?_ (by norm_num))
  exact_mod_cast h

theorem totalSeconds_ne_nan (d : Timedelta) : totalSeconds d ≠ .nan := Double.ofRat_ne_nan _

end Timedelta

/-- The last microsecond of the year 9999. -/
def maxWall : ℤ := 3652059 * Timedelta.day - 1

/-- A Python `datetime`: a wall clock and, when it is aware, its UTC offset. -/
structure Datetime where
  wall : ℤ
  utcoffset : Option Timedelta
  wall_nonneg : 0 ≤ wall
  wall_le : wall ≤ maxWall
  utcoffset_lt : ∀ o ∈ utcoffset, -Timedelta.day < o ∧ o < Timedelta.day
deriving DecidableEq

namespace Datetime

/-- The datetime of an instant, in UTC. -/
def utc (t : Instant) (h₀ : 0 ≤ t) (h₁ : t ≤ maxWall) : Datetime :=
  ⟨t, some 0, h₀, h₁, by rintro o ⟨⟩; decide⟩

/-- The instant a datetime is stored as; `ensure_utc` reads a naive one as UTC. -/
def instant (d : Datetime) : Instant := d.wall - d.utcoffset.getD 0

/-- `d - t` for a stored `t`, which is always aware. -/
def since (d : Datetime) (t : Instant) : Except PyError Timedelta :=
  match d.utcoffset with
  | some _ => .ok (d.instant - t)
  | none => .error (.typeError "can't subtract offset-naive and offset-aware datetimes")

/-- `d - delta`. -/
def minus (d : Datetime) (delta : Timedelta) : Except PyError Datetime :=
  if h : 0 ≤ d.wall - delta ∧ d.wall - delta ≤ maxWall then
    .ok ⟨d.wall - delta, d.utcoffset, h.1, h.2, d.utcoffset_lt⟩
  else .error (.overflowError "date value out of range")

/-- A datetime that carries the UTC offset zero. -/
def IsUtc (d : Datetime) : Prop := d.utcoffset = some 0

instance (d : Datetime) : Decidable d.IsUtc := inferInstanceAs (Decidable (_ = _))

@[simp] theorem instant_utc {t : Instant} (h₀ : 0 ≤ t) (h₁ : t ≤ maxWall) :
    (utc t h₀ h₁).instant = t := by
  simp [utc, instant]

theorem since_of_ok {d : Datetime} {t : Instant} {delta : Timedelta}
    (h : d.since t = .ok delta) : delta = d.instant - t := by
  unfold since at h
  split at h
  · exact (Except.ok.inj h).symm
  · cases h

theorem since_of_isUtc {d : Datetime} (hd : d.IsUtc) (t : Instant) :
    d.since t = .ok (d.instant - t) := by
  unfold since
  rw [hd]

theorem instant_of_minus {d d' : Datetime} {delta : Timedelta} (h : d.minus delta = .ok d') :
    d'.instant = d.instant - delta := by
  unfold minus at h
  split at h
  · cases h
    simp only [instant]
    ring
  · cases h

/-- A date can be set back by a duration that does not reach behind the year 1. -/
theorem exists_minus_checked_iff (d : Datetime) {delta : Timedelta} (hdelta : 0 ≤ delta) :
    (∃ d', (delta.checked >>= d.minus) = .ok d') ↔ delta ≤ d.wall := by
  have hle := d.wall_le
  constructor
  · rintro ⟨d', h⟩
    unfold Timedelta.checked at h
    split_ifs at h
    · have hminus : d.minus delta = .ok d' := h
      unfold minus at hminus
      split_ifs at hminus with hrange
      linarith [hrange.1]
    · cases h
  · intro h
    have hday : (0 : ℤ) < Timedelta.day := by decide
    have hmax : maxWall ≤ 999999999 * Timedelta.day := by decide
    have hlower : 0 ≤ delta / Timedelta.day := Int.ediv_nonneg hdelta hday.le
    have hupper : delta / Timedelta.day ≤ 999999999 :=
      Int.ediv_le_of_le_mul hday (h.trans (hle.trans hmax))
    unfold Timedelta.checked
    rw [if_pos ⟨by linarith, hupper⟩]
    exact ⟨_, dif_pos ⟨by linarith, by linarith⟩⟩

/-- No instant lies before the year 1 or after the year 9999 by more than a day. -/
theorem instant_bounds (d : Datetime) :
    -Timedelta.day < d.instant ∧ d.instant < maxWall + Timedelta.day := by
  have hoffset : |d.utcoffset.getD 0| < Timedelta.day := by
    cases h : d.utcoffset with
    | none => decide
    | some o => exact abs_lt.2 (d.utcoffset_lt o h)
  obtain ⟨hlower, hupper⟩ := abs_lt.1 hoffset
  have hnonneg := d.wall_nonneg
  have hle := d.wall_le
  unfold instant
  constructor
  · linarith
  · linarith

/-- The difference of two datetimes is a finite number of seconds. -/
theorem totalSeconds_sub_eq_fin (d d' : Datetime) :
    ∃ q, Timedelta.totalSeconds (d.instant - d'.instant) = .fin q := by
  obtain ⟨hlower, hupper⟩ := d.instant_bounds
  obtain ⟨hlower', hupper'⟩ := d'.instant_bounds
  have hrange : maxWall + 2 * Timedelta.day ≤ 2 ^ 60 := by decide
  have habs : |d.instant - d'.instant| ≤ 2 ^ 60 := abs_le.2 ⟨by linarith, by linarith⟩
  have hcast : |((d.instant - d'.instant : ℤ) : ℚ)| ≤ 2 ^ 60 := by exact_mod_cast habs
  refine ⟨_, Double.ofRat_eq_fin (n := 60) (by decide) ?_⟩
  rw [abs_div, div_le_iff₀ (by norm_num)]
  refine hcast.trans ?_
  norm_num

end Datetime

end ClusterPulse
