import TestOrch.Core.Except
import TestOrch.Shared.PyFormat

/-!
# `timedelta(seconds=...)` and what is left of it before a datetime

Both kinds of values count microseconds and have a range. A `datetime` is given in UTC, as the
microseconds since the beginning of 1970.
-/

namespace TestOrch

inductive Seconds where
  | int (i : ℤ)
  | float (x : PyFloat)

/-- The number as whole microseconds. Of a `float` the whole seconds are converted exactly; the
fraction is multiplied as a `float`, and what that leaves of a microsecond is rounded. -/
def Seconds.microseconds : Seconds → Except PyError ℤ
  | .int i => .ok (i * 1000000)
  | .float (.finite q) =>
    let whole : ℤ := if 0 ≤ q then ⌊q⌋ else ⌈q⌉
    .ok (whole * 1000000 + roundHalfEven (nearestFloat ((q - whole) * 1000000)))
  | .float .negZero => .ok 0
  | .float (.infinity _) => .error (.overflowError "cannot convert float infinity to integer")
  | .float .nan => .error (.valueError "cannot convert float NaN to integer")

/-- `timedelta(seconds=seconds)`. -/
def timedelta (seconds : Seconds) : Except PyError ℤ := do
  let us ← seconds.microseconds
  let days := us / (24 * 60 * 60 * 1000000)
  if days.natAbs ≤ 999999999 then pure us
  -- the days are converted to an `int` of C before their range is checked
  else if -2147483648 ≤ days ∧ days ≤ 2147483647 then
    .error (.overflowError s!"days={days}; must have magnitude <= 999999999")
  else .error (.overflowError "Python int too large to convert to C int")

/-- From the beginning of the year 1 to the end of the year 9999. -/
def InCalendar (t : ℤ) : Prop := -62135596800000000 ≤ t ∧ t < 253402300800000000

instance (t : ℤ) : Decidable (InCalendar t) := inferInstanceAs (Decidable (_ ∧ _))

/-- A `datetime` in UTC. -/
abbrev UtcTime := { t : ℤ // InCalendar t }

namespace UtcTime

/-- `t - delta`. -/
def sub (t : UtcTime) (delta : ℤ) : Except PyError UtcTime :=
  if h : InCalendar (t - delta) then .ok ⟨t - delta, h⟩
  else .error (.overflowError "date value out of range")

/-- `t - timedelta(seconds=seconds)`. -/
def before (t : UtcTime) (seconds : Seconds) : Except PyError UtcTime := do
  let delta ← timedelta seconds
  t.sub delta

variable {t u : UtcTime} {seconds : Seconds} {us : ℤ}

lemma sub_eq_ok : t.sub us = .ok u ↔ us = t - u := by
  unfold sub
  split_ifs with h
  · rw [Except.ok.injEq, Subtype.ext_iff]
    constructor <;> intro heq <;> simp only at heq ⊢ <;> omega
  · simp only [false_iff]
    rintro rfl
    rw [sub_sub_cancel] at h
    exact h u.2

/-- Between two datetimes there are fewer days than a `timedelta` can hold. -/
lemma timedelta_eq_ok_of_sub (h : seconds.microseconds = .ok (t - u : ℤ)) :
    timedelta seconds = .ok (t - u : ℤ) := by
  have hdays : ((t - u : ℤ) / (24 * 60 * 60 * 1000000)).natAbs ≤ 999999999 := by
    obtain ⟨hlow, hhigh⟩ := t.2
    obtain ⟨hlow', hhigh'⟩ := u.2
    omega
  rw [timedelta, h, Except.ok_bind]
  exact if_pos hdays

lemma microseconds_of_timedelta (h : timedelta seconds = .ok us) :
    seconds.microseconds = .ok us := by
  obtain ⟨us', hus, hrange⟩ := Except.bind_eq_ok.mp h
  dsimp only at hrange
  split_ifs at hrange
  rwa [← Except.ok.inj hrange]

/-- The difference is the datetime that lies the given seconds before, if there is one. -/
theorem before_eq_ok : t.before seconds = .ok u ↔ seconds.microseconds = .ok (t - u : ℤ) := by
  constructor
  · intro h
    obtain ⟨us, hus, hsub⟩ := Except.bind_eq_ok.mp h
    rw [microseconds_of_timedelta hus, sub_eq_ok.mp hsub]
  · intro h
    rw [before, timedelta_eq_ok_of_sub h, Except.ok_bind, sub_eq_ok]

end UtcTime

end TestOrch
