import Reporting.Proofs.Double.Nearest
import Reporting.Proofs.Value.Cell

/-!
# Proofs/Value/Amounts — dates as amounts

Filters, sort keys and extremes order dates as instants, sums and averages take their milliseconds.
Milliseconds know no leap seconds: those of one are counted again in the second that follows it
(`Time.Instant.RunsPast`).  Up to that, the two orders agree (`Value.amounts_ordered_iff`): a date that is
before another one has no larger an amount, whatever lies between their milliseconds and whichever side
of 1970 they are on.  All milliseconds of instants are doubles, so nothing is lost on the way there
(`Value.compare?_amount`).
-/

namespace Reporting

-- Powers are those of natural numbers, whatever else has powers.
attribute [local instance (high)] instPowNat

namespace Time.Instant

variable {s t : Instant}

/-- Whether an instant in a leap second has run past one in the next second: more whole milliseconds of
the one have gone by than of the other. -/
def RunsPast (s t : Instant) : Prop :=
  nanosPerSecond ≤ s.nano ∧ t.second = s.second + 1 ∧
    t.nano / 1000000 < (s.nano - nanosPerSecond) / 1000000

instance (s t : Instant) : Decidable (s.RunsPast t) :=
  inferInstanceAs (Decidable (_ ∧ _ ∧ _))

/-- **An instant has no more milliseconds than one that comes after it**, unless it has run past that
one. -/
theorem millis_le_millis_iff (h : s.compare t = .lt) : s.millis ≤ t.millis ↔ ¬ s.RunsPast t := by
  have hs := s.nano_lt
  have hleap := s.leap
  have hnext := t.leap
  rw [RunsPast, millis, millis]
  rw [nanosPerSecond] at hs hleap hnext ⊢
  rcases compare_eq_lt_iff.1 h with hsecond | ⟨hsecond, hnano⟩
  · -- A second that follows a leap second is none itself, being the first of its minute.
    omega
  · have hmillis : s.nano / 1000000 ≤ t.nano / 1000000 := Nat.div_le_div_right (Nat.le_of_lt hnano)
    omega

/-- **The milliseconds of all instants are doubles.** -/
theorem natAbs_millis_le (t : Instant) : t.millis.natAbs ≤ 2 ^ (53 : Nat) := by
  obtain ⟨hfirst, hlast⟩ := t.inRange
  have hnano := t.nano_lt
  have hlow : -9000000000000 ≤ firstSecond := by decide
  have hhigh : lastSecond ≤ 9000000000000 := by decide
  have hpow : (2 ^ (53 : Nat) : Nat) = 9007199254740992 := by decide
  rw [nanosPerSecond] at hnano
  rw [millis, hpow]
  omega

end Time.Instant

namespace Value

open Time (Instant)

variable {a b : Value} {raw raw' : Json}

/-- **Amounts of dates are compared as their milliseconds are.** -/
theorem compare?_amount (s t : Instant) :
    Double.compare? (Double.ofInt s.millis) (Double.ofInt t.millis) =
      some (compare s.millis t.millis) :=
  Double.compare?_ofInt s.natAbs_millis_le t.natAbs_millis_le

/-- What is read as a date is an instant. -/
theorem exists_date_of_ofCell (h : ofCell .date raw = .ok (some a)) : ∃ t, a = date t :=
  (suits_of_ofCell? (ofCell_eq_some_iff.1 h)).exists_date

/-- **The order of dates is that of their amounts, but for leap seconds.**  Take two dates that are read
from records, one before the other.  Both have amounts, and that of the first is at most that of the
second, unless the first is in a leap second, the second in the second right behind it, and more whole
milliseconds of the first have gone by. -/
theorem amounts_ordered_iff (ha : ofCell .date raw = .ok (some a))
    (hb : ofCell .date raw' = .ok (some b)) (h : a.compare? b = some .lt) :
    ∃ s t x y, a = date s ∧ b = date t ∧ a.amount? = some x ∧ b.amount? = some y ∧
      ((Double.compare? x y).any Ordering.isLE ↔ ¬ s.RunsPast t) := by
  obtain ⟨s, rfl⟩ := exists_date_of_ofCell ha
  obtain ⟨t, rfl⟩ := exists_date_of_ofCell hb
  refine ⟨s, t, _, _, rfl, rfl, rfl, rfl, ?_⟩
  have hbefore : s.compare t = .lt := Option.some.inj h
  rw [compare?_amount, Option.any_some, Int.isLE_compare, Instant.millis_le_millis_iff hbefore]

/-- A leap second that has not run past the next second: as amounts the two dates are one. -/
theorem amounts_ordered_iff_leapSecond : ∃ a b x y,
    ofCell .date (.string "2016-12-31T23:59:60.5Z") = .ok (some a) ∧
    ofCell .date (.ofInt 1483228800500) = .ok (some b) ∧ a.compare? b = some .lt ∧
    a.amount? = some x ∧ b.amount? = some y ∧ (Double.compare? x y).any Ordering.isLE := by
  obtain ⟨s, t, hs, ht, hlt, hpast⟩ : ∃ s t,
      ofCell .date (.string "2016-12-31T23:59:60.5Z") = .ok (some (date s)) ∧
      ofCell .date (.ofInt 1483228800500) = .ok (some (date t)) ∧
      (date s).compare? (date t) = some .lt ∧ ¬ s.RunsPast t :=
    ⟨_, _, rfl, rfl, by decide, by decide⟩
  obtain ⟨_, _, x, y, ⟨⟩, ⟨⟩, hx, hy, hiff⟩ := amounts_ordered_iff hs ht hlt
  exact ⟨_, _, x, y, hs, ht, hlt, hx, hy, hiff.2 hpast⟩

/-- Half of the leap second at the end of 2016 is before the year 2017, and its amount is the larger. -/
theorem not_amounts_ordered_of_leapSecond : ∃ a b x y,
    ofCell .date (.string "2016-12-31T23:59:60.5Z") = .ok (some a) ∧
    ofCell .date (.string "2017-01-01") = .ok (some b) ∧ a.compare? b = some .lt ∧
    a.amount? = some x ∧ b.amount? = some y ∧ Double.compare? x y = some .gt := by
  obtain ⟨s, t, hs, ht, hlt, hgt⟩ : ∃ s t,
      ofCell .date (.string "2016-12-31T23:59:60.5Z") = .ok (some (date s)) ∧
      ofCell .date (.string "2017-01-01") = .ok (some (date t)) ∧
      (date s).compare? (date t) = some .lt ∧ compare s.millis t.millis = .gt :=
    ⟨_, _, rfl, rfl, by decide, by decide⟩
  exact ⟨_, _, _, _, hs, ht, hlt, rfl, rfl, (compare?_amount s t).trans (congrArg some hgt)⟩

end Value

end Reporting
