import Reporting.Time.Calendar

/-!
# Time/Instant — points in time

An instant is a second, counted from the start of 1970 in universal time, and nanoseconds into it.
A leap second is a longer last second of a minute: its nanoseconds run on past a thousand million.
So instants are ordered by second and then by nanosecond, and a leap second comes before the second
that follows it although its milliseconds are those of that second.
-/

namespace Reporting.Time

/-- The seconds at which instants begin and end: the years -262143 to 262142. -/
def firstSecond : Int := Date.day ⟨-262143, 1, 1⟩ * 86400

/-- The last second of the range. -/
def lastSecond : Int := Date.day ⟨262142, 12, 31⟩ * 86400 + 86399

/-- The nanoseconds in a second. -/
def nanosPerSecond : Nat := 1000000000

/-- A point in time. -/
structure Instant where
  second : Int
  nano : Nat
  nano_lt : nano < 2 * nanosPerSecond
  /-- Only the last second of a minute can be a leap second. -/
  leap : nanosPerSecond ≤ nano → second % 60 = 59
  inRange : firstSecond ≤ second ∧ second ≤ lastSecond
  deriving DecidableEq

namespace Instant

/-- The instant with the given parts, if there is one. -/
def of? (second : Int) (nano : Nat) : Option Instant :=
  if h : nano < 2 * nanosPerSecond ∧ (nanosPerSecond ≤ nano → second % 60 = 59) ∧
      firstSecond ≤ second ∧ second ≤ lastSecond then
    some ⟨second, nano, h.1, h.2.1, h.2.2⟩
  else none

/-- The order of instants. -/
def compare (a b : Instant) : Ordering := (Ord.compare a.second b.second).then (Ord.compare a.nano b.nano)

/-- Milliseconds since the start of 1970, rounded down. -/
def millis (t : Instant) : Int := t.second * 1000 + (t.nano / 1000000 : Nat)

/-- The instant a number of milliseconds after the start of 1970. -/
def ofMillis? (n : Int) : Option Instant := of? (n / 1000) ((n % 1000).toNat * 1000000)

/-- The instant at which a day begins. -/
def ofDate? (d : Date) : Option Instant := of? (d.day * 86400) 0

/-- Two instants compare equal only if they are the same. -/
theorem compare_eq_iff {a b : Instant} : a.compare b = .eq ↔ a = b := by
  constructor
  · intro h
    simp only [compare, Ordering.then_eq_eq, Std.LawfulEqOrd.compare_eq_iff_eq] at h
    cases a
    cases b
    simp_all
  · rintro rfl
    simp [compare]

end Instant

end Reporting.Time
