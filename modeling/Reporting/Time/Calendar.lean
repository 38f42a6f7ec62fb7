/-!
# Time/Calendar — days and dates

The Gregorian calendar reckoned in both directions without bound, with a year zero before year one.
A day is a number, zero on the first of January 1970; `Date.day` and `Date.ofDay` go back and
forth.
-/

namespace Reporting.Time

/-- A day of the calendar. -/
structure Date where
  year : Int
  month : Nat
  dayOfMonth : Nat
  deriving DecidableEq, Repr

/-- Whether a year has a 29th of February. -/
def isLeapYear (year : Int) : Bool := year % 4 = 0 && (year % 100 ≠ 0 || year % 400 = 0)

/-- The lengths of the months of a year. -/
def monthLengths (year : Int) : List Nat :=
  [31, if isLeapYear year then 29 else 28, 31, 30, 31, 30, 31, 31, 30, 31, 30, 31]

/-- The days from the start of year zero to the start of a year.  A year adds a day when it comes
after a leap year, so the quotients are rounded up. -/
def daysBeforeYear (year : Int) : Int :=
  365 * year + (year + 3) / 4 - (year + 99) / 100 + (year + 399) / 400

/-- The days from the start of year zero to the first of January 1970. -/
def epochDay : Int := 719528

/-- Whether a date is in the calendar. -/
def Date.isValid (d : Date) : Bool :=
  1 ≤ d.month && d.month ≤ 12 && 1 ≤ d.dayOfMonth &&
    d.dayOfMonth ≤ (monthLengths d.year).getD (d.month - 1) 0

/-- The days from the start of a year to the start of a month. -/
def daysBeforeMonth (year : Int) (month : Nat) : Nat :=
  ((monthLengths year).take (month - 1)).foldr (· + ·) 0

/-- The number of a day. -/
def Date.day (d : Date) : Int :=
  daysBeforeYear d.year + daysBeforeMonth d.year d.month + (d.dayOfMonth - 1 : Int) - epochDay

/-- The year that holds a day counted from the start of year zero.  Four centuries have 146097
days, so the quotient is the year or one beside it. -/
def yearOfDay (n : Int) : Int :=
  let guess := n * 400 / 146097
  if n < daysBeforeYear guess then guess - 1
  else if daysBeforeYear (guess + 1) ≤ n then guess + 1
  else guess

/-- The month, counted from the given one, and the day in it, of a day counted from zero. -/
def monthOfDay (month : Nat) : List Nat → Nat → Nat × Nat
  | [], n => (month, n + 1)
  | length :: rest, n => if n < length then (month, n + 1) else monthOfDay (month + 1) rest (n - length)

/-- The date of a day. -/
def Date.ofDay (n : Int) : Date :=
  let n := n + epochDay
  let year := yearOfDay n
  let (month, dayOfMonth) := monthOfDay 1 (monthLengths year) (n - daysBeforeYear year).toNat
  ⟨year, month, dayOfMonth⟩

end Reporting.Time
