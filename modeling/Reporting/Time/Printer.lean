import Reporting.Double.Layout
import Reporting.Time.Instant

/-!
# Time/Printer — instants as text

An instant is written as date and time of day in universal time, with a fraction of three, six or
nine digits, the fewest that are exact.  Result rows end it with `+00:00`, requests with `Z`.  A
year that does not have four digits carries its sign.
-/

namespace Reporting.Time

/-- A number with zeros in front up to a width. -/
def padded (width : Nat) (n : Nat) : List Char :=
  let digits := Double.decimalDigits n
  List.replicate (width - digits.length) '0' ++ digits

/-- A year. -/
def yearText (year : Int) : List Char :=
  if year < 0 then '-' :: padded 4 year.natAbs
  else if 9999 < year then '+' :: padded 4 year.natAbs
  else padded 4 year.natAbs

/-- A date. -/
def Date.text (d : Date) : List Char :=
  yearText d.year ++ '-' :: padded 2 d.month ++ '-' :: padded 2 d.dayOfMonth

/-- The fraction of a second. -/
def fractionText (nano : Nat) : List Char :=
  if nano = 0 then []
  else if nano % 1000000 = 0 then '.' :: padded 3 (nano / 1000000)
  else if nano % 1000 = 0 then '.' :: padded 6 (nano / 1000)
  else '.' :: padded 9 nano

/-- How far local time is from universal time. -/
structure Offset where
  /-- Whether local time is behind. -/
  minus : Bool
  hours : Nat
  minutes : Nat
  hours_le : hours ≤ 23 := by decide
  minutes_le : minutes ≤ 59 := by decide
  deriving DecidableEq, Repr

namespace Offset

/-- Universal time itself. -/
def zero : Offset := { minus := false, hours := 0, minutes := 0 }

/-- An offset in seconds. -/
def seconds (o : Offset) : Int :=
  if o.minus then -(o.hours * 3600 + o.minutes * 60 : Nat) else (o.hours * 3600 + o.minutes * 60 : Nat)

/-- An offset at the end of a timestamp. -/
def text (o : Offset) : List Char :=
  (if o.minus then '-' else '+') :: padded 2 o.hours ++ ':' :: padded 2 o.minutes

end Offset

namespace Instant

/-- Date and time of day of an instant at an offset, in whole seconds.  The extra second of a leap
second is the sixtieth. -/
def secondText (t : Instant) (o : Offset) : List Char :=
  let second := t.second + o.seconds
  let ofDay := (second % 86400).toNat
  (Date.ofDay (second / 86400)).text ++ 'T' :: padded 2 (ofDay / 3600) ++
    ':' :: padded 2 (ofDay / 60 % 60) ++ ':' :: padded 2 (ofDay % 60 + t.nano / nanosPerSecond)

/-- Date and time of day of an instant in universal time. -/
def universalText (t : Instant) : List Char :=
  t.secondText .zero ++ fractionText (t.nano % nanosPerSecond)

/-- An instant in result rows and messages. -/
def text (t : Instant) : String := String.ofList (t.universalText ++ Offset.zero.text)

/-- An instant in requests. -/
def wireText (t : Instant) : String := String.ofList (t.universalText ++ ['Z'])

/-- An instant as a timestamp at an offset.  Its milliseconds are written out, and some zeros after
them. -/
def timestamp (t : Instant) (o : Offset) (zeros : Nat) : String :=
  String.ofList (t.secondText o ++
    '.' :: padded 3 (t.nano % nanosPerSecond / 1000000) ++ List.replicate zeros '0' ++ o.text)

end Instant

end Reporting.Time
