import Reporting.Double.Basic
import Reporting.FieldType
import Reporting.Time.Instant

/-!
# Value/Basic — typed values

A report reads every cell of a record once, as a value of the type its field has; from then on only
values of one type meet.  `Value.compare?` orders values of one type, `Value.same` is the equality
that filters use.
-/

namespace Reporting

/-- A value. -/
inductive Value
  | text (s : String)
  | number (x : Float)
  | date (t : Time.Instant)
  | bool (b : Bool)
  | enum (s : String)

namespace Value

/-- The type that a value belongs to. -/
def type : Value → FieldType
  | text _ => .text
  | number _ => .number
  | date _ => .date
  | bool _ => .boolean
  | enum _ => .enum

/-- The order of values of one type.  Texts are ordered by code point, which is also the order of
their bytes, and false comes before true.  Numbers that are not numbers have no place, and values
of different types are not compared. -/
def compare? : Value → Value → Option Ordering
  | text a, text b => some (compare a b)
  | enum a, enum b => some (compare a b)
  | number a, number b => Double.compare? a b
  | date a, date b => some (a.compare b)
  | bool a, bool b => some (compare a b)
  | _, _ => none

/-- Whether two values are equal.  Both zeros are, and what is not a number equals nothing. -/
def same : Value → Value → Bool
  | text a, text b => a == b
  | enum a, enum b => a == b
  | number a, number b => Double.same a b
  | date a, date b => a == b
  | bool a, bool b => a == b
  | _, _ => false

instance : BEq Value := ⟨same⟩

/-- Whether a value is a text for which a question is answered with yes. -/
def isTextWith (question : List Char → Bool) : Value → Bool
  | text s => question s.toList
  | _ => false

/-- The number that a value is in sums: its own, or the milliseconds of an instant. -/
def amount? : Value → Option Float
  | number x => some x
  | date t => some (Double.ofInt t.millis)
  | _ => none

end Value

end Reporting
