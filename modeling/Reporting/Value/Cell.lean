import Reporting.Double.Reading
import Reporting.Json.Printer
import Reporting.Time.Printer
import Reporting.Time.Reader
import Reporting.Value.Basic

/-!
# Value/Cell — values in records and in result rows

`Value.ofCell` reads a cell of a record as a value of a type: null is no value, and JSON of the
wrong kind is malformed.  `Value.cell` writes a value into a result row.
-/

namespace Reporting

/-- A cell that is not of the type of its field. -/
structure MalformedValue where
  expected : FieldType
  /-- The kind of JSON found. -/
  found : String
  deriving DecidableEq, Repr

/-- What is said about a malformed cell. -/
def MalformedValue.message (m : MalformedValue) : String :=
  s!"expected {m.expected.name} value, found {m.found}"

namespace Value

/-- A number of a document as a double. -/
def doubleOf : Json.Number → Float
  | .int n _ => Double.ofInt n
  | .float x _ => x

/-- The number of units that a number of a document is. -/
def exactOf : Json.Number → Int
  | .int n _ => n * Double.oneInUnits
  | .float x _ => Double.exact x

/-- The value that a cell is under a type, if the cell suits it.  Dates are timestamps, days, or
milliseconds written as an integer that 64 bits hold with its sign. -/
def ofCell? : FieldType → Json → Option Value
  | .text, .string s => some (text s)
  | .enum, .string s => some (enum s)
  | .number, .number n => some (number (doubleOf n))
  | .boolean, .bool b => some (bool b)
  | .date, .string s => (Time.Instant.ofRecord? s).map date
  | .date, .number (.int n _) =>
    if n < (UInt64.size / 2 : Nat) then (Time.Instant.ofMillis? n).map date else none
  | _, _ => none

/-- Reads a cell as a value of a type. -/
def ofCell (type : FieldType) (cell : Json) : Except MalformedValue (Option Value) :=
  match cell with
  | .null => .ok none
  | cell =>
    match ofCell? type cell with
    | some value => .ok (some value)
    | none => .error ⟨type, cell.kind⟩

/-- The largest magnitude up to which integral numbers are written as integers. -/
def largestInteger : Nat := 0x20000000000000

/-- A double as a number of a result row: an integer if it is one of moderate size, null if it is
no real number. -/
def numberCell (x : Float) : Json :=
  match Double.integer? x with
  | some n => if n.natAbs ≤ largestInteger then .ofInt n else .ofFloat x
  | none => .ofFloat x

/-- A value as a cell of a result row. -/
def cell : Value → Json
  | text s => .string s
  | enum s => .string s
  | number x => numberCell x
  | date t => .string t.text
  | bool b => .bool b

/-- A value that may be absent as a cell. -/
def cellOrNull : Option Value → Json
  | some value => value.cell
  | none => .null

/-- A value in messages: texts between single quotes, numbers in full. -/
def display : Value → String
  | text s => "'" ++ s ++ "'"
  | enum s => "'" ++ s ++ "'"
  | number x => String.ofList (Double.Layout.plain.text x)
  | date t => t.text
  | bool true => "true"
  | bool false => "false"

/-- A cell is read as a value of the type asked for. -/
theorem type_ofCell? {type : FieldType} {cell : Json} {v : Value} (h : ofCell? type cell = some v) :
    v.type = type := by
  unfold ofCell? at h
  split at h
  all_goals first
    | (simp only [Option.some.injEq] at h; subst h; rfl)
    | (obtain ⟨t, -, rfl⟩ := Option.map_eq_some_iff.1 h; rfl)
    | (split at h
       · obtain ⟨t, -, rfl⟩ := Option.map_eq_some_iff.1 h; rfl
       · simp at h)
    | simp at h

end Value

end Reporting
