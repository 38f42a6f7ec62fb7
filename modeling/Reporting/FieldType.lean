import Reporting.Json.Decode

/-!
# FieldType — the types of fields
-/

namespace Reporting

/-- The type of a field. -/
inductive FieldType
  | text
  | number
  | date
  | boolean
  | enum
  deriving DecidableEq, Repr

namespace FieldType

/-- All types. -/
def all : List FieldType := [text, number, date, boolean, enum]

/-- The name of a type in requests and messages. -/
def name : FieldType → String
  | text => "text"
  | number => "number"
  | date => "date"
  | boolean => "boolean"
  | enum => "enum"

/-- The type that a name of any capitals means, short forms among them.  The names consist of
letters that no letter outside ASCII turns into, so only the capitals of ASCII matter. -/
def ofName? (s : String) : Option FieldType :=
  match s.toLower with
  | "text" | "string" => some text
  | "number" => some number
  | "date" => some date
  | "boolean" | "bool" => some boolean
  | "enum" => some enum
  | _ => none

/-- Whether sums, averages and extremes make sense for a type. -/
def isNumeric : FieldType → Bool
  | number | date => true
  | text | boolean | enum => false

/-- A type, decoded. -/
def decode : Json.Decoder FieldType := Json.Decode.oneOf all name

theorem mem_all (t : FieldType) : t ∈ all := by cases t <;> decide

/-- Different types have different names. -/
theorem name_injective {a b : FieldType} (h : a.name = b.name) : a = b := by
  cases a <;> cases b <;> first | rfl | exact absurd h (by decide)

end FieldType

end Reporting
