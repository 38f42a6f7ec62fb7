import Reporting.FieldType

/-!
# Definition/Operator — the words of a definition

The operators of filters, the functions of aggregations and the directions of sort keys, with their
names in requests, and which operator goes with which type of field.
-/

namespace Reporting

/-- What a filter asks of a value. -/
inductive Operator
  | equals
  | notEquals
  | greaterThan
  | lessThan
  | greaterOrEqual
  | lessOrEqual
  | contains
  | startsWith
  | endsWith
  | isIn
  | notIn
  | isNull
  | isNotNull
  | between
  deriving DecidableEq, Repr

namespace Operator

/-- All operators. -/
def all : List Operator :=
  [equals, notEquals, greaterThan, lessThan, greaterOrEqual, lessOrEqual, contains, startsWith,
    endsWith, isIn, notIn, isNull, isNotNull, between]

/-- The name of an operator in requests and messages. -/
def name : Operator → String
  | equals => "equals"
  | notEquals => "notEquals"
  | greaterThan => "greaterThan"
  | lessThan => "lessThan"
  | greaterOrEqual => "greaterOrEqual"
  | lessOrEqual => "lessOrEqual"
  | contains => "contains"
  | startsWith => "startsWith"
  | endsWith => "endsWith"
  | isIn => "in"
  | notIn => "notIn"
  | isNull => "isNull"
  | isNotNull => "isNotNull"
  | between => "between"

/-- Whether an operator only asks if there is a value, and needs no operand. -/
def isNullTest : Operator → Bool
  | isNull | isNotNull => true
  | _ => false

/-- Whether the operand of an operator is a set of values. -/
def takesSet : Operator → Bool
  | isIn | notIn => true
  | _ => false

/-- An operator, decoded. -/
def decode : Json.Decoder Operator := Json.Decode.oneOf all name

end Operator

/-- The operators that go with a type of field. -/
def FieldType.operators : FieldType → List Operator
  | text => [.equals, .notEquals, .contains, .startsWith, .endsWith, .isNull, .isNotNull]
  | number | date =>
    [.equals, .notEquals, .greaterThan, .lessThan, .greaterOrEqual, .lessOrEqual, .between,
      .isNull, .isNotNull]
  | boolean => [.equals, .notEquals]
  | enum => [.equals, .notEquals, .isIn, .notIn, .isNull, .isNotNull]

/-- Whether an operator goes with a type of field. -/
def Operator.isLegal (o : Operator) (type : FieldType) : Bool := type.operators.contains o

/-- How the values of a partition become one. -/
inductive Reduction
  | sum
  | avg
  | min
  | max
  | count
  | countDistinct
  deriving DecidableEq, Repr

namespace Reduction

/-- All functions. -/
def all : List Reduction := [sum, avg, min, max, count, countDistinct]

/-- The name of a function in requests and messages. -/
def name : Reduction → String
  | sum => "sum"
  | avg => "avg"
  | min => "min"
  | max => "max"
  | count => "count"
  | countDistinct => "countDistinct"

/-- Whether a function reduces numbers and dates only. -/
def needsNumeric : Reduction → Bool
  | count | countDistinct => false
  | _ => true

/-- A function, decoded. -/
def decode : Json.Decoder Reduction := Json.Decode.oneOf all name

end Reduction

/-- The direction of a sort key. -/
inductive Direction
  | asc
  | desc
  deriving DecidableEq, Repr

namespace Direction

/-- Both directions. -/
def all : List Direction := [asc, desc]

/-- The name of a direction in requests. -/
def name : Direction → String
  | asc => "asc"
  | desc => "desc"

/-- A direction, decoded. -/
def decode : Json.Decoder Direction := Json.Decode.oneOf all name

end Direction

end Reporting
