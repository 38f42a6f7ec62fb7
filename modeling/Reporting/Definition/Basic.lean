import Reporting.Definition.Operator
import Reporting.Value.Basic

/-!
# Definition/Basic — what a report asks for

A definition selects fields, filters records, sorts them, groups them, reduces each group and takes
a window of the outcome.
-/

namespace Reporting

/-- What a filter compares with: a value or a set of values. -/
inductive Operand
  | one (value : Value)
  | many (values : List Value)
  deriving BEq

/-- A condition on the value of a field. -/
structure Clause where
  fieldId : String
  operator : Operator
  value : Option Operand
  valueEnd : Option Value
  deriving BEq

namespace Clause

/-- A condition with one value. -/
def compare (fieldId : String) (operator : Operator) (value : Value) : Clause :=
  ⟨fieldId, operator, some (.one value), none⟩

/-- A condition with a set of values. -/
def compareSet (fieldId : String) (operator : Operator) (values : List Value) : Clause :=
  ⟨fieldId, operator, some (.many values), none⟩

/-- The condition that a value lies between two others. -/
def between (fieldId : String) (low high : Value) : Clause :=
  ⟨fieldId, .between, some (.one low), some high⟩

/-- The condition that there is no value. -/
def isNull (fieldId : String) : Clause := ⟨fieldId, .isNull, none, none⟩

/-- The condition that a cell is like another: without a value, or with an equal one. -/
def alike (fieldId : String) : Option Value → Clause
  | some value => compare fieldId .equals value
  | none => isNull fieldId

/-- The condition that there is a value. -/
def isNotNull (fieldId : String) : Clause := ⟨fieldId, .isNotNull, none, none⟩

end Clause

/-- A field to sort by. -/
structure SortKey where
  fieldId : String
  direction : Direction
  deriving DecidableEq, Repr

/-- A reduction of the values that a field has in a group. -/
structure Aggregation where
  fieldId : String
  function : Reduction
  /-- The name of the column it goes to. -/
  target : String
  deriving DecidableEq, Repr

/-- What a report asks for. -/
structure Definition where
  /-- The fields of a row, in order. -/
  fields : List String := []
  filters : List Clause := []
  sort : List SortKey := []
  groupBy : List String := []
  aggregations : List Aggregation := []
  /-- The largest number of rows, or of groups. -/
  limit : Option Nat := none
  /-- The number of rows, or of groups, left out at the start. -/
  offset : Nat := 0
  deriving BEq

/-- A list with only the first of what occurs in it several times. -/
def firstOccurrences {α : Type} [BEq α] (xs : List α) : List α :=
  xs.foldl (fun seen x => if seen.contains x then seen else seen ++ [x]) []

namespace Definition

/-- Whether the report has groups. -/
def isGrouped (d : Definition) : Bool := !d.groupBy.isEmpty

/-- Every mention of a field, in the order of the definition. -/
def mentions (d : Definition) : List String :=
  d.fields ++ d.filters.map (·.fieldId) ++ d.sort.map (·.fieldId) ++ d.groupBy ++
    d.aggregations.map (·.fieldId)

/-- The fields that a definition mentions, each once, in the order of their first mention. -/
def referenced (d : Definition) : List String := firstOccurrences d.mentions

/-- The definition of the records behind a group, given the values of the group in the fields
grouped by. -/
def drillDown (d : Definition) (key : List (Option Value)) : Definition :=
  { d with
    filters := d.filters ++ d.groupBy.zipWith Clause.alike key
    groupBy := []
    aggregations := []
    limit := none
    offset := 0 }

/-- Adds a filter. -/
def addFilter (d : Definition) (clause : Clause) : Definition :=
  { d with filters := d.filters ++ [clause] }

/-- Adds a sort key. -/
def addSort (d : Definition) (key : SortKey) : Definition := { d with sort := d.sort ++ [key] }

/-- Adds a field to group by. -/
def addGroupBy (d : Definition) (fieldId : String) : Definition :=
  { d with groupBy := d.groupBy ++ [fieldId] }

/-- Adds an aggregation. -/
def addAggregation (d : Definition) (aggregation : Aggregation) : Definition :=
  { d with aggregations := d.aggregations ++ [aggregation] }

end Definition

end Reporting
