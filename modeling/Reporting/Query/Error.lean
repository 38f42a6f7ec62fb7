import Reporting.Definition.Basic
import Reporting.Source.Basic

/-!
# Query/Error — why a report fails

A definition can be wrong for the fields there are, a run can fail to get or to hold its records,
and it can be called off.  Errors name their cause; `ReportError.message` puts it into words.
-/

namespace Reporting

/-- What is wrong with the operand of a filter. -/
inductive OperandFault
  /-- A set where a single value is needed. -/
  | setForValue (operator : Operator)
  /-- Nothing where a single value is needed. -/
  | noValue (operator : Operator)
  /-- A single value where a set is needed. -/
  | valueForSet (operator : Operator)
  /-- Nothing where a set is needed. -/
  | noSet (operator : Operator)
  /-- No upper end of a range. -/
  | noEnd
  /-- A value of a type that is not the field's. -/
  | wrongType (expected found : FieldType)
  /-- A fault described by whoever found it. -/
  | described (text : String)
  deriving DecidableEq, Repr

/-- What is said about an operand. -/
def OperandFault.message : OperandFault → String
  | setForValue operator => s!"{operator.name} expects a single value, got a set"
  | noValue operator => s!"{operator.name} requires a value"
  | valueForSet operator => s!"{operator.name} expects a set of values"
  | noSet operator => s!"{operator.name} requires a set of values"
  | noEnd => "between requires valueEnd"
  | wrongType expected found => s!"expected {expected.name} value, got {found.name}"
  | described text => text

/-- What is wrong with the grouping of a report. -/
inductive GroupingFault
  /-- Records cannot be grouped by the field. -/
  | notGroupable (field : String)
  /-- The field is grouped by twice. -/
  | repeated (field : String)
  /-- There are aggregations, and no groups. -/
  | noGroups
  /-- The selected field is neither grouped by nor aggregated. -/
  | unaccounted (field : String)
  /-- A fault described by whoever found it. -/
  | described (text : String)
  deriving DecidableEq, Repr

/-- What is said about a grouping. -/
def GroupingFault.message : GroupingFault → String
  | notGroupable field => s!"field '{field}' is not groupable"
  | repeated field => s!"field '{field}' appears more than once in groupBy"
  | noGroups => "aggregations require at least one groupBy field"
  | unaccounted field => s!"selected field '{field}' must be listed in groupBy or aggregated"
  | described text => text

/-- Why a report fails. -/
inductive ReportError
  /-- There is no such field. -/
  | unknownField (field : String)
  /-- The operator does not go with the type of the field. -/
  | invalidOperator (field : String) (type : FieldType) (operator : Operator)
  /-- The operand of a filter is wrong. -/
  | invalidFilterValue (field : String) (fault : OperandFault)
  /-- Records cannot be filtered by the field. -/
  | notFilterable (field : String)
  /-- Records cannot be sorted by the field. -/
  | notSortable (field : String)
  /-- The grouping is wrong. -/
  | invalidGrouping (fault : GroupingFault)
  /-- The function cannot reduce values of the field. -/
  | invalidTarget (target : String) (field : String) (function : Reduction) (type : FieldType)
  /-- Two columns have one name. -/
  | duplicateColumn (name : String)
  /-- The records cannot be had. -/
  | sourceUnavailable (cause : SourceError)
  /-- More records pass the filters than may be held. -/
  | workingSetExceeded (limit : Nat)
  /-- The run was called off. -/
  | cancelled
  deriving DecidableEq, Repr

/-- The broad kinds of errors. -/
inductive ErrorClass
  /-- The definition is wrong for the fields there are. -/
  | validation
  /-- The run could not get or hold its records. -/
  | resource
  /-- The run was called off. -/
  | cancelled
  deriving DecidableEq, Repr

/-- The name of a class. -/
def ErrorClass.name : ErrorClass → String
  | validation => "Validation"
  | resource => "Resource"
  | cancelled => "Cancelled"

namespace ReportError

/-- The code of an error, the same for all errors of its kind. -/
def code : ReportError → String
  | unknownField _ => "UnknownField"
  | invalidOperator _ _ _ => "InvalidOperator"
  | invalidFilterValue _ _ => "InvalidFilterValue"
  | notFilterable _ => "NotFilterable"
  | notSortable _ => "NotSortable"
  | invalidGrouping _ => "InvalidGrouping"
  | invalidTarget _ _ _ _ => "InvalidAggregationTarget"
  | duplicateColumn _ => "DuplicateAlias"
  | sourceUnavailable _ => "SourceUnavailable"
  | workingSetExceeded _ => "WorkingSetExceeded"
  | cancelled => "Cancelled"

/-- The class of an error. -/
def errorClass : ReportError → ErrorClass
  | sourceUnavailable _ | workingSetExceeded _ => .resource
  | cancelled => .cancelled
  | _ => .validation

/-- Whether the definition is at fault. -/
def isValidation (e : ReportError) : Bool := e.errorClass = .validation

/-- Whether it may help to try once more. -/
def isRetryable : ReportError → Bool
  | sourceUnavailable _ => true
  | _ => false

/-- What is said about an error. -/
def message : ReportError → String
  | unknownField field => s!"Unknown field: '{field}'"
  | invalidOperator field type operator =>
    s!"Operator '{operator.name}' is not valid for {type.name} field '{field}'"
  | invalidFilterValue field fault => s!"Invalid filter value for field '{field}': {fault.message}"
  | notFilterable field => s!"Field '{field}' is not filterable"
  | notSortable field => s!"Field '{field}' is not sortable"
  | invalidGrouping fault => s!"Invalid grouping: {fault.message}"
  | invalidTarget target field function type =>
    s!"Aggregation '{target}' cannot apply {function.name} to {type.name} field '{field}'"
  | duplicateColumn name => s!"Duplicate output column: '{name}'"
  | sourceUnavailable cause => s!"Record source unavailable: {cause.message}"
  | workingSetExceeded limit =>
    s!"Filtered record set exceeds the working-set limit of {limit} records"
  | cancelled => "Report execution was cancelled"

end ReportError

end Reporting
