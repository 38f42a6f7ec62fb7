import Reporting.Definition.Basic
import Reporting.Registry

/-!
# Query/WellFormed — what makes a definition right

`Definition.WellFormed` lists the rules that a definition has to keep for the fields there are, each
on its own and in no order.  `ReportError.IsTrueOf` tells what an error says about a definition:
that the rule it names is broken, where it says so.  Checking a definition means finding out the
first and, where it fails, to come up with an instance of the second.
-/

namespace Reporting

/-! ## Filters -/

/-- Whether all values are of a type. -/
def Value.allOf (type : FieldType) (vs : List Value) : Prop := ∀ v ∈ vs, v.type = type

/-- Whether the operand of a clause suits its operator and the type of a field.  What an operator
does not ask for is not looked at. -/
def Clause.SuitsType (c : Clause) (type : FieldType) : Prop :=
  match c.operator, c.value, c.valueEnd with
  | .isNull, _, _ | .isNotNull, _, _ => True
  | .isIn, some (.many vs), _ | .notIn, some (.many vs), _ => Value.allOf type vs
  | .between, some (.one low), some high => low.type = type ∧ high.type = type
  | .isIn, _, _ | .notIn, _, _ | .between, _, _ => False
  | _, some (.one v), _ => v.type = type
  | _, _, _ => False

instance (type : FieldType) (vs : List Value) : Decidable (Value.allOf type vs) :=
  inferInstanceAs (Decidable (∀ v ∈ vs, _))

instance (c : Clause) (type : FieldType) : Decidable (c.SuitsType type) := by
  unfold Clause.SuitsType
  split <;> infer_instance

/-- Whether a clause can be put to a field. -/
def Clause.Fits (c : Clause) (f : Field) : Prop :=
  f.filterable ∧ c.operator.isLegal f.type ∧ c.SuitsType f.type

instance (c : Clause) (f : Field) : Decidable (c.Fits f) := inferInstanceAs (Decidable (_ ∧ _ ∧ _))

/-! ## Definitions -/

namespace Definition

/-- The names of the columns of a report with groups. -/
def groupedColumns (d : Definition) : List String := d.groupBy ++ d.aggregations.map (·.target)

/-- Whether a selected field has a place in a report with groups. -/
def Accounts (d : Definition) (id : String) : Prop :=
  id ∈ d.groupBy ∨ id ∈ d.aggregations.map (·.fieldId)

instance (d : Definition) (id : String) : Decidable (d.Accounts id) :=
  inferInstanceAs (Decidable (_ ∨ _))

/-- The rules that a definition keeps. -/
structure WellFormed (r : Registry) (d : Definition) : Prop where
  /-- There is every field that is mentioned. -/
  registered : ∀ id ∈ d.mentions, r.contains id
  /-- Every clause can be put to its field. -/
  filters : ∀ c ∈ d.filters, ∀ f ∈ r.find? c.fieldId, c.Fits f
  /-- Records can be sorted by the sort keys. -/
  sort : ∀ key ∈ d.sort, ∀ f ∈ r.find? key.fieldId, f.sortable
  /-- Records can be grouped by the fields grouped by. -/
  groupable : ∀ id ∈ d.groupBy, ∀ f ∈ r.find? id, f.groupable
  /-- No field is grouped by twice. -/
  distinct : d.groupBy.Nodup
  /-- Aggregations have groups to work on. -/
  grouped : d.aggregations ≠ [] → d.groupBy ≠ []
  /-- With aggregations, every selected field has a place in the report. -/
  accounted : d.aggregations ≠ [] → ∀ id ∈ d.fields, d.Accounts id
  /-- No two columns have one name. -/
  columns : d.groupedColumns.Nodup
  /-- Functions that reckon are applied to numbers and dates. -/
  targets : ∀ a ∈ d.aggregations, a.function.needsNumeric →
    ∀ f ∈ r.find? a.fieldId, f.type.isNumeric

instance (r : Registry) (d : Definition) : Decidable (d.WellFormed r) :=
  decidable_of_iff
    ((∀ id ∈ d.mentions, r.contains id) ∧ (∀ c ∈ d.filters, ∀ f ∈ r.find? c.fieldId, c.Fits f) ∧
      (∀ key ∈ d.sort, ∀ f ∈ r.find? key.fieldId, f.sortable) ∧
      (∀ id ∈ d.groupBy, ∀ f ∈ r.find? id, f.groupable) ∧ d.groupBy.Nodup ∧
      (d.aggregations ≠ [] → d.groupBy ≠ []) ∧
      (d.aggregations ≠ [] → ∀ id ∈ d.fields, d.Accounts id) ∧ d.groupedColumns.Nodup ∧
      ∀ a ∈ d.aggregations, a.function.needsNumeric → ∀ f ∈ r.find? a.fieldId, f.type.isNumeric)
    ⟨fun ⟨a, b, c, d, e, f, g, h, i⟩ => ⟨a, b, c, d, e, f, g, h, i⟩,
      fun h => ⟨h.registered, h.filters, h.sort, h.groupable, h.distinct, h.grouped, h.accounted,
        h.columns, h.targets⟩⟩

end Definition

/-! ## Errors -/

/-- Whether a clause has the fault that is said of its operand, its field having a type. -/
def OperandFault.IsTrueOf (c : Clause) (type : FieldType) : OperandFault → Prop
  | setForValue operator =>
    c.operator = operator ∧ !operator.takesSet ∧ ∃ vs, c.value = some (.many vs)
  | noValue operator => c.operator = operator ∧ !operator.takesSet ∧ c.value = none
  | valueForSet operator => c.operator = operator ∧ operator.takesSet ∧ ∃ v, c.value = some (.one v)
  | noSet operator => c.operator = operator ∧ operator.takesSet ∧ c.value = none
  | noEnd => c.operator = .between ∧ c.valueEnd = none
  | wrongType expected found =>
    expected = type ∧ found ≠ type ∧
      ∃ v : Value, v.type = found ∧
        (c.value = some (.one v) ∨ (∃ vs, c.value = some (.many vs) ∧ v ∈ vs) ∨
          c.operator = .between ∧ c.valueEnd = some v)
  | described _ => False

/-- Whether a definition is wrong in the way an error says. -/
def ReportError.IsTrueOf (r : Registry) (d : Definition) : ReportError → Prop
  | unknownField id => id ∈ d.mentions ∧ !r.contains id
  | notFilterable id => ∃ c ∈ d.filters, c.fieldId = id ∧ ∃ f ∈ r.find? id, !f.filterable
  | invalidOperator id type operator =>
    !operator.isLegal type ∧
      ∃ c ∈ d.filters, c.fieldId = id ∧ c.operator = operator ∧ ∃ f ∈ r.find? id, f.type = type
  | invalidFilterValue id fault =>
    ∃ c ∈ d.filters, c.fieldId = id ∧ !c.operator.isNullTest ∧
      ∃ f ∈ r.find? id, fault.IsTrueOf c f.type
  | notSortable id => ∃ key ∈ d.sort, key.fieldId = id ∧ ∃ f ∈ r.find? id, !f.sortable
  | invalidGrouping (.notGroupable id) => id ∈ d.groupBy ∧ ∃ f ∈ r.find? id, !f.groupable
  | invalidGrouping (.repeated id) => 2 ≤ d.groupBy.count id
  | invalidGrouping .noGroups => d.aggregations ≠ [] ∧ d.groupBy = []
  | invalidGrouping (.unaccounted id) => d.aggregations ≠ [] ∧ id ∈ d.fields ∧ ¬ d.Accounts id
  | invalidTarget target id function type =>
    function.needsNumeric ∧ !type.isNumeric ∧
      ∃ a ∈ d.aggregations, a = ⟨id, function, target⟩ ∧ ∃ f ∈ r.find? id, f.type = type
  | duplicateColumn name => 2 ≤ d.groupedColumns.count name
  | invalidGrouping (.described _) | sourceUnavailable _ | workingSetExceeded _ | cancelled => False

end Reporting
