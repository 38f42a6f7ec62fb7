import Reporting.Query.Condition
import Reporting.Query.Reduce
import Reporting.Query.Window
import Reporting.Registry

/-!
# Query/Plan — checked definitions

`Plan.ofDefinition` checks a definition against a registry and resolves every field it mentions to
a slot.  It is the only place where a definition can be found wrong: a plan runs on any records.
-/

namespace Reporting

/-- A definition that has been checked, in terms of slots. -/
structure Plan where
  /-- The fields that the definition mentions. -/
  slots : List Slot
  /-- The slots of the selected fields, each once. -/
  selected : List Slot
  filters : List Condition
  sort : List SlotKey
  groupBy : List Slot
  /-- The sort keys that order groups. -/
  groupOrder : List GroupKey
  reductions : List SlotReduction
  limit : Option Nat
  offset : Nat

namespace Plan

/-- Applies a check to each of several things, in order. -/
def each {α β : Type} (check : α → Except ReportError β) : List α → Except ReportError (List β)
  | [] => .ok []
  | x :: rest => do
    let y ← check x
    let more ← each check rest
    .ok (y :: more)

/-- The slots of the fields that a definition mentions. -/
def slotsOf (r : Registry) (d : Definition) : Except ReportError (List Slot) :=
  (each r.resolve d.referenced).map (Slot.number 0)

/-- The slots that a report groups by, given those it groups by already. -/
def groupSlots (slots : List Slot) (taken : List Slot) :
    List String → Except ReportError (List Slot)
  | [] => .ok taken
  | id :: rest => do
    let slot ← Slot.locate slots id
    if !slot.field.groupable then .error (.invalidGrouping (.notGroupable slot.field.id))
    else if slot ∈ taken then .error (.invalidGrouping (.repeated slot.field.id))
    else groupSlots slots (taken ++ [slot]) rest

/-- The aggregations of a definition.  They need groups, and every selected slot has to be grouped
by or aggregated. -/
def reductionsOf (slots selected groupBy : List Slot) (aggregations : List Aggregation) :
    Except ReportError (List SlotReduction) :=
  if aggregations.isEmpty then .ok []
  else if groupBy.isEmpty then .error (.invalidGrouping .noGroups)
  else
    let aggregated := aggregations.map (·.fieldId)
    match selected.find? fun s => !(groupBy.contains s || aggregated.contains s.field.id) with
    | some s => .error (.invalidGrouping (.unaccounted s.field.id))
    | none => SlotReduction.compile slots (groupBy.map (·.field.id)) aggregations

/-- Checks a definition against a registry. -/
def ofDefinition (r : Registry) (d : Definition) : Except ReportError Plan := do
  let slots ← slotsOf r d
  let selected ← each (Slot.locate slots) d.fields
  let selected := firstOccurrences selected
  let filters ← each (Condition.ofClause slots) d.filters
  let sort ← each (SlotKey.ofSortKey slots) d.sort
  let groupBy ← groupSlots slots [] d.groupBy
  let reductions ← reductionsOf slots selected groupBy d.aggregations
  .ok {
    slots
    selected
    filters
    sort
    groupBy
    groupOrder := GroupKey.ofSort groupBy sort
    reductions
    limit := d.limit
    offset := d.offset }

/-- Whether the report has groups. -/
def isGrouped (p : Plan) : Bool := !p.groupBy.isEmpty

/-- Whether a row passes all filters. -/
def accepts (p : Plan) (row : TypedRow) : Bool := p.filters.all (Condition.holds row)

end Plan

end Reporting
