import Reporting.Query.Reduce
import Reporting.Query.Window
import Reporting.Registry
import Reporting.Report.Basic
import Reporting.Text.Search

/-!
# Query/Meaning — what a definition asks for, read off the records

`Definition.meaning` is the report that a definition asks for, told without slots and without plans.
A field is looked up by its id in the record itself whenever it is needed, each clause is read as it
stands, records are sorted by putting them in one after another, and a group is what is left of all
records when those unlike its first record are taken out.  It is the measure of a plan: a run may
keep its rows in any way as long as this report comes out.
-/

namespace Reporting

/-! ## Records -/

/-- The records among some items. -/
def Item.records (items : List Item) : List Record :=
  items.filterMap fun
    | .record r => some r
    | .malformed _ => none

/-- The number of items that cannot be read. -/
def Item.unreadable (items : List Item) : Nat :=
  items.countP fun
    | .record _ => false
    | .malformed _ => true

namespace Field

/-- The value that a record has for a field: none if it is missing, null or of another type. -/
def valueIn (f : Field) (record : Record) : Option Value :=
  (record.get? f.id).bind (Value.ofCell? f.type)

/-- Whether a record has something for a field, and not of its type. -/
def isMalformedIn (f : Field) (record : Record) : Bool :=
  match record.get? f.id with
  | none | some .null => false
  | some cell => (Value.ofCell? f.type cell).isNone

end Field

namespace Registry

/-- The value that a record has under the id of a field. -/
def valueIn (r : Registry) (id : String) (record : Record) : Option Value :=
  (r.find? id).bind fun f => f.valueIn record

/-- A record under several ids, as the cells of a row. -/
def cellsIn (r : Registry) (ids : List String) (record : Record) : List (String × Json) :=
  ids.map fun id => (id, Value.cellOrNull (r.valueIn id record))

/-- The column of a field. -/
def column (r : Registry) (id : String) : Column :=
  ⟨id, ((r.find? id).map (·.name)).getD id⟩

end Registry

/-! ## Filters -/

/-- Whether a clause holds of a cell.  Nothing but the question for null holds of no value. -/
def Clause.holds (c : Clause) : Option Value → Bool
  | none => c.operator = .isNull
  | some v =>
    match c.operator, c.value, c.valueEnd with
    | .isNotNull, _, _ => true
    | .equals, some (.one x), _ => v == x
    | .notEquals, some (.one x), _ => v != x
    | .greaterThan, some (.one x), _ => (v.compare? x).any (·.isGT)
    | .lessThan, some (.one x), _ => (v.compare? x).any (·.isLT)
    | .greaterOrEqual, some (.one x), _ => (v.compare? x).any (·.isGE)
    | .lessOrEqual, some (.one x), _ => (v.compare? x).any (·.isLE)
    | .between, some (.one low), some high =>
      (v.compare? low).any (·.isGE) && (v.compare? high).any (·.isLE)
    | .contains, some (.one (.text s)), _ => v.isTextWith (Text.occursIn s.toList)
    | .startsWith, some (.one (.text s)), _ => v.isTextWith s.toList.isPrefixOf
    | .endsWith, some (.one (.text s)), _ => v.isTextWith s.toList.isSuffixOf
    | .isIn, some (.many xs), _ => xs.contains v
    | .notIn, some (.many xs), _ => !xs.contains v
    | _, _, _ => false

namespace Definition

/-- Whether a record passes all filters. -/
def keeps (d : Definition) (r : Registry) (record : Record) : Bool :=
  d.filters.all fun c => c.holds (r.valueIn c.fieldId record)

/-- The number of malformed cells of a record in the fields that a definition mentions. -/
def malformedCells (d : Definition) (r : Registry) (record : Record) : Nat :=
  d.referenced.countP fun id => (r.find? id).any fun f => f.isMalformedIn record

end Definition

/-! ## Sorting -/

/-- The order of two records by a key. -/
def SortKey.compare (r : Registry) (key : SortKey) (a b : Record) : Ordering :=
  match r.find? key.fieldId with
  | some f => SlotKey.compareCells f key.direction (f.valueIn a) (f.valueIn b)
  | none => .eq

/-- The order of two records by several keys. -/
def SortKey.compareBy (r : Registry) (keys : List SortKey) (a b : Record) : Ordering :=
  firstDecision (keys.map fun key => key.compare r a b)

/-- Puts an item before the first one that it does not come after. -/
def insertBy {α : Type} (order : α → α → Ordering) (x : α) : List α → List α
  | [] => [x]
  | y :: rest => if order x y = .gt then y :: insertBy order x rest else x :: y :: rest

/-- Sorts by putting in one item after another, the last one first, so that items that the order
does not tell apart stay as they were. -/
def insertionSortBy {α : Type} (order : α → α → Ordering) (xs : List α) : List α :=
  xs.foldr (insertBy order) []

/-! ## Grouping -/

/-- Whether two cells are alike: both without a value, or with equal ones. -/
def cellsAlike : Option Value → Option Value → Bool
  | none, none => true
  | some a, some b => a == b
  | _, _ => false

/-- Whether two records are alike under several ids. -/
def Registry.alike (r : Registry) (ids : List String) (a b : Record) : Bool :=
  ids.all fun id => cellsAlike (r.valueIn id a) (r.valueIn id b)

/-- The items that are not like any before them. -/
def leaders {α : Type} (alike : α → α → Bool) : List α → List α
  | [] => []
  | x :: rest => x :: (leaders alike rest).filter fun y => !alike x y

namespace Definition

/-- The records of a group, given its first one. -/
def groupOf (d : Definition) (r : Registry) (sorted : List Record) (leader : Record) : List Record :=
  sorted.filter (r.alike d.groupBy leader)

/-- The sort keys that order groups. -/
def groupSort (d : Definition) : List SortKey := d.sort.filter fun key => key.fieldId ∈ d.groupBy

/-- The first records of the groups, in order. -/
def groupLeaders (d : Definition) (r : Registry) (sorted : List Record) : List Record :=
  insertionSortBy (SortKey.compareBy r d.groupSort) (leaders (r.alike d.groupBy) sorted)

/-! ## The report -/

/-- The columns of the report. -/
def columns (d : Definition) (r : Registry) : List Column :=
  if d.isGrouped then
    d.groupBy.map r.column ++ d.aggregations.map fun a => ⟨a.target, a.target⟩
  else (firstOccurrences d.fields).map r.column

/-- A record as a row. -/
def rowOf (d : Definition) (r : Registry) (record : Record) : Row :=
  Json.Members.ofList (r.cellsIn d.fields record)

/-- The value of an aggregation over some records. -/
def reduce (r : Registry) (a : Aggregation) (members : List Record) : Option Value :=
  a.function.apply (members.map (r.valueIn a.fieldId))

/-- The row of a group, given its first record. -/
def groupRow (d : Definition) (r : Registry) (sorted : List Record) (leader : Record) : Row :=
  let reduced := d.aggregations.map fun a =>
    (a.target, Value.cellOrNull (reduce r a (d.groupOf r sorted leader)))
  Json.Members.ofList (r.cellsIn d.groupBy leader ++ reduced)

/-- A group, given its first record. -/
def partitionOf (d : Definition) (r : Registry) (sorted : List Record) (leader : Record) :
    Partition :=
  ⟨(r.cellsIn d.groupBy leader).map (·.2), (d.groupOf r sorted leader).map (d.rowOf r)⟩

/-- The records that pass the filters, in order. -/
def selection (d : Definition) (r : Registry) (items : List Item) : List Record :=
  insertionSortBy (SortKey.compareBy r d.sort) ((Item.records items).filter (d.keeps r))

/-- The report that a definition asks for of some items. -/
def meaning (d : Definition) (r : Registry) (items : List Item) : Report :=
  let sorted := d.selection r items
  let leaders := d.groupLeaders r sorted
  let page := window d.offset d.limit leaders
  { columns := d.columns r
    rows :=
      if d.isGrouped then page.map (d.groupRow r sorted)
      else (window d.offset d.limit sorted).map (d.rowOf r)
    totalRows := sorted.length
    elapsed := Double.zero
    groups :=
      if d.isGrouped then some ⟨d.groupBy, leaders.length, page.map (d.partitionOf r sorted)⟩
      else none
    skipped := Item.unreadable items
    malformed := (Item.records items).foldl (fun n record => n + d.malformedCells r record) 0 }

end Definition

end Reporting
