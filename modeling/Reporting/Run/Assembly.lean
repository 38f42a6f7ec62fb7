import Reporting.Query.Plan
import Reporting.Report.Basic

/-!
# Run/Assembly — rows as a report

The records that passed the filters are sorted, grouped where the plan says so, cut to a page and
written as rows of the report.
-/

namespace Reporting.Plan

/-- The selected cells of a row. -/
def project (p : Plan) (row : TypedRow) : Row :=
  Json.Members.ofList (p.selected.map fun slot => (slot.field.id, Value.cellOrNull (row.at slot)))

/-- The columns of the report. -/
def columns (p : Plan) : List Column :=
  if p.isGrouped then
    p.groupBy.map (fun slot => ⟨slot.field.id, slot.field.name⟩) ++
      p.reductions.map fun a => ⟨a.target, a.target⟩
  else p.selected.map fun slot => ⟨slot.field.id, slot.field.name⟩

/-- The row of a group: its key and its aggregations. -/
def summary (p : Plan) (g : RowGroup) : Row :=
  let keys := (p.groupBy.zip g.key).map fun (slot, v) => (slot.field.id, Value.cellOrNull v)
  let values := p.reductions.map fun a => (a.target, Value.cellOrNull (a.value g.members))
  Json.Members.ofList (keys ++ values)

/-- A group in the report. -/
def partition (p : Plan) (g : RowGroup) : Partition :=
  ⟨g.key.map Value.cellOrNull, g.members.map p.project⟩

/-- The groups of sorted rows, in order. -/
def groupsOf (p : Plan) (sorted : List TypedRow) : List RowGroup :=
  groupRows p.groupBy p.groupOrder sorted

/-- The report on the rows that passed the filters. -/
def report (p : Plan) (rows : List TypedRow) (skipped malformed : Nat) : Report :=
  let sorted := sortRows p.sort rows
  if p.isGrouped then
    let groups := p.groupsOf sorted
    let page := window p.offset p.limit groups
    { columns := p.columns
      rows := page.map p.summary
      totalRows := sorted.length
      elapsed := Double.zero
      groups := some ⟨p.groupBy.map (·.field.id), groups.length, page.map p.partition⟩
      skipped
      malformed }
  else
    { columns := p.columns
      rows := (window p.offset p.limit sorted).map p.project
      totalRows := sorted.length
      elapsed := Double.zero
      groups := none
      skipped
      malformed }

end Reporting.Plan
