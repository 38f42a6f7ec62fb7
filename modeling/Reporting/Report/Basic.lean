import Reporting.Json.Decode
import Reporting.Json.Printer

/-!
# Report/Basic — what a run gives back

A report has columns and rows.  A grouped one has a row for every group that made the page, and
the groups themselves with their records.
-/

namespace Reporting

/-- A row of a report: cells by column. -/
abbrev Row := Json.Members

/-- A column of a report. -/
structure Column where
  id : String
  name : String
  deriving DecidableEq, Repr

/-- The records of a report that have equal values in the fields grouped by. -/
structure Partition where
  /-- The values in the fields grouped by. -/
  keyValues : List Json
  rows : List Row

/-- The groups of a report. -/
structure GroupSet where
  /-- The fields grouped by. -/
  keys : List String
  /-- The number of groups before the page was taken. -/
  totalPartitions : Nat
  partitions : List Partition

/-- What a run gives back. -/
structure Report where
  columns : List Column
  rows : List Row
  /-- The number of records that passed the filters. -/
  totalRows : Nat
  /-- How long the run took, in milliseconds. -/
  elapsed : Float
  groups : Option GroupSet
  /-- The number of records that could not be read. -/
  skipped : Nat
  /-- The number of cells that were not of the type of their field. -/
  malformed : Nat

namespace Report

/-- The ids of the columns. -/
def columnIds (r : Report) : List String := r.columns.map (·.id)

/-- Whether the report has groups. -/
def isGrouped (r : Report) : Bool := r.groups.isSome

end Report

/-! ## As documents -/

/-- A column as a document. -/
def Column.json (c : Column) : Json := .object [("id", .string c.id), ("name", .string c.name)]

/-- A group as a document. -/
def Partition.json (p : Partition) : Json :=
  .object [("keyValues", .array p.keyValues), ("rows", .array (p.rows.map .object))]

/-- Groups as a document. -/
def GroupSet.json (g : GroupSet) : Json :=
  .object [("keys", .array (g.keys.map .string)), ("totalPartitions", .ofNat g.totalPartitions),
    ("partitions", .array (g.partitions.map Partition.json))]

/-- A report as a document. -/
def Report.json (r : Report) : Json :=
  .object <|
    [("columns", .array (r.columns.map Column.json)), ("rows", .array (r.rows.map .object)),
      ("totalRows", .ofNat r.totalRows), ("executionTimeMs", .ofFloat r.elapsed)] ++
    (match r.groups with
      | some groups => [("groups", groups.json)]
      | none => []) ++
    [("skippedRecords", .ofNat r.skipped), ("malformedValues", .ofNat r.malformed)]

/-! ## From documents -/

open Json.Decode

/-- The members of a column. -/
def Column.shape : Json.Shape Column where
  start := ⟨"", ""⟩
  slots := [
    .mandatory "id" string fun x c => { c with id := x },
    .mandatory "name" string fun x c => { c with name := x }]

/-- The members of a group. -/
def Partition.shape : Json.Shape Partition where
  start := ⟨[], []⟩
  slots := [
    .mandatory "keyValues" (list document) fun x p => { p with keyValues := x },
    .mandatory "rows" (list members) fun x p => { p with rows := x }]

/-- The members of the groups of a report. -/
def GroupSet.shape : Json.Shape GroupSet where
  start := ⟨[], 0, []⟩
  slots := [
    .mandatory "keys" (list string) fun x g => { g with keys := x },
    .mandatory "totalPartitions" count fun x g => { g with totalPartitions := x },
    .mandatory "partitions" (list Partition.shape.decode) fun x g => { g with partitions := x }]

/-- The members of a report. -/
def Report.shape : Json.Shape Report where
  start := ⟨[], [], 0, Double.zero, none, 0, 0⟩
  slots := [
    .mandatory "columns" (list Column.shape.decode) fun x r => { r with columns := x },
    .mandatory "rows" (list members) fun x r => { r with rows := x },
    .mandatory "totalRows" count fun x r => { r with totalRows := x },
    .mandatory "executionTimeMs" double fun x r => { r with elapsed := x },
    .optional "groups" (optional GroupSet.shape.decode) fun x r => { r with groups := x },
    .optional "skippedRecords" count fun x r => { r with skipped := x },
    .optional "malformedValues" count fun x r => { r with malformed := x }]

/-- A report, decoded. -/
def Report.decode : Json.Decoder Report := Report.shape.decode

end Reporting
