import Reporting.Proofs.Run.Arrival
import Reporting.Proofs.Run.DrillDown

/-!
# Proofs/Run/Shape — the parts of a report fit together

The columns of a report are listed by its definition, its rows are put together cell by cell, and its
groups are written apart from the rows that stand for them.  That the three agree
(`Definition.consistent_meaning`) rests on the checks of the definition: no two columns of a report with
groups have one name, so that no cell is put in the place of another.
-/

namespace Reporting

/-! ## Fitting together -/

/-- Whether groups go with the rows of their report, each row standing for the group at its place. -/
structure GroupSet.Consistent (d : Definition) (rows : List Row) (set : GroupSet) : Prop where
  length_eq : rows.length = set.partitions.length
  length_le : set.partitions.length ≤ set.totalPartitions
  /-- A group has a value for every field grouped by. -/
  keyValues : ∀ partition ∈ set.partitions, partition.keyValues.length = set.keys.length
  /-- A row has the key of its group under the fields grouped by. -/
  cells : ∀ i j : Nat, ∀ row partition key, rows[i]? = some row → set.partitions[i]? = some partition →
    set.keys[j]? = some key →
      ∃ cell, row.get? key = some cell ∧ partition.keyValues[j]? = some cell
  /-- The rows of a group have the fields selected. -/
  members : ∀ partition ∈ set.partitions, ∀ row ∈ partition.rows, row.HasNames d.fields

/-- Whether columns, rows and groups of a report on a definition go together. -/
structure Report.Consistent (d : Definition) (report : Report) : Prop where
  grouped : report.groups.isSome ↔ d.groupBy ≠ []
  columns : report.columnIds.Nodup
  /-- A row has a cell for every column, and no other. -/
  rows : ∀ row ∈ report.rows, row.HasNames report.columnIds
  groups : ∀ set, report.groups = some set → set.Consistent d report.rows
  /-- Without groups, rows have the fields selected. -/
  ungrouped : report.groups = none → ∀ row ∈ report.rows, row.HasNames d.fields

/-! ## Rows and columns -/

variable {r : Registry} {d : Definition}

namespace Definition

theorem isGrouped_iff (d : Definition) : d.isGrouped ↔ d.groupBy ≠ [] := by
  rw [isGrouped, Bool.not_eq_true', ← Bool.not_eq_true, List.isEmpty_iff]

/-- The ids of the columns of a report. -/
theorem map_id_columns (d : Definition) (r : Registry) : (d.columns r).map (·.id) =
    if d.isGrouped then d.groupedColumns else firstOccurrences d.fields := by
  have hcolumn : ∀ ids : List String, (ids.map r.column).map (·.id) = ids := by
    intro ids
    rw [List.map_map]
    exact List.map_id ids
  rw [columns]
  split
  · rw [List.map_append, hcolumn, List.map_map]
    rfl
  · exact hcolumn _

/-- A record is written under the fields selected. -/
theorem hasNames_rowOf (record : Record) : Json.Members.HasNames d.fields (d.rowOf r record) := by
  refine Json.Members.hasNames_ofList fun name => ?_
  rw [Registry.cellsIn, List.map_map]
  exact iff_of_eq (congrArg (name ∈ ·) (List.map_id d.fields))

/-- The row of a group is written under its columns. -/
theorem hasNames_groupRow (sorted : List Record) (leader : Record) :
    Json.Members.HasNames d.groupedColumns (d.groupRow r sorted leader) := by
  rw [groupRow_eq]
  refine Json.Members.hasNames_ofList fun name => ?_
  rw [map_fst_groupCells]

/-- **The row of a group has the key of the group.** -/
theorem exists_cell_groupRow (hcolumns : d.groupedColumns.Nodup) (sorted : List Record)
    (leader : Record) {j : Nat} {key : String} (hkey : d.groupBy[j]? = some key) :
    ∃ cell, Json.Members.get? (d.groupRow r sorted leader) key = some cell ∧
      (d.partitionOf r sorted leader).keyValues[j]? = some cell := by
  have hcell : (r.cellsIn d.groupBy leader)[j]? =
      some (key, Value.cellOrNull (r.valueIn key leader)) := by
    rw [Registry.cellsIn, List.getElem?_map, hkey, Option.map_some]
  refine ⟨Value.cellOrNull (r.valueIn key leader), get?_groupRow_of_mem hcolumns ?_, ?_⟩
  · exact List.mem_append_left _ (List.mem_of_getElem? hcell)
  · rw [partitionOf, List.getElem?_map, hcell, Option.map_some]

/-! ## Reports -/

/-- The groups that a definition asks for go with their rows, whichever of them make the page. -/
theorem consistent_groups (hcolumns : d.groupedColumns.Nodup) (sorted : List Record)
    {page leaders : List Record} (hpage : page.Sublist leaders) :
    GroupSet.Consistent d (page.map (d.groupRow r sorted))
      ⟨d.groupBy, leaders.length, page.map (d.partitionOf r sorted)⟩ where
  length_eq := by rw [List.length_map, List.length_map]
  length_le := by
    rw [List.length_map]
    exact hpage.length_le
  keyValues := by
    refine List.forall_mem_map.2 fun leader _ => ?_
    rw [partitionOf, Registry.cellsIn, List.length_map, List.length_map]
  cells := by
    intro i j row partition key hrow hpartition hkey
    rw [List.getElem?_map] at hrow hpartition
    obtain ⟨leader, hleader, rfl⟩ := Option.map_eq_some_iff.1 hrow
    rw [hleader] at hpartition
    cases hpartition
    exact exists_cell_groupRow hcolumns sorted leader hkey
  members := List.forall_mem_map.2 fun _ _ => List.forall_mem_map.2 fun record _ =>
    hasNames_rowOf record

end Definition

/-- A page leaves out items, and leaves the others in order. -/
theorem window_sublist {α : Type} (offset : Nat) (limit : Option Nat) (xs : List α) :
    (window offset limit xs).Sublist xs := by
  cases limit with
  | none => exact List.drop_sublist offset xs
  | some n => exact (List.take_sublist n _).trans (List.drop_sublist offset xs)

namespace Definition

theorem columnIds_meaning (items : List Item) : (d.meaning r items).columnIds =
    if d.isGrouped then d.groupedColumns else firstOccurrences d.fields :=
  d.map_id_columns r

theorem consistent_meaning_of_grouped (hgrouped : d.isGrouped) (hcolumns : d.groupedColumns.Nodup)
    (items : List Item) : (d.meaning r items).Consistent d := by
  have hids := (columnIds_meaning (r := r) items).trans (if_pos hgrouped)
  have hgroups : (d.meaning r items).groups = some _ := if_pos hgrouped
  have hrows : (d.meaning r items).rows = _ := if_pos hgrouped
  refine ⟨?_, hids ▸ hcolumns, ?_, ?_, ?_⟩
  · rw [hgroups]
    exact iff_of_true rfl (d.isGrouped_iff.1 hgrouped)
  · rw [hids, hrows]
    exact List.forall_mem_map.2 fun leader _ => hasNames_groupRow _ leader
  · intro set hset
    cases hgroups.symm.trans hset
    rw [hrows]
    exact consistent_groups hcolumns _ (window_sublist _ _ _)
  · intro hnone
    cases hgroups.symm.trans hnone

theorem consistent_meaning_of_not_grouped (hgrouped : ¬ d.isGrouped) (items : List Item) :
    (d.meaning r items).Consistent d := by
  have hids := (columnIds_meaning (r := r) items).trans (if_neg hgrouped)
  have hgroups : (d.meaning r items).groups = none := if_neg hgrouped
  have hrows : (d.meaning r items).rows = _ := if_neg hgrouped
  have hnames : ∀ row ∈ (d.meaning r items).rows, Json.Members.HasNames d.fields row := by
    rw [hrows]
    exact List.forall_mem_map.2 fun record _ => hasNames_rowOf record
  refine ⟨?_, hids ▸ nodup_firstOccurrences d.fields, ?_, ?_, fun _ => hnames⟩
  · rw [hgroups]
    exact iff_of_false nofun fun hne => hgrouped (d.isGrouped_iff.2 hne)
  · intro row hrow
    rw [hids]
    exact ⟨(hnames row hrow).1, fun name => ((hnames row hrow).2 name).trans
      mem_firstOccurrences.symm⟩
  · intro set hset
    cases hgroups.symm.trans hset

/-- **Columns, rows and groups of the report that a definition asks for go together**, if no two columns
of a report with groups have one name. -/
theorem consistent_meaning (hcolumns : d.groupedColumns.Nodup) (items : List Item) :
    (d.meaning r items).Consistent d := by
  by_cases hgrouped : d.isGrouped
  · exact consistent_meaning_of_grouped hgrouped hcolumns items
  · exact consistent_meaning_of_not_grouped hgrouped items

end Definition

/-! ## Runs -/

namespace Engine

/-- The report of a run has its columns, its rows and its groups go together. -/
theorem consistent_of_execute {e : Engine} {source : Except SourceError (List Item)} {token : Token}
    {report : Report} (h : (e.execute d source token).outcome = .ok report) :
    report.Consistent d := by
  obtain ⟨p, hplan⟩ := exists_plan_of_outcome h
  obtain ⟨items, -, rfl⟩ := eq_meaning_of_outcome h
  exact Definition.consistent_meaning (Plan.resolution_of_ofDefinition hplan).columns items

/-- **The parts of a report fit together**, whatever it is a report on and however its items were read.
It has groups exactly if its definition groups; no two of its columns have one id, and every row has a
cell for each of them and no other.  With groups, there is a row for each of them that is listed, which
has the values of its key; the rows of a group, and all rows of a report without groups, have the fields
that are selected, each once. -/
theorem consistent_of_outcome (e : Engine) (d : Definition) (token : Token) (report : Report) :
    (∀ source, (e.execute d source token).outcome = .ok report → report.Consistent d) ∧
      ∀ arriving, (e.executeStream d arriving token).outcome = .ok report → report.Consistent d := by
  refine ⟨fun source => consistent_of_execute, fun arriving h => ?_⟩
  rw [executeStream_eq_execute] at h
  exact consistent_of_execute h

/-- The report on sales fits together. -/
theorem consistent_of_outcome_sales : ∃ report,
    (execute ⟨.sales, none⟩ .salesByCity (.ok Item.sales) .clear).outcome = .ok report ∧
      report.Consistent .salesByCity := by
  obtain ⟨report, hreport⟩ : ∃ report,
      (execute ⟨.sales, none⟩ .salesByCity (.ok Item.sales) .clear).outcome = .ok report := ⟨_, rfl⟩
  exact ⟨report, hreport, (consistent_of_outcome _ _ _ report).1 _ hreport⟩

end Engine

end Reporting
