import Reporting.Proofs.Json.Members
import Reporting.Proofs.Query.Correspondence

/-!
# Proofs/Run/Assembly — the report on rows is the report on their records

Rows of the report, group rows, partitions and columns are written from slots by a plan and from ids
by a definition, with the same outcome.  Selected fields that are named twice make one cell, which is
why members are compared by what is found in them.
-/

namespace Reporting

variable {r : Registry} {d : Definition} {p : Plan}

theorem window_map {α β : Type} (f : α → β) (offset : Nat) (limit : Option Nat) (xs : List α) :
    window offset limit (xs.map f) = (window offset limit xs).map f := by
  cases limit <;> simp [window, List.map_take, List.map_drop]

namespace Plan.Resolution

variable (h : Resolution r d p)
include h

theorem isGrouped_eq : p.isGrouped = d.isGrouped := by
  rw [Plan.isGrouped, Definition.isGrouped, ← h.groupBy, List.isEmpty_map]

/-- **A row is written like its record.** -/
theorem project_read (record : Record) : p.project (p.read record) = d.rowOf r record := by
  have hcells : p.selected.map (fun slot =>
      (slot.field.id, Value.cellOrNull ((p.read record).at slot))) =
      (firstOccurrences d.fields).map fun id => (id, Value.cellOrNull (r.valueIn id record)) := by
    rw [← h.selected, List.map_map]
    refine List.map_congr_left fun slot hslot => ?_
    rw [Function.comp_apply, h.at_read (h.selected_mem slot hslot)]
  rw [project, hcells, Definition.rowOf, Registry.cellsIn]
  exact Json.Members.ofList_map_congr (fun id => Value.cellOrNull (r.valueIn id record))
    fun _ => mem_firstOccurrences

theorem column_eq {slot : Slot} (hslot : slot ∈ p.slots) :
    (⟨slot.field.id, slot.field.name⟩ : Column) = r.column slot.field.id := by
  rw [Registry.column, h.layout.found slot hslot]
  rfl

theorem columns_eq : p.columns = d.columns r := by
  rw [Plan.columns, Definition.columns, h.isGrouped_eq, ← h.groupBy, ← h.selected, ← h.reductions]
  split
  · rw [List.map_map, List.map_map]
    congr 1
    exact List.map_congr_left fun slot hslot => h.column_eq (h.groupBy_mem slot hslot).1
  · rw [List.map_map]
    exact List.map_congr_left fun slot hslot => h.column_eq (h.selected_mem slot hslot)

/-- An aggregation over the rows of a group is one over their records. -/
theorem value_read {a : SlotReduction} (ha : a ∈ p.reductions) (members : List Record) :
    a.value (members.map p.read) = Definition.reduce r a.toAggregation members := by
  rw [SlotReduction.value, List.map_map, Definition.reduce]
  congr 1
  exact List.map_congr_left fun record _ => h.at_read (h.reductions_mem a ha).1 record

/-- **The row of a group is written like that of its records.** -/
theorem summary_groupOf (sorted : List Record) (leader : Record) :
    p.summary (p.groupOf d r sorted leader) = d.groupRow r sorted leader := by
  have hkeys : p.groupBy.zip (p.groupOf d r sorted leader).key =
      p.groupBy.map fun slot => (slot, r.valueIn slot.field.id leader) := by
    rw [groupOf, ← h.groupBy, List.map_map]
    exact List.map_prod_left_eq_zip.symm
  have hvalues : p.reductions.map (fun a =>
      (a.target, Value.cellOrNull (a.value (p.groupOf d r sorted leader).members))) =
      d.aggregations.map fun a =>
        (a.target, Value.cellOrNull (Definition.reduce r a (d.groupOf r sorted leader))) := by
    rw [← h.reductions, List.map_map]
    refine List.map_congr_left fun a ha => ?_
    rw [groupOf, h.value_read ha]
    rfl
  rw [summary, hkeys, hvalues, List.map_map, Definition.groupRow, Registry.cellsIn, ← h.groupBy,
    List.map_map]
  rfl

/-- A group is written like its records. -/
theorem partition_groupOf (sorted : List Record) (leader : Record) :
    p.partition (p.groupOf d r sorted leader) = d.partitionOf r sorted leader := by
  rw [Plan.partition, Definition.partitionOf, groupOf, Registry.cellsIn, List.map_map, List.map_map,
    List.map_map]
  congr 1
  exact List.map_congr_left fun record _ => h.project_read record

/-- **The report on rows that passed the filters is the one that the definition asks for** of their
records. -/
theorem report_read {items : List Item} {skipped malformed : Nat}
    (hskipped : skipped = Item.unreadable items)
    (hmalformed : malformed =
      (Item.records items).foldl (fun n record => n + d.malformedCells r record) 0) :
    p.report (((Item.records items).filter (d.keeps r)).map p.read) skipped malformed =
      d.meaning r items := by
  have hsorted : sortRows p.sort (((Item.records items).filter (d.keeps r)).map p.read) =
      (d.selection r items).map p.read := h.sortRows_read _
  have hids : p.groupBy.map (fun slot => slot.field.id) = d.groupBy := h.groupBy
  subst hskipped hmalformed
  rw [report, hsorted, Definition.meaning]
  simp only [h.isGrouped_eq, h.groupsOf_read, h.columns_eq, window_map, List.map_map,
    List.length_map, h.offset, h.limit, hids]
  split
  · congr 1
    · exact List.map_congr_left fun leader _ => h.summary_groupOf _ leader
    · congr 2
      exact List.map_congr_left fun leader _ => h.partition_groupOf _ leader
  · congr 1
    refine List.map_congr_left fun record _ => h.project_read record

end Plan.Resolution

end Reporting
