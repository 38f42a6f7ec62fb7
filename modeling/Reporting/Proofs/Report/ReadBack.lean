import Reporting.Export
import Reporting.Proofs.Definition.RoundTrip
import Reporting.Proofs.Json.Ordered
import Reporting.Proofs.Json.Pretty

/-!
# Proofs/Report/ReadBack — reports that are read back

A report that can be written (`Report.Portable`) has flat rows, real numbers and counts of 64 bits.
Its document is read back member by member, as that of a request is; what is new are the documents
inside it, which are kept as they come (`Json.Decode.reads_document`).
-/

namespace Reporting

open Json (Decoder Node)

/-! ## What a report is made of -/

namespace Json.Decode

/-- **A document is kept as it is**, if its members come in order. -/
theorem reads_document {j : Json} (h : j.Ordered) : Decoder.Reads document id j := by
  intro origin
  rw [id, document, Node.toJson_ofJson h]

theorem reads_documents {js : List Json} (h : ∀ j ∈ js, j.Ordered) :
    Decoder.Reads (list document) .array js := by
  intro origin
  have hlist := reads_list (fun j hj => reads_document (h j hj)) origin
  simpa only [List.map_id] using hlist

theorem reads_members {m : Members} (h : (Json.object m).Ordered) :
    Decoder.Reads members .object m := fun origin =>
  bind_eq_ok_iff.2 ⟨.object m, reads_document h origin, rfl⟩

/-- A double is read back if it is a real number. -/
theorem reads_double {x : Float} (h : Double.isFinite x) : Decoder.Reads double .ofFloat x := by
  intro origin
  rw [Json.ofFloat, dif_pos h]
  rfl

end Json.Decode

/-- Whether a row has its cells by rising column, and nothing nested in them. -/
structure Row.IsFlat (row : Row) : Prop where
  ordered : Json.Members.Ordered row
  cells : ∀ cell ∈ row, cell.2.depth = 0

namespace Row.IsFlat

variable {row : Row}

theorem ordered_object (h : row.IsFlat) : (Json.object row).Ordered :=
  h.ordered.ordered_object h.cells

theorem depth_object (h : row.IsFlat) : (Json.object row).depth ≤ 1 :=
  Json.depth_object_le fun cell hcell => Nat.le_of_eq (h.cells cell hcell)

end Row.IsFlat

/-- Flat rows are read back. -/
theorem reads_rows {rows : List Row} (h : ∀ row ∈ rows, row.IsFlat) :
    Decoder.Reads (Json.Decode.list Json.Decode.members) (fun rows => .array (rows.map .object))
      rows :=
  Json.Decode.reads_list fun row hrow => Json.Decode.reads_members (h row hrow).ordered_object

theorem depth_rows {rows : List Row} (h : ∀ row ∈ rows, row.IsFlat) :
    (Json.array (rows.map .object)).depth ≤ 2 :=
  Json.depth_array_map_le fun row hrow => (h row hrow).depth_object

/-! ## Reports that can be written -/

/-- Whether a group can be written. -/
structure Partition.Portable (p : Partition) : Prop where
  keyValues : ∀ value ∈ p.keyValues, value.depth = 0
  rows : ∀ row ∈ p.rows, row.IsFlat

/-- Whether the groups of a report can be written. -/
structure GroupSet.Portable (g : GroupSet) : Prop where
  totalPartitions_lt : g.totalPartitions < UInt64.size
  partitions : ∀ p ∈ g.partitions, p.Portable

/-- Whether 64 bits hold the numbers of records and cells that a report counts. -/
structure Report.Countable (r : Report) : Prop where
  totalRows_lt : r.totalRows < UInt64.size
  skipped_lt : r.skipped < UInt64.size
  malformed_lt : r.malformed < UInt64.size

/-- Whether a report can be written. -/
structure Report.Portable (r : Report) : Prop extends r.Countable where
  rows : ∀ row ∈ r.rows, row.IsFlat
  groups : ∀ g ∈ r.groups, g.Portable
  elapsed : Double.isFinite r.elapsed

/-! ## Reading back -/

theorem Column.reads_decode (c : Column) : Decoder.Reads shape.decode json c := by
  refine Json.Shape.decode_of_fills (by decide) ?_
  refine .mandatory (Json.Decode.reads_string c.id) ?_
  exact .mandatory (Json.Decode.reads_string c.name) (.nil c)

theorem Partition.reads_decode {p : Partition} (h : p.Portable) :
    Decoder.Reads shape.decode json p := by
  have hvalues : ∀ value ∈ p.keyValues, value.Ordered := fun value hvalue =>
    Json.ordered_of_depth_eq_zero (h.keyValues value hvalue)
  refine Json.Shape.decode_of_fills (by decide) ?_
  refine .mandatory (Json.Decode.reads_documents hvalues) ?_
  exact .mandatory (reads_rows h.rows) (.nil p)

theorem GroupSet.reads_decode {g : GroupSet} (h : g.Portable) :
    Decoder.Reads shape.decode json g := by
  refine Json.Shape.decode_of_fills (by decide) ?_
  refine .mandatory (reads_strings g.keys) ?_
  refine .mandatory (Json.Decode.reads_count h.totalPartitions_lt) ?_
  exact .mandatory (Json.Decode.reads_list fun p hp => Partition.reads_decode (h.partitions p hp))
    (.nil g)

/-- A report writes its groups if it has any. -/
theorem Report.json_eq (r : Report) : r.json = .object
    ([("columns", .array (r.columns.map Column.json)), ("rows", .array (r.rows.map .object)),
      ("totalRows", .ofNat r.totalRows), ("executionTimeMs", .ofFloat r.elapsed)] ++
      (optionalMember "groups" GroupSet.json r.groups ++
        [("skippedRecords", .ofNat r.skipped), ("malformedValues", .ofNat r.malformed)])) := by
  cases r with
  | mk columns rows totalRows elapsed groups skipped malformed => cases groups <;> rfl

/-- **A report is read back from its document.** -/
theorem Report.reads_decode {r : Report} (h : r.Portable) : Decoder.Reads decode json r := by
  intro origin
  rw [json_eq]
  refine Json.Shape.decode_of_fills (by decide) ?_ origin
  refine .mandatory (Json.Decode.reads_list fun c _ => Column.reads_decode c) ?_
  refine .mandatory (reads_rows h.rows) ?_
  refine .mandatory (Json.Decode.reads_count h.totalRows_lt) ?_
  refine .mandatory (Json.Decode.reads_double h.elapsed) ?_
  refine .optionalMember (fun g hg => GroupSet.reads_decode (h.groups g hg)) (fun _ _ => nofun) rfl ?_
  refine .optional (Json.Decode.reads_count h.skipped_lt) ?_
  exact .optional (Json.Decode.reads_count h.malformed_lt) (.nil r)

/-! ## Depth -/

theorem Partition.depth_json {p : Partition} (h : p.Portable) : p.json.depth ≤ 3 := by
  have hvalues : (Json.array p.keyValues).depth ≤ 1 :=
    Json.depth_array_le fun value hvalue => Nat.le_of_eq (h.keyValues value hvalue)
  refine Json.depth_object_le ?_
  simp only [List.forall_mem_cons]
  exact ⟨Nat.le_succ_of_le hvalues, depth_rows h.rows, List.forall_mem_nil _⟩

theorem GroupSet.depth_json {g : GroupSet} (h : g.Portable) : g.json.depth ≤ 5 := by
  have hkeys : (stringsJson g.keys).depth ≤ 4 :=
    Nat.le_trans (depth_stringsJson g.keys) (by decide)
  have hcount : (Json.ofNat g.totalPartitions).depth ≤ 4 :=
    Nat.le_trans (Nat.le_of_eq (Json.depth_ofInt _)) (by decide)
  refine Json.depth_object_le ?_
  simp only [List.forall_mem_cons]
  refine ⟨hkeys, hcount, ?_, List.forall_mem_nil _⟩
  exact Json.depth_array_map_le fun p hp => Partition.depth_json (h.partitions p hp)

theorem Report.depth_json {r : Report} (h : r.Portable) : r.json.depth ≤ 6 := by
  have hcount : ∀ n : Nat, (Json.ofNat n).depth ≤ 5 := fun n =>
    Nat.le_trans (Nat.le_of_eq (Json.depth_ofInt n)) (by decide)
  rw [json_eq]
  refine Json.depth_object_le ?_
  simp only [List.forall_mem_append, List.forall_mem_cons]
  refine ⟨⟨?_, ?_, hcount _, ?_, List.forall_mem_nil _⟩, ?_, hcount _, hcount _,
    List.forall_mem_nil _⟩
  · exact Json.depth_array_map_le fun c _ => Nat.le_add_left 1 3
  · exact Nat.le_trans (depth_rows h.rows) (by decide)
  · exact Nat.le_trans (Nat.le_of_eq (Json.depth_ofFloat r.elapsed)) (by decide)
  · cases hgroups : r.groups with
    | none => exact List.forall_mem_nil _
    | some g => exact List.forall_mem_singleton.2 (GroupSet.depth_json (h.groups g hgroups))

/-! ## Exports -/

/-- **A report is read back from its export.** -/
theorem Report.decodeText_json {r : Report} (h : r.Portable) :
    Json.decodeText decode (Exporter.json.write r) = .ok r := by
  have hspells : Json.Spells (Exporter.json.write r) r.json := Json.spells_pretty (.inr rfl)
  exact Json.decodeText_of_spells (reads_decode h) hspells (Nat.le_trans (depth_json h) (by decide))

end Reporting
