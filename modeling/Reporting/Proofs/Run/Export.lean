import Reporting.Proofs.Report.ReadBack
import Reporting.Proofs.Run.Arrival

/-!
# Proofs/Run/Export — what a run gives back can be exported

A report that comes of a run has flat rows, for every cell of it is a value or nothing; and it has no
more groups than rows.  So it can be written if its counts can (`Definition.portable_meaning`), and what
is written is read back as it was (`Engine.export_reads_back`).
-/

namespace Reporting

variable {r : Registry} {d : Definition}

/-! ## Flat rows -/

/-- **A cell nests nothing.** -/
theorem Value.depth_cellOrNull (v : Option Value) : (cellOrNull v).depth = 0 := by
  cases v with
  | none => rfl
  | some v =>
    cases v with
    | number x =>
      rw [cellOrNull, cell, numberCell]
      split
      · split
        · exact Json.depth_ofInt _
        · exact Json.depth_ofFloat x
      · exact Json.depth_ofFloat x
    | _ => rfl

theorem Registry.depth_cellsIn (ids : List String) (record : Record) :
    ∀ cell ∈ r.cellsIn ids record, cell.2.depth = 0 :=
  List.forall_mem_map.2 fun _ _ => Value.depth_cellOrNull _

theorem Row.isFlat_ofList {cells : List (String × Json)} (h : ∀ cell ∈ cells, cell.2.depth = 0) :
    Row.IsFlat (Json.Members.ofList cells) where
  ordered := Json.Members.ordered_ofList cells
  cells := fun cell hcell => h cell (Json.Members.mem_of_mem_ofList hcell)

namespace Definition

theorem isFlat_rowOf (record : Record) : (d.rowOf r record).IsFlat :=
  Row.isFlat_ofList (r.depth_cellsIn d.fields record)

theorem isFlat_groupRow (sorted : List Record) (leader : Record) :
    (d.groupRow r sorted leader).IsFlat :=
  Row.isFlat_ofList (List.forall_mem_append.2
    ⟨r.depth_cellsIn d.groupBy leader, List.forall_mem_map.2 fun _ _ => Value.depth_cellOrNull _⟩)

theorem portable_partitionOf (sorted : List Record) (leader : Record) :
    (d.partitionOf r sorted leader).Portable where
  keyValues := List.forall_mem_map.2 (r.depth_cellsIn d.groupBy leader)
  rows := List.forall_mem_map.2 fun record _ => isFlat_rowOf record

/-! ## Reports -/

/-- There are no more groups than records. -/
theorem length_groupLeaders_le (sorted : List Record) :
    (d.groupLeaders r sorted).length ≤ sorted.length := by
  rw [groupLeaders, (insertionSortBy_perm _).length_eq]
  exact (leaders_sublist sorted).length_le

/-- **The report that a definition asks for can be written**, if 64 bits hold what it counts. -/
theorem portable_meaning {items : List Item} (h : (d.meaning r items).Countable) {elapsed : Float}
    (helapsed : Double.isFinite elapsed) :
    Report.Portable { d.meaning r items with elapsed } := by
  refine ⟨⟨h.totalRows_lt, h.skipped_lt, h.malformed_lt⟩, ?_, ?_, helapsed⟩
  · intro row hrow
    rw [meaning] at hrow
    dsimp only at hrow
    split at hrow
    · obtain ⟨leader, -, rfl⟩ := List.mem_map.1 hrow
      exact isFlat_groupRow _ leader
    · obtain ⟨record, -, rfl⟩ := List.mem_map.1 hrow
      exact isFlat_rowOf record
  · intro g hg
    rw [meaning] at hg
    dsimp only at hg
    split at hg
    · cases hg
      exact ⟨Nat.lt_of_le_of_lt (length_groupLeaders_le _) h.totalRows_lt,
        List.forall_mem_map.2 fun leader _ => portable_partitionOf _ leader⟩
    · cases hg

end Definition

/-! ## Runs -/

namespace Engine

/-- **What a run gives back is exported and read back.**  Whatever a report is on, and however its items
were read: its export as JSON has the columns, rows and groups of the report, and the bytes of it are
read back as that very report, integers as integers, doubles as doubles, and groups only where there
were some.  What a run counts is kept in 64 bits, and how long it took may be any real number. -/
theorem export_reads_back {e : Engine} {token : Token} {report : Report} {elapsed : Float}
    (hrun : (∃ source, (e.execute d source token).outcome = .ok report) ∨
      ∃ arriving, (e.executeStream d arriving token).outcome = .ok report)
    (hcounts : report.Countable) (helapsed : Double.isFinite elapsed) :
    ∃ exporter text, Exporter.of .json = .ok exporter ∧
      String.fromUTF8? (exporter.write { report with elapsed }).toUTF8 = some text ∧
        Json.decodeText Report.decode text = .ok { report with elapsed } := by
  obtain ⟨source, hsource⟩ : ∃ source, (e.execute d source token).outcome = .ok report := by
    rcases hrun with h | ⟨arriving, h⟩
    · exact h
    · exact ⟨_, executeStream_eq_execute e d arriving token ▸ h⟩
  obtain ⟨items, -, rfl⟩ := eq_meaning_of_outcome hsource
  exact ⟨.json, _, rfl, dif_pos (String.isValidUTF8 _),
    Report.decodeText_json (Definition.portable_meaning hcounts helapsed)⟩

/-- The report on sales, which took no time, is exported and read back. -/
theorem export_reads_back_sales : ∃ report,
    (execute ⟨.sales, none⟩ .salesByCity (.ok Item.sales) .clear).outcome = .ok report ∧
      report.Countable ∧ Double.isFinite Double.zero ∧
      ∃ exporter text, Exporter.of .json = .ok exporter ∧
        String.fromUTF8? (exporter.write { report with elapsed := Double.zero }).toUTF8 = some text ∧
          Json.decodeText Report.decode text = .ok { report with elapsed := Double.zero } := by
  obtain ⟨report, hreport⟩ : ∃ report,
      (execute ⟨.sales, none⟩ .salesByCity (.ok Item.sales) .clear).outcome = .ok report := ⟨_, rfl⟩
  have hcounts : report.Countable := by
    obtain ⟨items, hitems, rfl⟩ := eq_meaning_of_outcome hreport
    cases hitems
    exact ⟨by decide, by decide, by decide⟩
  have hzero : Double.isFinite Double.zero := by decide
  exact ⟨report, hreport, hcounts, hzero, export_reads_back (.inl ⟨_, hreport⟩) hcounts hzero⟩

end Engine

end Reporting
