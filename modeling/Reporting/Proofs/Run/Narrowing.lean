import Reporting.Proofs.Run.DrillDown
import Reporting.Proofs.Run.WorkingSet

/-!
# Proofs/Run/Narrowing — a further filter leaves the other rows where they are

Records are filtered while they are read, and sorted once all have been.  A definition with one more
clause has fewer records to sort; those that are left come in the order in which they came among all
(`Definition.selection_addFilter`).  There are no more of them than before, so that a bound that all of
them kept is kept, and a run that had a report has one (`Engine.narrows_of_outcome`).
-/

namespace Reporting

variable {r : Registry} {d : Definition} {p : Plan} {c : Clause}

/-- Whether a report has a row for each of some records, in their order, and another one has the rows of
those that pass a test. -/
structure Report.NarrowsTo (report narrowed : Report) (rowOf : Record → Row) (records : List Record)
    (passes : Record → Bool) : Prop where
  rows : report.rows = records.map rowOf
  totalRows : report.totalRows = records.length
  passing : narrowed.rows = (records.filter passes).map rowOf
  sublist : narrowed.rows.Sublist report.rows
  passingTotal : narrowed.totalRows = records.countP passes
  passingTotal_le : narrowed.totalRows ≤ report.totalRows

namespace Definition

/-- A further clause is asked of the records that pass the others. -/
theorem keeps_addFilter (record : Record) : (d.addFilter c).keeps r record =
    (d.keeps r record && c.holds (r.valueIn c.fieldId record)) := by
  rw [keeps, addFilter, List.all_append, List.all_cons, List.all_nil, Bool.and_true]
  rfl

/-- **A further clause takes records out and leaves the others in their order.** -/
theorem selection_addFilter (items : List Item) : (d.addFilter c).selection r items =
    (d.selection r items).filter fun record => c.holds (r.valueIn c.fieldId record) :=
  selection_filter keeps_addFilter rfl items

/-- Without groups and without a page, all records selected are rows. -/
theorem rows_meaning (hgrouped : ¬ d.isGrouped) (hlimit : d.limit = none) (hoffset : d.offset = 0)
    (items : List Item) : (d.meaning r items).rows = (d.selection r items).map (d.rowOf r) := by
  simp only [meaning, if_neg hgrouped, hlimit, hoffset, window_zero_none]

/-- **The report with a further clause is the report without it, less some rows.** -/
theorem narrowsTo_addFilter (hgrouped : ¬ d.isGrouped) (hlimit : d.limit = none) (hoffset : d.offset = 0)
    (items : List Item) : (d.meaning r items).NarrowsTo ((d.addFilter c).meaning r items) (d.rowOf r)
      (d.selection r items) fun record => c.holds (r.valueIn c.fieldId record) := by
  have hrows := rows_meaning (r := r) hgrouped hlimit hoffset items
  have hpassing := rows_meaning (r := r) (d := d.addFilter c) hgrouped hlimit hoffset items
  have htotal : ((d.addFilter c).meaning r items).totalRows =
      ((d.selection r items).filter fun record => c.holds (r.valueIn c.fieldId record)).length :=
    congrArg List.length (selection_addFilter items)
  rw [selection_addFilter] at hpassing
  exact {
    rows := hrows
    totalRows := rfl
    passing := hpassing
    sublist := by
      rw [hrows, hpassing]
      exact List.filter_sublist.map _
    passingTotal := htotal.trans List.countP_eq_length_filter.symm
    passingTotal_le := Nat.le_trans (Nat.le_of_eq htotal) (List.length_filter_le _ _) }

/-- Cities and amounts, the last city first. -/
def salesListed : Definition where
  fields := ["city", "amount"]
  sort := [⟨"city", .desc⟩]

end Definition

namespace Engine

/-- **A further filter commutes with sorting.**  Take a report without groups and without a page that
comes of a run, under whatever bound and for whatever token, and a clause that can be put to its records.
Asked that as well, the same run has a report again: its rows are those of the records whose value passes
the test that the clause becomes, in the order of the first report. -/
theorem narrows_of_outcome {e : Engine} {source : Except SourceError (List Item)} {token : Token}
    {report : Report} (hgrouped : ¬ d.isGrouped) (hlimit : d.limit = none) (hoffset : d.offset = 0)
    (h : (e.execute d source token).outcome = .ok report)
    (hvalid : e.validate (d.addFilter c) = .ok p) :
    ∃ items f test narrowed, source = .ok items ∧ e.registry.find? c.fieldId = some f ∧
      Condition.testOf f c = .ok test ∧
      (e.execute (d.addFilter c) source token).outcome = .ok narrowed ∧
      report.NarrowsTo narrowed (d.rowOf e.registry) (d.selection e.registry items)
        fun record => test.holds (f.valueIn record) := by
  obtain ⟨_, hplan⟩ := exists_plan_of_outcome h
  obtain ⟨items, rfl, -⟩ := eq_meaning_of_outcome h
  obtain ⟨hstart, hroom, hoff, rfl⟩ := (outcome_execute_eq_ok_iff hplan).1 h
  have hp := Plan.resolution_of_ofDefinition hvalid
  have hc : c ∈ (d.addFilter c).filters := List.mem_append_right _ (List.mem_singleton_self c)
  obtain ⟨condition, -, hslot, hid, htest⟩ := hp.exists_condition hc
  have hfind : e.registry.find? c.fieldId = some condition.slot.field :=
    hid ▸ hp.layout.found _ hslot
  have hpasses : (fun record => condition.test.holds (condition.slot.field.valueIn record)) =
      fun record => c.holds (e.registry.valueIn c.fieldId record) := by
    funext record
    rw [Condition.holds_eq_of_testOf htest, Registry.valueIn_of_find? hfind]
  -- Fewer records are held, so there is room for them.
  have hless : ((d.addFilter c).selection e.registry items).length ≤
      (d.selection e.registry items).length := by
    rw [Definition.selection_addFilter]
    exact List.length_filter_le _ _
  refine ⟨items, _, _, _, rfl, hfind, htest,
    (outcome_execute_eq_ok_iff hvalid).2 ⟨hstart, hroom.mono hless, hoff, rfl⟩, ?_⟩
  rw [hpasses]
  exact Definition.narrowsTo_addFilter hgrouped hlimit hoffset items

/-- Of the two sales that there is room for, one has an amount. -/
theorem narrows_of_outcome_sales : ∃ report narrowed,
    (execute ⟨.sales, some 2⟩ .salesListed (.ok Item.sales) .clear).outcome = .ok report ∧
    (execute ⟨.sales, some 2⟩ (Definition.salesListed.addFilter (.isNotNull "amount")) (.ok Item.sales)
      .clear).outcome = .ok narrowed ∧
    report.totalRows = 2 ∧ narrowed.totalRows = 1 ∧ narrowed.rows.Sublist report.rows := by
  obtain ⟨report, hreport⟩ : ∃ report,
      (execute ⟨.sales, some 2⟩ .salesListed (.ok Item.sales) .clear).outcome = .ok report := ⟨_, rfl⟩
  obtain ⟨items, f, test, narrowed, hitems, hfind, htest, hrun, hnarrows⟩ :=
    narrows_of_outcome (c := .isNotNull "amount") (by decide) rfl rfl hreport rfl
  cases hitems
  cases hfind
  cases htest
  exact ⟨report, narrowed, hreport, hrun, hnarrows.totalRows, hnarrows.passingTotal, hnarrows.sublist⟩

end Engine

end Reporting
