import Mathlib.Data.List.Induction
import Reporting.Proofs.Double.Arithmetic
import Reporting.Proofs.Run.DrillDown
import Reporting.Query.Reduce

/-!
# Proofs/Run/Totals — where sums and averages are written as null

A sum of doubles is real exactly if no sum on the way leaves the real numbers (`overflows_iff`), as
nothing leads back to them, and a quotient by the number of things summed is real wherever their sum is.
What is not real is written as null (`Value.numberCell_eq_null_iff`).  So the sum over a group is null
exactly if it overflows, whatever its records add up to in the end, and the average if it does or if
there is nothing to be averaged (`Engine.totals_of_outcome`).
-/

namespace Reporting

/-! ## Sums -/

/-- Whether the sum of some doubles leaves the real numbers on the way. -/
def Overflows (xs : List Float) : Prop := ∃ front, front <+: xs ∧ ¬ Double.isFinite (sumOf front)

theorem sumOf_concat (xs : List Float) (x : Float) : sumOf (xs ++ [x]) = sumOf xs + x := by
  rw [sumOf, List.foldl_concat, sumOf]

/-- A sum that is real was so all the way. -/
theorem isFinite_sumOf_of_append {xs ys : List Float} (h : Double.isFinite (sumOf (xs ++ ys))) :
    Double.isFinite (sumOf xs) := by
  induction ys using List.reverseRecOn with
  | nil => rwa [List.append_nil] at h
  | append_singleton ys y ih =>
    rw [← List.append_assoc, sumOf_concat] at h
    exact ih (Double.isFinite_of_add h)

/-- **A sum is real exactly if it does not overflow.** -/
theorem overflows_iff {xs : List Float} : Overflows xs ↔ ¬ Double.isFinite (sumOf xs) := by
  constructor
  · rintro ⟨front, ⟨rest, rfl⟩, hfront⟩ h
    exact hfront (isFinite_sumOf_of_append h)
  · exact fun h => ⟨xs, List.prefix_rfl, h⟩

/-- **An average of some doubles is real exactly if their sum is.** -/
theorem isFinite_average_iff {xs : List Float} (h : xs ≠ []) :
    Double.isFinite (sumOf xs / Double.ofNat xs.length) ↔ Double.isFinite (sumOf xs) :=
  ⟨Double.isFinite_of_div, fun hsum => Double.isFinite_div_ofNat hsum (List.length_pos_iff.2 h)⟩

/-! ## Cells -/

namespace Value

/-- **Doubles that are not real are written as null, and no others.** -/
theorem numberCell_eq_null_iff {x : Float} : numberCell x = .null ↔ ¬ Double.isFinite x := by
  constructor
  · exact fun hnull hx => cell_ne_null (a := .number x) hx hnull
  · intro hx
    have hinteger : Double.integer? x = none := if_neg fun h => hx h.1
    rw [numberCell, hinteger]
    exact dif_neg hx

theorem numberCell_eq_null_or (x : Float) : numberCell x = .null ∨ ∃ n, numberCell x = .number n := by
  by_cases hx : Double.isFinite x
  · rcases numberCell_spec hx with ⟨n, fits, -, hcell⟩ | hcell
    · exact .inr ⟨_, hcell⟩
    · exact .inr ⟨_, hcell⟩
  · exact .inl (numberCell_eq_null_iff.2 hx)

/-- What suits a field with numbers or dates goes into sums. -/
theorem Suits.exists_amount {type : FieldType} {v : Value} (h : v.Suits type)
    (hnumeric : type.isNumeric) : ∃ x, v.amount? = some x := by
  cases type with
  | number =>
    obtain ⟨x, rfl, -⟩ := h.exists_number
    exact ⟨x, rfl⟩
  | date =>
    obtain ⟨t, rfl⟩ := h.exists_date
    exact ⟨_, rfl⟩
  | _ => cases hnumeric

end Value

/-- Whether a cell is null exactly in some case, and a number in any other. -/
structure Json.NumberUnless (case : Prop) (cell : Json) : Prop where
  null_iff : cell = .null ↔ case
  number_of_not : ¬ case → ∃ n, cell = .number n

theorem Value.numberUnless_numberCell {case : Prop} {x : Float}
    (h : case ↔ ¬ Double.isFinite x) : Json.NumberUnless case (numberCell x) where
  null_iff := numberCell_eq_null_iff.trans h.symm
  number_of_not hcase := (numberCell_eq_null_or x).resolve_left fun hnull =>
    hcase (h.2 (numberCell_eq_null_iff.1 hnull))

/-! ## Aggregations -/

variable {r : Registry} {d : Definition} {p : Plan} {a : Aggregation}

/-- What records have under the id of a field, as far as it goes into sums. -/
def Registry.amountsIn (r : Registry) (fieldId : String) (records : List Record) : List Float :=
  records.filterMap fun record => (r.valueIn fieldId record).bind Value.amount?

/-- The doubles that an aggregation takes from the cells of records. -/
theorem Registry.amountsIn_eq (fieldId : String) (records : List Record) :
    ((records.map (r.valueIn fieldId)).filterMap id).filterMap Value.amount? =
      r.amountsIn fieldId records := by
  rw [List.filterMap_filterMap, List.filterMap_map]
  rfl

namespace Definition

theorem reduce_sum (hsum : a.function = .sum) (members : List Record) :
    reduce r a members = some (.number (sumOf (r.amountsIn a.fieldId members))) := by
  rw [reduce, hsum, ← Registry.amountsIn_eq]
  rfl

theorem reduce_avg (havg : a.function = .avg) (members : List Record) :
    reduce r a members = if (r.amountsIn a.fieldId members).isEmpty then none
      else some (.number (sumOf (r.amountsIn a.fieldId members) /
        Double.ofNat (r.amountsIn a.fieldId members).length)) := by
  rw [reduce, havg, ← Registry.amountsIn_eq]
  rfl

end Definition

/-- **The cell of a sum** is null exactly if it overflows. -/
theorem Definition.numberUnless_sum (hsum : a.function = .sum) (members : List Record) :
    Json.NumberUnless (Overflows (r.amountsIn a.fieldId members))
      (Value.cellOrNull (reduce r a members)) := by
  rw [reduce_sum hsum]
  exact Value.numberUnless_numberCell overflows_iff

/-- The field of an average has numbers or dates, so it has amounts wherever it has values. -/
theorem Plan.Resolution.amountsIn_eq_nil_iff (h : Resolution r d p) (ha : a ∈ d.aggregations)
    (hnumeric : a.function.needsNumeric) (members : List Record) :
    r.amountsIn a.fieldId members = [] ↔ ∀ record ∈ members, r.valueIn a.fieldId record = none := by
  rw [← h.reductions] at ha
  obtain ⟨reduction, hreduction, rfl⟩ := List.mem_map.1 ha
  obtain ⟨hslot, htype⟩ := h.reductions_mem reduction hreduction
  rw [Registry.amountsIn, List.filterMap_eq_nil_iff]
  refine forall₂_congr fun record _ => ?_
  have hfind : r.find? reduction.toAggregation.fieldId = some reduction.slot.field :=
    h.layout.found reduction.slot hslot
  rw [Registry.valueIn_of_find? hfind]
  cases hvalue : reduction.slot.field.valueIn record with
  | none => exact iff_of_true rfl rfl
  | some v =>
    have hsuits := reduction.slot.field.suits_valueIn record v hvalue
    obtain ⟨x, hx⟩ := hsuits.exists_amount (htype hnumeric)
    rw [Option.bind_some, hx]
    exact iff_of_false (Option.some_ne_none x) (Option.some_ne_none v)

/-- **The cell of an average** is null exactly if there is nothing to be averaged or the sum
overflows. -/
theorem Plan.Resolution.numberUnless_avg (h : Resolution r d p) (ha : a ∈ d.aggregations)
    (havg : a.function = .avg) (members : List Record) :
    Json.NumberUnless ((∀ record ∈ members, r.valueIn a.fieldId record = none) ∨
      Overflows (r.amountsIn a.fieldId members)) (Value.cellOrNull (Definition.reduce r a members)) := by
  have hnumeric : a.function.needsNumeric := by rw [havg]; rfl
  rw [← h.amountsIn_eq_nil_iff ha hnumeric, Definition.reduce_avg havg]
  by_cases hempty : r.amountsIn a.fieldId members = []
  · rw [if_pos (List.isEmpty_iff.2 hempty)]
    exact ⟨iff_of_true rfl (.inl hempty), fun hnot => absurd (.inl hempty) hnot⟩
  · rw [if_neg (mt List.isEmpty_iff.1 hempty)]
    refine Value.numberUnless_numberCell ?_
    rw [or_iff_right hempty, overflows_iff, isFinite_average_iff hempty]

/-! ## Runs -/

/-- Whether the row of a group has its sums and averages: null exactly where they overflow or, for
averages, have nothing to be of, and numbers elsewhere. -/
structure RecordGroup.HasTotals (r : Registry) (d : Definition) (g : RecordGroup) (row : Row) : Prop where
  sum : ∀ a ∈ d.aggregations, a.function = .sum → ∃ cell, row.get? a.target = some cell ∧
    cell.NumberUnless (Overflows (r.amountsIn a.fieldId g.members))
  avg : ∀ a ∈ d.aggregations, a.function = .avg → ∃ cell, row.get? a.target = some cell ∧
    cell.NumberUnless ((∀ record ∈ g.members, r.valueIn a.fieldId record = none) ∨
      Overflows (r.amountsIn a.fieldId g.members))

theorem Plan.Resolution.hasTotals_groupRow (h : Resolution r d p) (sorted : List Record)
    (leader : Record) :
    (d.recordGroup r sorted leader).HasTotals r d (d.groupRow r sorted leader) := by
  have hcell : ∀ a ∈ d.aggregations, Json.Members.get? (d.groupRow r sorted leader) a.target =
      some (Value.cellOrNull (Definition.reduce r a (d.groupOf r sorted leader))) := fun a ha =>
    Definition.get?_groupRow_of_mem h.columns
      (List.mem_append_right _ (List.mem_map.2 ⟨a, ha, rfl⟩))
  exact {
    sum := fun a ha hsum => ⟨_, hcell a ha, Definition.numberUnless_sum hsum _⟩
    avg := fun a ha havg => ⟨_, hcell a ha, h.numberUnless_avg ha havg _⟩ }

/-- **A sum is written as null exactly if it overflows, an average also if there is nothing to be
averaged.**  Whatever report comes of a run with groups, its partitions are a window on groups that
divide the records that passed the filters, and of each of them the row at its place has the sums and
the averages. -/
theorem Engine.totals_of_outcome {e : Engine} {source : Except SourceError (List Item)} {token : Token}
    {report : Report} (h : (e.execute d source token).outcome = .ok report) (hgrouped : d.isGrouped) :
    ∃ items set groups, source = .ok items ∧ report.groups = some set ∧
      RecordGroup.Divide e.registry d.groupBy (d.selection e.registry items) groups ∧
      set.partitions =
        (window d.offset d.limit groups).map (RecordGroup.partition d e.registry) ∧
      List.Forall₂ (RecordGroup.HasTotals e.registry d) (window d.offset d.limit groups)
        report.rows := by
  obtain ⟨p, hplan⟩ := exists_plan_of_outcome h
  obtain ⟨items, rfl, rfl⟩ := eq_meaning_of_outcome h
  obtain ⟨r, bound⟩ := e
  have hp : Plan.Resolution r d p := Plan.resolution_of_ofDefinition hplan
  have hgroups : (d.meaning r items).groups = some _ := if_pos hgrouped
  have hrows : (d.meaning r items).rows = _ := if_pos hgrouped
  refine ⟨items, _, _, rfl, hgroups, Definition.divide_groupLeaders _, ?_, ?_⟩
  · rw [window_map, Definition.map_partition_recordGroup]
  · rw [hrows, window_map, List.forall₂_map_left_iff, List.forall₂_map_right_iff,
      List.forall₂_same]
    exact fun leader _ => hp.hasTotals_groupRow _ leader

/-! ### Sales that are large -/

/-- What the sales in each city come to, altogether and on average. -/
def Definition.totalsByCity : Definition where
  fields := ["city"]
  filters := []
  sort := []
  groupBy := ["city"]
  aggregations := [⟨"amount", .sum, "total"⟩, ⟨"amount", .avg, "mean"⟩]

/-- Two sales that are nearly as large as doubles can be, and two that make up for them. -/
def Item.hugeSales : List Item :=
  [false, false, true, true].map fun negative =>
    .record [("amount", .ofFloat (Double.ofMagnitude negative 0x7FEE42D130773B76)),
      ("city", .string "Oslo")]

/-- The totals of the small sales. -/
theorem Engine.totals_of_outcome_sales : ∃ report,
    (execute ⟨.sales, none⟩ .totalsByCity (.ok Item.sales) Token.clear).outcome = .ok report ∧
      ∃ groups, List.Forall₂ (RecordGroup.HasTotals .sales .totalsByCity) groups report.rows ∧
        ∃ set, report.groups = some set ∧
          set.partitions = groups.map (RecordGroup.partition .totalsByCity .sales) := by
  have h : ∃ report,
      (execute ⟨.sales, none⟩ .totalsByCity (.ok Item.sales) Token.clear).outcome = .ok report :=
    ⟨_, rfl⟩
  obtain ⟨report, h⟩ := h
  obtain ⟨_, set, groups, -, hset, -, hpartitions, htotals⟩ := Engine.totals_of_outcome h rfl
  exact ⟨report, h, _, htotals, set, hset, hpartitions⟩

/-- The huge sales come to nothing in the end, but their sum overflows on the way: it is written as
null, and so is their average, although every sale has its amount. -/
theorem Engine.totals_null_of_hugeSales : ∃ report row,
    (execute ⟨.sales, none⟩ .totalsByCity (.ok Item.hugeSales) Token.clear).outcome = .ok report ∧
      report.rows = [row] ∧ row.get? "total" = some .null ∧ row.get? "mean" = some .null ∧
      ∀ record ∈ Item.records Item.hugeSales, (Registry.sales.valueIn "amount" record).isSome := by
  obtain ⟨p, hplan⟩ : ∃ p, Plan.ofDefinition .sales .totalsByCity = .ok p := ⟨_, rfl⟩
  obtain ⟨leader, hrows, hmembers⟩ : ∃ leader,
      (Definition.totalsByCity.meaning .sales Item.hugeSales).rows =
        [Definition.totalsByCity.groupRow .sales (Item.records Item.hugeSales) leader] ∧
      Definition.totalsByCity.groupOf .sales (Item.records Item.hugeSales) leader =
        Item.records Item.hugeSales := ⟨_, rfl, rfl⟩
  have hoverflows : Overflows (Registry.sales.amountsIn "amount"
      (Definition.totalsByCity.groupOf .sales (Item.records Item.hugeSales) leader)) := by
    rw [hmembers, overflows_iff]
    decide
  obtain ⟨hsum, havg⟩ := (Plan.resolution_of_ofDefinition hplan).hasTotals_groupRow
    (Item.records Item.hugeSales) leader
  obtain ⟨total, htotal, htotalCell⟩ := hsum ⟨"amount", .sum, "total"⟩ (by decide) rfl
  obtain ⟨mean, hmean, hmeanCell⟩ := havg ⟨"amount", .avg, "mean"⟩ (by decide) rfl
  obtain rfl := htotalCell.null_iff.2 hoverflows
  obtain rfl := hmeanCell.null_iff.2 (.inr hoverflows)
  refine ⟨_, _, ?_, hrows, htotal, hmean, by decide⟩
  rw [execute_eq_meaning hplan]

end Reporting
