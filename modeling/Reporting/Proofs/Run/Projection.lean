import Reporting.Proofs.Run.Accounting
import Reporting.Proofs.Run.Shape
import Reporting.Proofs.Value.ReadBack

/-!
# Proofs/Run/Projection — what rows say of records

A cell of a row is written from what the cell of a record was read as.  Texts, enum values and truth
values go through unchanged.  Numbers are held as doubles in between, so what is written is a number that
some double is, with none nearer to the one that the record has (`Json.Number.RoundsTo`); that leaves every
number as it is that a double can be, all integers of up to 53 binary digits among them.  A record that
has nothing for a field, or nothing of its type, gets null (`Registry.projects_rowOf`).  The rows that a
report lists are those of certain records, one by one (`Definition.projected_meaning`).
-/

namespace Reporting

-- Powers are those of natural numbers, whatever else has powers.
attribute [local instance (high)] instPowNat

/-! ## Numbers -/

/-- Whether a number is what comes of another by way of a double. -/
structure Json.Number.RoundsTo (n m : Json.Number) : Prop where
  /-- Some double is the number that comes of it. -/
  isExact : Double.IsExact (Value.exactOf m)
  /-- No double is nearer to the number that there was. -/
  nearest : ∀ x, Double.isFinite x →
    (Value.exactOf m - Value.exactOf n).natAbs ≤ (Double.exact x - Value.exactOf n).natAbs
  /-- What some double is stays what it is. -/
  kept : Double.IsExact (Value.exactOf n) → Value.exactOf m = Value.exactOf n
  /-- Integers of up to 53 binary digits stay what they are. -/
  kept_int : ∀ k fits, n = .int k fits → k.natAbs ≤ 2 ^ (53 : Nat) →
    Value.exactOf m = Value.exactOf n
  /-- Numbers that are written with a point or an exponent stay the doubles that they are. -/
  kept_float : ∀ x finite, n = .float x finite → Value.exactOf m = Value.exactOf n

namespace Value

/-- No double is nearer to a number than the one that it is read as. -/
theorem natAbs_exact_doubleOf_sub_le (n : Json.Number) (x : Float) :
    (Double.exact (doubleOf n) - exactOf n).natAbs ≤ (Double.exact x - exactOf n).natAbs := by
  cases n with
  | int n fits => exact Double.natAbs_exact_ofInt_sub_le (isFinite_doubleOf (.int n fits)) x
  | float y finite =>
    rw [doubleOf, exactOf, Int.sub_self]
    exact Nat.zero_le _

/-- **What is written of a number is what comes of it by way of a double.** -/
theorem roundsTo_of_exactOf_eq {n m : Json.Number} (h : exactOf m = Double.exact (doubleOf n)) :
    n.RoundsTo m := by
  have hnearest : ∀ x, Double.isFinite x →
      (exactOf m - exactOf n).natAbs ≤ (Double.exact x - exactOf n).natAbs := by
    intro x _
    rw [h]
    exact natAbs_exact_doubleOf_sub_le n x
  have hkept : Double.IsExact (exactOf n) → exactOf m = exactOf n := by
    rintro ⟨x, hx, heq⟩
    have hle := hnearest x hx
    omega
  refine ⟨⟨doubleOf n, isFinite_doubleOf n, h.symm⟩, hnearest, hkept, ?_, ?_⟩
  · rintro k fits rfl hle
    exact hkept (Double.isExact_of_natAbs_le hle)
  · rintro x finite rfl
    exact hkept ⟨x, finite, rfl⟩

/-- The first integer that is no double does not stay what it is. -/
theorem not_kept_of_large : ∃ n m v, Json.ofInt 9007199254740993 = .number n ∧
    ofCell .number (.number n) = .ok (some v) ∧ v.cell = .number m ∧ exactOf m ≠ exactOf n := by
  have hinteger : Double.integer? (Double.ofInt 9007199254740993) = some 9007199254740992 := by
    decide +kernel
  refine ⟨.int 9007199254740993 (by decide), .int 9007199254740992 (by decide), _, rfl, rfl, ?_, ?_⟩
  · rw [cell, doubleOf, numberCell, hinteger]
    rfl
  · intro heq
    have hpos := Int.natCast_pos.2 Double.oneInUnits_pos
    exact absurd (Int.eq_of_mul_eq_mul_right (Int.ne_of_gt hpos) heq) (by decide)

end Value

/-! ## Cells -/

/-- Whether a cell of a row says of a cell of a record what it is. -/
inductive Json.RenderedAs : Json → Json → Prop
  | string (s : String) : RenderedAs (.string s) (.string s)
  | bool (b : Bool) : RenderedAs (.bool b) (.bool b)
  | number {n m : Json.Number} (h : n.RoundsTo m) : RenderedAs (.number n) (.number m)

/-- **A cell that suits its field is rendered**, unless it is a date. -/
theorem Value.renderedAs_of_ofCell? {type : FieldType} {raw : Json} {v : Value}
    (h : ofCell? type raw = some v) (htype : type ≠ .date) : raw.RenderedAs v.cell := by
  cases type with
  | date => exact absurd rfl htype
  | number =>
    cases raw with
    | number n =>
      obtain rfl : Value.number (doubleOf n) = v := Option.some.inj h
      obtain ⟨m, hcell, hexact, -⟩ := exists_number_of_numberCell (isFinite_doubleOf n)
      rw [cell, hcell]
      exact .number (roundsTo_of_exactOf_eq hexact)
    | _ => cases h
  | boolean =>
    cases raw with
    | bool b =>
      obtain rfl : Value.bool b = v := Option.some.inj h
      exact .bool b
    | _ => cases h
  | text =>
    cases raw with
    | string s =>
      obtain rfl : Value.text s = v := Option.some.inj h
      exact .string s
    | _ => cases h
  | enum =>
    cases raw with
    | string s =>
      obtain rfl : Value.enum s = v := Option.some.inj h
      exact .string s
    | _ => cases h

/-- Whether a cell of a row is what a record says about a field: the value that is read from it, or null
if it says nothing or has a malformed cell. -/
inductive Registry.WritesAs (r : Registry) (record : Record) (f : Field) : Json → Prop
  | value {raw cell : Json} {v : Value} (hraw : record.get? f.id = some raw)
    (hread : Value.ofCell f.type raw = .ok (some v)) (hcell : raw.RenderedAs cell) :
    WritesAs r record f cell
  | absent (hraw : record.get? f.id = none) : WritesAs r record f .null
  | null (hraw : record.get? f.id = some .null) : WritesAs r record f .null
  | malformed (hraw : r.MalformedIn record f.id) : WritesAs r record f .null

/-- Whether a row is that of a record: under every id that is selected, but for dates, it has what the
record says about the field. -/
def Definition.Projects (d : Definition) (r : Registry) (record : Record) (row : Row) : Prop :=
  ∀ id ∈ d.fields, ∀ f, r.find? id = some f → f.type ≠ .date →
    ∃ cell, row.get? id = some cell ∧ r.WritesAs record f cell

variable {r : Registry} {d : Definition}

/-- **What is written of a field is what the record says about it.** -/
theorem Registry.writesAs_valueIn {record : Record} {f : Field} (hf : r.find? f.id = some f)
    (htype : f.type ≠ .date) : r.WritesAs record f (Value.cellOrNull (f.valueIn record)) := by
  rw [Field.valueIn]
  cases hraw : record.get? f.id with
  | none => exact .absent hraw
  | some raw =>
    rw [Option.bind_some]
    cases hread : Value.ofCell? f.type raw with
    | some v =>
      exact .value hraw (Value.ofCell_eq_some_iff.2 hread) (Value.renderedAs_of_ofCell? hread htype)
    | none =>
      by_cases hnull : raw = .null
      · exact .null (hnull ▸ hraw)
      · exact .malformed ⟨f, raw, hf, hraw, hnull, hread⟩

/-- **A record is projected into its row.** -/
theorem Definition.projects_rowOf (record : Record) : d.Projects r record (d.rowOf r record) := by
  intro id hid f hf htype
  obtain rfl := Registry.id_of_find? hf
  refine ⟨Value.cellOrNull (r.valueIn f.id record), ?_, ?_⟩
  · rw [rowOf, Registry.cellsIn, Json.Members.get?_ofList_map, if_pos hid]
  · rw [Registry.valueIn, hf, Option.bind_some]
    exact Registry.writesAs_valueIn hf htype

/-! ## Rows -/

/-- The rows of a report that stand for one record each: all of them without groups, and those of the
groups otherwise. -/
def Report.projected (report : Report) : List Row :=
  match report.groups with
  | some set => set.partitions.flatMap (·.rows)
  | none => report.rows

/-- The records of which a report on a definition lists the rows. -/
def Definition.listed (d : Definition) (r : Registry) (items : List Item) : List Record :=
  let sorted := d.selection r items
  if d.isGrouped then
    (window d.offset d.limit (d.groupLeaders r sorted)).flatMap (d.groupOf r sorted)
  else window d.offset d.limit sorted

/-- **The rows of a report are those of the records that it lists.** -/
theorem Definition.projected_meaning (items : List Item) :
    (d.meaning r items).projected = (d.listed r items).map (d.rowOf r) := by
  rw [Report.projected, listed]
  by_cases hgrouped : d.isGrouped
  · have hgroups : (d.meaning r items).groups = some _ := if_pos hgrouped
    rw [hgroups, if_pos hgrouped, List.map_flatMap]
    exact List.flatMap_map _ _ _
  · have hgroups : (d.meaning r items).groups = none := if_neg hgrouped
    have hrows : (d.meaning r items).rows = _ := if_neg hgrouped
    rw [hgroups, if_neg hgrouped]
    exact hrows

/-- Only records among the items are listed. -/
theorem Definition.listed_subset (items : List Item) : d.listed r items ⊆ Item.records items := by
  have hselection : d.selection r items ⊆ Item.records items := fun record hrecord =>
    (List.mem_filter.1 ((insertionSortBy_perm _).mem_iff.1 hrecord)).1
  rw [listed]
  split
  · intro record hrecord
    obtain ⟨leader, -, hmember⟩ := List.mem_flatMap.1 hrecord
    exact hselection (List.mem_filter.1 hmember).1
  · exact fun record hrecord => hselection ((window_sublist _ _ _).subset hrecord)

/-! ## Runs -/

namespace Engine

/-- **Rows say of records what they are.**  Each row that stands for one record has, under every id that
is selected but for dates, the very text or truth value of the record, or a number that some double is
and than which none is nearer to that of the record; and null where the record has no cell, null, or a
malformed cell, which is then counted. -/
theorem projects_of_outcome {e : Engine} {items : List Item} {token : Token} {report : Report}
    (h : (e.execute d (.ok items) token).outcome = .ok report ∨
      ∃ arriving : Stream, arriving.toList = items ∧
        (e.executeStream d (.ok arriving) token).outcome = .ok report) :
    d.listed e.registry items ⊆ Item.records items ∧
    List.Forall₂ (d.Projects e.registry) (d.listed e.registry items) report.projected ∧
    report.malformed = ((Item.records items).map fun record =>
      (d.mentions.toFinset.filter (e.registry.MalformedIn record)).card).sum := by
  have hrun : (e.execute d (.ok items) token).outcome = .ok report := by
    rcases h with h | ⟨arriving, rfl, h⟩
    · exact h
    · rwa [executeStream_eq_execute] at h
  obtain ⟨same, hsame, rfl⟩ := eq_meaning_of_outcome hrun
  cases hsame
  refine ⟨Definition.listed_subset items, ?_, (Definition.accountsFor_meaning items).malformed_eq⟩
  rw [Definition.projected_meaning, List.forall₂_map_right_iff, List.forall₂_same]
  exact fun record _ => Definition.projects_rowOf record

/-- Two sales are listed, and their rows say what they are. -/
theorem projects_of_outcome_sales : ∃ report,
    (execute ⟨.sales, none⟩ .salesByCity (.ok Item.sales) .clear).outcome = .ok report ∧
      (Definition.salesByCity.listed .sales Item.sales).length = 2 ∧
      List.Forall₂ (Definition.salesByCity.Projects .sales)
        (Definition.salesByCity.listed .sales Item.sales) report.projected := by
  obtain ⟨report, hreport⟩ : ∃ report,
      (execute ⟨.sales, none⟩ .salesByCity (.ok Item.sales) .clear).outcome = .ok report := ⟨_, rfl⟩
  exact ⟨report, hreport, rfl, (projects_of_outcome (.inl hreport)).2.1⟩

end Engine

end Reporting
