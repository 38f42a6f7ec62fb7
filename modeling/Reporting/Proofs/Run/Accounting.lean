import Mathlib.Algebra.GroupWithZero.Nat
import Mathlib.Data.Finset.Card
import Mathlib.Data.Finset.Dedup
import Reporting.Proofs.Run.Arrival

/-!
# Proofs/Run/Accounting — every item is accounted for

An item cannot be read, or it is a record that the filters reject, or one that they keep, and a report
counts the first and the last kind before it sorts, groups or takes a page.  So its counts and the
records that were rejected make up all items (`Report.AccountsFor`).  What it counts as malformed are
the cells of all records, kept or not, once for every id that is mentioned
(`Definition.malformedCells_eq_card`).
-/

namespace Reporting

variable {r : Registry} {d : Definition} {record : Record}

/-! ## Malformed cells -/

/-- Whether a record has a cell for the field with an id that is not null and not of its type. -/
def Registry.MalformedIn (r : Registry) (record : Record) (id : String) : Prop :=
  ∃ f cell, r.find? id = some f ∧ record.get? id = some cell ∧ cell ≠ .null ∧
    Value.ofCell? f.type cell = none

theorem Field.isMalformedIn_iff {f : Field} : f.isMalformedIn record ↔
    ∃ cell, record.get? f.id = some cell ∧ cell ≠ .null ∧ Value.ofCell? f.type cell = none := by
  rw [isMalformedIn]
  cases hcell : record.get? f.id with
  | none => simp
  | some cell => cases cell <;> simp

theorem Registry.any_isMalformedIn_iff {id : String} :
    ((r.find? id).any fun f => f.isMalformedIn record) ↔ r.MalformedIn record id := by
  rw [Option.any_eq_true]
  constructor
  · rintro ⟨f, hf, hmalformed⟩
    obtain ⟨cell, hcell⟩ := Field.isMalformedIn_iff.1 hmalformed
    exact ⟨f, cell, hf, id_of_find? hf ▸ hcell⟩
  · rintro ⟨f, cell, hf, hcell⟩
    exact ⟨f, hf, Field.isMalformedIn_iff.2 ⟨cell, (id_of_find? hf).symm ▸ hcell⟩⟩

instance (r : Registry) (record : Record) (id : String) : Decidable (r.MalformedIn record id) :=
  decidable_of_iff _ Registry.any_isMalformedIn_iff

/-- **The malformed cells of a record are counted by the ids that a definition mentions**, each of them
once. -/
theorem Definition.malformedCells_eq_card (d : Definition) (r : Registry) (record : Record) :
    d.malformedCells r record = (d.mentions.toFinset.filter (r.MalformedIn record)).card := by
  have hids : d.mentions.toFinset.filter (r.MalformedIn record) =
      (d.referenced.filter fun id => r.MalformedIn record id).toFinset := by
    ext id
    simp only [Finset.mem_filter, List.mem_toFinset, List.mem_filter, mem_referenced,
      decide_eq_true_iff]
  have hnodup : d.referenced.Nodup := nodup_firstOccurrences d.mentions
  rw [hids, List.toFinset_card_of_nodup (hnodup.filter _), ← List.countP_eq_length_filter,
    malformedCells]
  refine List.countP_congr fun id _ => ?_
  rw [Registry.any_isMalformedIn_iff, decide_eq_true_iff]

/-! ## Items -/

/-- An item cannot be read, or is a record. -/
theorem Item.length_eq_unreadable_add_records (items : List Item) :
    items.length = unreadable items + (records items).length := by
  induction items with
  | nil => rfl
  | cons item rest ih =>
    cases item with
    | record r =>
      rw [unreadable_record, records_record, List.length_cons, List.length_cons, ih, Nat.add_assoc]
    | malformed m =>
      rw [unreadable_malformed, records_malformed, List.length_cons, ih, Nat.add_right_comm]

/-! ## Reports -/

/-- Whether the counts of a report on a definition account for some items. -/
structure Report.AccountsFor (report : Report) (r : Registry) (d : Definition)
    (items : List Item) : Prop where
  /-- An item cannot be read, is rejected by the filters, or counts as a row. -/
  length_eq : items.length = report.skipped +
    (Item.records items).countP (fun record => !d.keeps r record) + report.totalRows
  skipped_eq : report.skipped = Item.unreadable items
  /-- A malformed cell counts in every record, rejected or not. -/
  malformed_eq : report.malformed = ((Item.records items).map fun record =>
    (d.mentions.toFinset.filter (r.MalformedIn record)).card).sum

/-- All records that the filters keep are counted, whatever page of them is taken. -/
theorem Definition.totalRows_meaning (items : List Item) :
    (d.meaning r items).totalRows = (Item.records items).countP (d.keeps r) := by
  have htotal : (d.meaning r items).totalRows = (d.selection r items).length := rfl
  rw [htotal, selection, (insertionSortBy_perm _).length_eq, ← List.countP_eq_length_filter]

/-- **The report that a definition asks for accounts for its items.** -/
theorem Definition.accountsFor_meaning (items : List Item) :
    (d.meaning r items).AccountsFor r d items where
  length_eq := by
    have hskipped : (d.meaning r items).skipped = Item.unreadable items := rfl
    have hrecords := List.length_eq_countP_add_countP (d.keeps r) (l := Item.records items)
    have hrejected : ((Item.records items).countP fun record => decide ¬ d.keeps r record) =
        (Item.records items).countP fun record => !d.keeps r record :=
      List.countP_congr fun record _ => by simp
    rw [hskipped, totalRows_meaning, Item.length_eq_unreadable_add_records, hrecords, hrejected]
    omega
  skipped_eq := rfl
  malformed_eq := by
    have hfold : (d.meaning r items).malformed =
        (Item.records items).foldl (fun n record => n + d.malformedCells r record) 0 := rfl
    simp only [hfold, malformedCells_eq_card, List.sum_eq_foldl, List.foldl_map]

/-! ## Runs -/

namespace Engine

/-- **Every item is accounted for.**  Whatever a report is on, whether its items were there or arrived
one by one, and under any bound and any page: the items are those that could not be read, the records
that its filters reject, and those that it counts as rows.  What it counts as malformed are the cells of
all records that are there, not null, and not of the type of their field, each of them once, however
often the definition mentions the field. -/
theorem accountsFor_of_outcome {e : Engine} {items : List Item} {token : Token} {report : Report}
    (h : (e.execute d (.ok items) token).outcome = .ok report ∨
      ∃ arriving : Stream, arriving.toList = items ∧
        (e.executeStream d (.ok arriving) token).outcome = .ok report) :
    report.AccountsFor e.registry d items := by
  have hrun : (e.execute d (.ok items) token).outcome = .ok report := by
    rcases h with h | ⟨arriving, rfl, h⟩
    · exact h
    · rwa [executeStream_eq_execute] at h
  obtain ⟨same, hsame, rfl⟩ := eq_meaning_of_outcome hrun
  cases hsame
  exact Definition.accountsFor_meaning items

/-- A sale with a bad amount, something else, and one with a bad amount in no city that is known. -/
def badSales : List Item :=
  [.record [("amount", .string "seven"), ("city", .string "Oslo")],
    .malformed ⟨1, .notAnObject "null"⟩, .record [("amount", .bool true)]]

/-- One item is skipped and one record rejected, and both bad amounts count. -/
theorem accountsFor_of_outcome_badSales : ∃ report,
    (execute ⟨.sales, none⟩ .salesByCity (.ok badSales) .clear).outcome = .ok report ∧
      report.AccountsFor .sales .salesByCity badSales ∧
      report.skipped = 1 ∧ report.totalRows = 1 ∧ report.malformed = 2 := by
  obtain ⟨report, hreport⟩ : ∃ report,
      (execute ⟨.sales, none⟩ .salesByCity (.ok badSales) .clear).outcome = .ok report := ⟨_, rfl⟩
  obtain ⟨items, hitems, hmeaning⟩ := eq_meaning_of_outcome hreport
  cases hitems
  refine ⟨report, hreport, accountsFor_of_outcome (.inl hreport), ?_⟩
  subst hmeaning
  exact ⟨rfl, rfl, rfl⟩

end Engine

end Reporting
