import Reporting.Proofs.Query.Checks
import Reporting.Query.WellFormed

/-!
# Proofs/Query/Resolution — a plan is its definition with slots for ids

`Plan.Resolution r d p` says of each part of a plan that it is the part of the definition that it
stands for, with slots in the place of ids, and that all of its slots are among the plan's own.  It
is what a plan that passes its checks is (`Plan.resolution_of_ofDefinition`), and all that the proofs
about runs and about validation know of a plan.
-/

namespace Reporting

namespace Plan

/-- Whether a plan is a definition with slots for ids. -/
structure Resolution (r : Registry) (d : Definition) (p : Plan) : Prop where
  layout : Slot.Layout r p.slots
  ids : p.slots.map (·.field.id) = d.referenced
  selected : p.selected.map (·.field.id) = firstOccurrences d.fields
  selected_mem : ∀ slot ∈ p.selected, slot ∈ p.slots
  /-- Every condition is the test of its clause. -/
  filters : each (Condition.ofClause p.slots) d.filters = .ok p.filters
  sort : p.sort.map SlotKey.toSortKey = d.sort
  sort_mem : ∀ key ∈ p.sort, key.slot ∈ p.slots ∧ key.slot.field.sortable
  groupBy : p.groupBy.map (·.field.id) = d.groupBy
  groupBy_mem : ∀ slot ∈ p.groupBy, slot ∈ p.slots ∧ slot.field.groupable
  groupBy_nodup : p.groupBy.Nodup
  groupOrder : p.groupOrder = GroupKey.ofSort p.groupBy p.sort
  reductions : p.reductions.map SlotReduction.toAggregation = d.aggregations
  reductions_mem : ∀ a ∈ p.reductions,
    a.slot ∈ p.slots ∧ (a.function.needsNumeric → a.slot.field.type.isNumeric)
  /-- Aggregations have groups, and every selected slot has its place beside them. -/
  accounted : d.aggregations ≠ [] → p.groupBy ≠ [] ∧
    ∀ s ∈ p.selected, s ∈ p.groupBy ∨ s.field.id ∈ d.aggregations.map (·.fieldId)
  columns : d.groupedColumns.Nodup
  limit : p.limit = d.limit
  offset : p.offset = d.offset

variable {r : Registry} {d : Definition} {p : Plan}

theorem Stages.layout (h : Stages r d p) : Slot.Layout r p.slots :=
  (Slot.layout_of_slotsOf h.slots).1

/-- The slots of the selected fields are found among all. -/
theorem Stages.map_selected (h : Stages r d p) :
    p.selected.map (·.field.id) = firstOccurrences d.fields ∧
      ∀ slot ∈ p.selected, slot ∈ p.slots := by
  obtain ⟨selected, hselected, heq⟩ := h.selected
  have hmem : ∀ slot ∈ selected, slot ∈ p.slots := by
    intro slot hslot
    obtain ⟨id, -, hlocate⟩ := exists_of_mem_each hselected hslot
    exact (h.layout.locate_eq_ok_iff.1 hlocate).1
  have hids : selected.map (·.field.id) = d.fields := by
    have := map_eq_map_of_each (f := fun slot => slot.field.id) (g := id) hselected
      fun id _ slot hlocate => (h.layout.locate_eq_ok_iff.1 hlocate).2
    rwa [List.map_id] at this
  refine ⟨?_, fun slot hslot => hmem slot (mem_firstOccurrences.1 (heq ▸ hslot))⟩
  rw [heq, map_firstOccurrences, hids]
  exact fun s hs t ht => h.layout.eq_of_id_eq (hmem s hs) (hmem t ht)

theorem Stages.resolution (h : Stages r d p) : Resolution r d p := by
  obtain ⟨_, rfl, hids, hmem, hnodup⟩ := groupSlots_eq_ok h.layout h.groupBy
  obtain ⟨haccounted, hcompile⟩ := reductionsOf_eq_ok h.reductions
  obtain ⟨hreductions, hreductionMem, hcolumns⟩ := SlotReduction.compile_eq_ok h.layout hcompile
  obtain ⟨hselected, hselectedMem⟩ := h.map_selected
  have hsort := map_eq_map_of_each (g := id) h.sort fun _ _ _ hk =>
    ((SlotKey.ofSortKey_eq_ok_iff h.layout).1 hk).2.1
  exact {
    layout := h.layout
    ids := (Slot.layout_of_slotsOf h.slots).2
    selected := hselected
    selected_mem := hselectedMem
    filters := h.filters
    sort := hsort.trans (List.map_id _)
    sort_mem := by
      intro key hkey
      obtain ⟨_, -, hk⟩ := exists_of_mem_each h.sort hkey
      obtain ⟨hslot, -, hsortable⟩ := (SlotKey.ofSortKey_eq_ok_iff h.layout).1 hk
      exact ⟨hslot, hsortable⟩
    groupBy := hids
    groupBy_mem := hmem
    groupBy_nodup := hnodup List.nodup_nil
    groupOrder := h.groupOrder
    reductions := hreductions
    reductions_mem := hreductionMem
    accounted := haccounted
    columns := by
      rw [Definition.groupedColumns, ← hids]
      refine hcolumns ?_
      refine List.Nodup.map_on (fun s hs t ht => ?_) (hnodup List.nodup_nil)
      exact h.layout.eq_of_id_eq (hmem s hs).1 (hmem t ht).1
    limit := h.limit
    offset := h.offset }

/-- **A plan that passes its checks is its definition with slots for ids.** -/
theorem resolution_of_ofDefinition (h : ofDefinition r d = .ok p) : Resolution r d p :=
  (ofDefinition_eq_ok_iff.1 h).resolution

namespace Resolution

variable (h : Resolution r d p)
include h

/-- Every clause has its condition. -/
theorem exists_condition {c : Clause} (hc : c ∈ d.filters) :
    ∃ condition ∈ p.filters, condition.slot ∈ p.slots ∧
      condition.slot.field.id = c.fieldId ∧
        Condition.testOf condition.slot.field c = .ok condition.test := by
  obtain ⟨condition, hmem, hok⟩ := exists_of_each h.filters hc
  exact ⟨condition, hmem, (Condition.ofClause_eq_ok_iff h.layout).1 hok⟩

/-- Every condition has its clause. -/
theorem exists_clause {condition : Condition} (hcondition : condition ∈ p.filters) :
    ∃ c ∈ d.filters, condition.slot ∈ p.slots ∧
      condition.slot.field.id = c.fieldId ∧
        Condition.testOf condition.slot.field c = .ok condition.test := by
  obtain ⟨c, hmem, hok⟩ := exists_of_mem_each h.filters hcondition
  exact ⟨c, hmem, (Condition.ofClause_eq_ok_iff h.layout).1 hok⟩

/-- The slot of an id that is mentioned, and its field. -/
theorem exists_slot {id : String} (hid : id ∈ d.mentions) :
    ∃ slot ∈ p.slots, slot.field.id = id ∧ r.find? id = some slot.field := by
  have hmem : id ∈ p.slots.map (·.field.id) := h.ids ▸ Definition.mem_referenced.2 hid
  obtain ⟨slot, hslot, rfl⟩ := List.mem_map.1 hmem
  exact ⟨slot, hslot, rfl, h.layout.found slot hslot⟩

end Resolution

end Plan

/-! ## A small report -/

/-- Sales: a city and an amount each. -/
def Registry.sales : Registry where
  fields := [.unrestricted "city" "City" .text "sale",
    .unrestricted "amount" "Amount" .number "sale"]
  distinct := by decide
  declared := by simp [Field.declaresValues, Field.unrestricted]

/-- How many sales there are in each city that is known, the last city first. -/
def Definition.salesByCity : Definition where
  fields := ["amount", "city", "amount"]
  filters := [.isNotNull "city"]
  sort := [⟨"city", .desc⟩]
  groupBy := ["city"]
  aggregations := [⟨"amount", .count, "sales"⟩]

/-- Two sales, and something else between them. -/
def Item.sales : List Item :=
  [.record [("amount", .ofNat 7), ("city", .string "Oslo")], .malformed ⟨1, .notAnObject "null"⟩,
    .record [("city", .string "Rome")]]

end Reporting
