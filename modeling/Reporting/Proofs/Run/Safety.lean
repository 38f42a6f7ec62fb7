import Reporting.Proofs.Definition.Wire
import Reporting.Proofs.Query.Correspondence
import Reporting.Proofs.Value.Extremes

/-!
# Proofs/Run/Safety — a plan cannot go wrong on any record

A plan looks things up by index and compares values, and neither is checked again when it runs.
`Plan.Safe` lists every place where a run does one or the other and says that it goes well there,
whatever records are read: indices are in range, and values that meet are of one type and have an
order.  A definition that comes from a document and has passed its checks has a safe plan
(`Plan.safe_of_decode`): its operands are of their fields' types, what is read from records is as
well, and neither is ever a number without a place.
-/

namespace Reporting

/-! ## Values that meet -/

/-- Whether two values are of one type and have an order. -/
structure Value.Comparable (a b : Value) : Prop where
  type_eq : a.type = b.type
  ordered : (a.compare? b).isSome

/-- Whether the values of two cells, if there are any, are of one type and have an order. -/
def Cell.Comparable (a b : Option Value) : Prop := ∀ v ∈ a, ∀ w ∈ b, v.Comparable w

theorem Value.Suits.comparable {type : FieldType} {a b : Value} (ha : a.Suits type)
    (hb : b.Suits type) : a.Comparable b :=
  ⟨ha.type_eq.trans hb.type_eq.symm, Value.isSome_compare? ha hb⟩

theorem Cell.Suits.comparable {type : FieldType} {a b : Option Value} (ha : Cell.Suits type a)
    (hb : Cell.Suits type b) : Cell.Comparable a b :=
  fun v hv w hw => (ha v hv).comparable (hb w hw)

/-! ## Bounds of tests -/

/-- The values whose order with a value is asked for by a test. -/
def ValueTest.bounds : ValueTest → List Value
  | above x | below x | atLeast x | atMost x => [x]
  | between low high => [low, high]
  | _ => []

/-- The values whose order with the value of a cell is asked for by a test. -/
def CellTest.bounds : CellTest → List Value
  | value test => test.bounds
  | _ => []

/-- **The bounds of a test are operands of its clause, and of the type of the field.** -/
theorem Condition.operand_of_mem_bounds {f : Field} {c : Clause} {t : CellTest}
    (h : testOf f c = .ok t) {x : Value} (hx : x ∈ t.bounds) :
    x.type = f.type ∧ (c.value = some (.one x) ∨ c.valueEnd = some x) := by
  replace h := operatorTest_of_testOf h
  obtain ⟨id, operator, operand, upper⟩ := c
  cases operator
  case greaterThan | lessThan | greaterOrEqual | lessOrEqual =>
    obtain ⟨y, hy, rfl⟩ := map_eq_ok_iff.1 h
    obtain rfl := List.mem_singleton.1 hx
    obtain ⟨hvalue, htype⟩ := single_eq_ok_iff.1 hy
    exact ⟨htype, .inl hvalue⟩
  case between =>
    obtain ⟨low, hlow, h⟩ := bind_eq_ok_iff.1 h
    obtain ⟨high, hhigh, h⟩ := bind_eq_ok_iff.1 h
    cases h
    obtain ⟨hlow, hlowType⟩ := single_eq_ok_iff.1 hlow
    obtain ⟨hhigh, hhighType⟩ := upperEnd_eq_ok_iff.1 hhigh
    rcases List.mem_cons.1 hx with rfl | hx
    · exact ⟨hlowType, .inl hlow⟩
    · obtain rfl := List.mem_singleton.1 hx
      exact ⟨hhighType, .inr hhigh⟩
  case isNull | isNotNull =>
    cases h
    cases hx
  all_goals
    obtain ⟨y, -, rfl⟩ := map_eq_ok_iff.1 h
    cases hx

/-! ## Safe plans -/

namespace Plan

/-- The slots that a plan looks up. -/
def used (p : Plan) : List Slot :=
  p.selected ++ p.filters.map (·.slot) ++ p.sort.map (·.slot) ++ p.groupBy ++
    p.reductions.map (·.slot)

/-- The values of some records at a slot. -/
def valuesAt (p : Plan) (slot : Slot) (records : List Record) : List Value :=
  (records.map fun record => (p.read record).at slot).filterMap id

/-- Whether no step of a plan goes wrong, whatever records it reads. -/
structure Safe (r : Registry) (d : Definition) (p : Plan) : Prop where
  /-- Every id that is mentioned has a slot. -/
  located : ∀ id ∈ d.mentions, ∃ slot ∈ p.slots, Slot.locate p.slots id = .ok slot
  /-- Every slot that is looked up is where its index says, in the plan and in every row. -/
  placed : ∀ slot ∈ p.used, p.slots[slot.index]? = some slot ∧
    ∀ record, slot.index < (p.read record).length
  /-- Every cell is empty or of the type that its field is registered with. -/
  typed : ∀ slot ∈ p.slots, ∃ f, r.find? slot.field.id = some f ∧
    ∀ record, ∀ v ∈ (p.read record).at slot, v.type = f.type
  /-- Filters compare values with bounds of their type. -/
  filters : ∀ condition ∈ p.filters, ∀ x ∈ condition.test.bounds, ∀ record,
    ∀ v ∈ (p.read record).at condition.slot, v.Comparable x
  /-- Sort keys compare values of one type. -/
  sort : ∀ key ∈ p.sort, ∀ a b,
    Cell.Comparable ((p.read a).at key.slot) ((p.read b).at key.slot)
  /-- A row goes to a group that is there. -/
  grouped : ∀ (before : List Record) (record : Record),
    let s := (before.map p.read).foldl (Grouping.insert p.groupBy) {}
    (s.place p.groupBy (p.read record)).1 < (s.place p.groupBy (p.read record)).2.groups.length
  /-- Group keys look up and compare values of one type. -/
  groupOrder : ∀ key ∈ p.groupOrder, ∀ records : List Record,
    ∀ g ∈ RowGroup.collect p.groupBy (records.map p.read),
    ∀ g' ∈ RowGroup.collect p.groupBy (records.map p.read),
      key.place < g.key.length ∧
        Cell.Comparable (g.key[key.place]?).join (g'.key[key.place]?).join
  /-- The extremes so far are compared with values of their type. -/
  extremes : ∀ a ∈ p.reductions, ∀ records front x back,
    p.valuesAt a.slot records = front ++ x :: back →
      ∀ best, best ∈ least? front ∨ best ∈ greatest? front → best.Comparable x

variable {r : Registry} {d : Definition} {p : Plan}

namespace Resolution

variable (h : Resolution r d p)
include h

theorem mem_slots_of_mem_used {slot : Slot} (hslot : slot ∈ p.used) : slot ∈ p.slots := by
  simp only [used, List.mem_append, List.mem_map] at hslot
  rcases hslot with
    (((hslot | ⟨condition, hcondition, rfl⟩) | ⟨key, hkey, rfl⟩) | hslot) | ⟨a, ha, rfl⟩
  · exact h.selected_mem slot hslot
  · obtain ⟨-, -, hslot, -⟩ := h.exists_clause hcondition
    exact hslot
  · exact (h.sort_mem key hkey).1
  · exact (h.groupBy_mem slot hslot).1
  · exact (h.reductions_mem a ha).1

/-- Bounds of a condition are compared with what its slot holds. -/
theorem comparable_of_mem_bounds (hreal : d.IsReal) {condition : Condition}
    (hcondition : condition ∈ p.filters) {x : Value} (hx : x ∈ condition.test.bounds)
    (record : Record) {v : Value} (hv : v ∈ (p.read record).at condition.slot) :
    v.Comparable x := by
  obtain ⟨c, hc, hslot, -, htest⟩ := h.exists_clause hcondition
  obtain ⟨htype, hoperand⟩ := Condition.operand_of_mem_bounds htest hx
  refine (h.suits_read record _ hslot v hv).comparable ⟨htype, ?_⟩
  rcases hoperand with hoperand | hoperand
  · exact (hreal c hc).operand _ hoperand x (List.mem_singleton.2 rfl)
  · exact (hreal c hc).upper x hoperand

/-- The keys of groups of records have a place for each key of the group order, and suit it. -/
theorem key_of_mem_collect {records : List Record} {g : RowGroup}
    (hg : g ∈ RowGroup.collect p.groupBy (records.map p.read)) {key : GroupKey}
    (hkey : key ∈ p.groupOrder) :
    key.place < g.key.length ∧ Cell.Suits key.field.type (g.key[key.place]?).join := by
  rw [h.collect_read] at hg
  obtain ⟨leader, -, rfl⟩ := List.mem_map.1 hg
  refine ⟨?_, h.suits_groupOf records leader key hkey⟩
  obtain ⟨slot, hslot, -⟩ := h.exists_of_mem_groupOrder hkey
  rw [groupOf, List.length_map, ← h.groupBy, List.length_map]
  exact (List.getElem?_eq_some_iff.1 hslot).1

/-- The values of records at a slot suit its field. -/
theorem suits_of_mem_valuesAt {slot : Slot} (hslot : slot ∈ p.slots) {records : List Record}
    {v : Value} (hv : v ∈ p.valuesAt slot records) : v.Suits slot.field.type := by
  obtain ⟨cell, hcell, hv⟩ := List.mem_filterMap.1 hv
  obtain ⟨record, -, rfl⟩ := List.mem_map.1 hcell
  exact h.suits_read record slot hslot v hv

/-- **A plan whose operands are real is safe.** -/
theorem safe (hreal : d.IsReal) : p.Safe r d where
  located := by
    intro id hid
    obtain ⟨slot, hslot, hid, -⟩ := h.exists_slot hid
    exact ⟨slot, hslot, h.layout.locate_eq_ok_iff.2 ⟨hslot, hid⟩⟩
  placed := by
    intro slot hslot
    have hplaced := h.layout.placed slot (h.mem_slots_of_mem_used hslot)
    refine ⟨hplaced, fun record => ?_⟩
    rw [read, Slot.length_readRow]
    exact (List.getElem?_eq_some_iff.1 hplaced).1
  typed := by
    intro slot hslot
    refine ⟨slot.field, h.layout.found slot hslot, fun record v hv => ?_⟩
    exact (h.suits_read record slot hslot v hv).type_eq
  filters := by
    intro condition hcondition x hx record v hv
    exact h.comparable_of_mem_bounds hreal hcondition hx record hv
  sort := by
    intro key hkey a b
    have hslot := (h.sort_mem key hkey).1
    exact (h.suits_read a _ hslot).comparable (h.suits_read b _ hslot)
  grouped := by
    intro before record
    exact (Grouping.sound_empty.foldl (before.map p.read)).place_lt (p.read record)
  groupOrder := by
    intro key hkey records g hg g' hg'
    obtain ⟨hplace, hsuits⟩ := h.key_of_mem_collect hg hkey
    exact ⟨hplace, hsuits.comparable (h.key_of_mem_collect hg' hkey).2⟩
  extremes := by
    intro a ha records front x back hvalues best hbest
    have hsuits : ∀ v ∈ front ++ x :: back, v.Suits a.slot.field.type := by
      intro v hv
      exact h.suits_of_mem_valuesAt (h.reductions_mem a ha).1 (hvalues ▸ hv)
    have hmem : best ∈ front := hbest.elim mem_of_mem_least? mem_of_mem_greatest?
    exact (hsuits best (List.mem_append_left _ hmem)).comparable (hsuits x (by simp))

end Resolution

/-- **A definition that is decoded and passes its checks has a plan that cannot go wrong.** -/
theorem safe_of_decode {origin : Json.Origin} {node : Json.Node}
    (hdecode : Definition.decode origin node = .ok d) (hplan : ofDefinition r d = .ok p) :
    p.Safe r d :=
  (resolution_of_ofDefinition hplan).safe (Definition.yields_decode origin node d hdecode)

/-- A request for the sales beyond an amount, the largest first. -/
def largeSales : Json.Node :=
  .object [(.string "fields", .array [.string "city"] none),
    (.string "filters", .array [.object [(.string "fieldId", .string "amount"),
      (.string "operator", .string "greaterThan"),
      (.string "value", .object [(.string "type", .string "number"),
        (.string "value", .number (.int 5 (by decide)))] none)] none] none),
    (.string "sort", .array [.object [(.string "fieldId", .string "amount"),
      (.string "direction", .string "desc")] none] none)] none

/-- The request for large sales has a plan that cannot go wrong. -/
theorem safe_of_decode_largeSales : ∃ d p, Definition.decode .document largeSales = .ok d ∧
    ofDefinition .sales d = .ok p ∧ p.Safe .sales d :=
  ⟨_, _, rfl, rfl, safe_of_decode (rfl : Definition.decode .document largeSales = .ok _) rfl⟩

end Plan

end Reporting
