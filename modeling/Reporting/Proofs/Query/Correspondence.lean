import Reporting.Proofs.Order.Sorting
import Reporting.Proofs.Query.Conditions
import Reporting.Proofs.Query.Grouping
import Reporting.Proofs.Query.Resolution
import Reporting.Proofs.Value.Order
import Reporting.Run.Assembly

/-!
# Proofs/Query/Correspondence — what a plan does to rows, its definition does to records

A plan reads a record into a row once and looks at nothing else afterwards.  Each section takes one
thing that a plan does to rows — filter, sort, group, order groups — and shows that it is what the
definition asks of the records that the rows were read from.
-/

namespace Reporting

variable {r : Registry} {d : Definition} {p : Plan}

/-! ## Values of records -/

namespace Registry

theorem valueIn_of_find? {id : String} {f : Field} (h : r.find? id = some f) (record : Record) :
    r.valueIn id record = f.valueIn record := by
  rw [valueIn, h, Option.bind_some]

theorem valueIn_of_find?_eq_none {id : String} (h : r.find? id = none) (record : Record) :
    r.valueIn id record = none := by
  rw [valueIn, h, Option.bind_none]

/-- What decides which group a record is in. -/
def partsIn (r : Registry) (ids : List String) (record : Record) : List KeyPart :=
  ids.map fun id => KeyPart.of (r.valueIn id record)

/-- Under one id, having one key part is being alike. -/
theorem keyPart_valueIn_eq_iff (id : String) (a b : Record) :
    KeyPart.of (r.valueIn id a) = KeyPart.of (r.valueIn id b) ↔
      cellsAlike (r.valueIn id a) (r.valueIn id b) := by
  cases h : r.find? id with
  | none => simp [valueIn_of_find?_eq_none h, cellsAlike]
  | some f =>
    rw [valueIn_of_find? h, valueIn_of_find? h]
    exact keyPart_eq_iff_alike (f.suits_valueIn a) (f.suits_valueIn b)

/-- **Records are alike exactly if they have one key.** -/
theorem alike_iff (ids : List String) (a b : Record) :
    r.alike ids a b ↔ r.partsIn ids a = r.partsIn ids b := by
  rw [alike, List.all_eq_true, partsIn, partsIn, List.map_inj_left]
  exact forall₂_congr fun id _ => (keyPart_valueIn_eq_iff id a b).symm

end Registry

/-! ## Rows -/

/-- A record as a row of a plan. -/
def Plan.read (p : Plan) (record : Record) : TypedRow := (Slot.readRow p.slots record).1

/-- Whether the cells of a row suit the fields of slots. -/
def TypedRow.Suits (slots : List Slot) (row : TypedRow) : Prop :=
  ∀ slot ∈ slots, Cell.Suits slot.field.type (row.at slot)

/-- **The cells of a row suit their fields.** -/
theorem Slot.Layout.suits_readRow {slots : List Slot} (h : Layout r slots) (record : Record) :
    TypedRow.Suits slots (readRow slots record).1 := by
  intro slot hslot
  rw [h.at_readRow hslot]
  exact slot.field.suits_valueIn record

/-- **A sort key orders rows** whose cells suit their fields. -/
theorem SlotKey.ordersOn_compareRows {slots : List Slot} {key : SlotKey} (h : key.slot ∈ slots) :
    OrdersOn (TypedRow.Suits slots) key.compareRows :=
  (ordersOn_compareCells key.slot.field key.direction).comap (·.at key.slot)
    (fun _ hrow => hrow key.slot h) fun _ _ _ _ => rfl

namespace Plan.Resolution

variable (h : Resolution r d p)
include h

theorem at_read {slot : Slot} (hslot : slot ∈ p.slots) (record : Record) :
    (p.read record).at slot = r.valueIn slot.field.id record :=
  h.layout.at_readRow_eq_valueIn hslot record

theorem suits_read (record : Record) : TypedRow.Suits p.slots (p.read record) :=
  h.layout.suits_readRow record

theorem snd_readRow (record : Record) :
    (Slot.readRow p.slots record).2 = d.malformedCells r record := by
  rw [Slot.snd_readRow, Definition.malformedCells, ← h.ids, List.countP_map]
  refine List.countP_congr fun slot hslot => ?_
  rw [Function.comp_apply, h.layout.found slot hslot, Option.any_some]

/-! ## Filters -/

/-- **A row passes the filters of a plan exactly if its record passes those of the definition.** -/
theorem accepts_read (record : Record) : p.accepts (p.read record) = d.keeps r record := by
  have hmap : p.filters.map (Condition.holds (p.read record)) =
      d.filters.map fun c => c.holds (r.valueIn c.fieldId record) := by
    refine map_eq_map_of_each h.filters fun c _ condition hok => ?_
    obtain ⟨hslot, hid, htest⟩ := (Condition.ofClause_eq_ok_iff h.layout).1 hok
    rw [Condition.holds, h.at_read hslot, hid, Condition.holds_eq_of_testOf htest]
  have hall := congrArg (List.all · id) hmap
  simpa [accepts, Definition.keeps, List.all_map] using hall

end Plan.Resolution

/-! ## Sorting -/

namespace Plan.Resolution

variable (h : Resolution r d p)
include h

theorem compareRows_read {key : SlotKey} (hkey : key ∈ p.sort) (a b : Record) :
    key.compareRows (p.read a) (p.read b) = key.toSortKey.compare r a b := by
  have hslot := (h.sort_mem key hkey).1
  have hfind := h.layout.found key.slot hslot
  rw [SlotKey.compareRows, h.at_read hslot, h.at_read hslot, SortKey.compare, SlotKey.toSortKey,
    Registry.valueIn_of_find? hfind, Registry.valueIn_of_find? hfind, hfind]

/-- Rows are ordered like their records. -/
theorem compareBy_read (a b : Record) :
    compareBy p.sort (p.read a) (p.read b) = SortKey.compareBy r d.sort a b := by
  rw [compareBy, SortKey.compareBy, ← h.sort, List.map_map]
  congr 1
  exact List.map_congr_left fun key hkey => h.compareRows_read hkey a b

/-- **Sorting rows is sorting their records.** -/
theorem sortRows_read (records : List Record) :
    sortRows p.sort (records.map p.read) =
      (insertionSortBy (SortKey.compareBy r d.sort) records).map p.read := by
  rw [map_insertionSortBy fun a b => (h.compareBy_read a b).symm]
  refine sortBy_firstDecision
    (fun key hkey => SlotKey.ordersOn_compareRows (h.sort_mem key hkey).1) fun row hrow => ?_
  obtain ⟨record, -, rfl⟩ := List.mem_map.1 hrow
  exact h.suits_read record

/-! ## Grouping -/

theorem keyOf_read (record : Record) :
    RowGroup.keyOf p.groupBy (p.read record) = d.groupBy.map fun id => r.valueIn id record := by
  rw [RowGroup.keyOf, ← h.groupBy, List.map_map]
  exact List.map_congr_left fun slot hslot => h.at_read (h.groupBy_mem slot hslot).1 record

/-- Rows are in one group exactly if their records are alike. -/
theorem together_read (a b : Record) :
    RowGroup.together p.groupBy (p.read a) (p.read b) = r.alike d.groupBy a b := by
  rw [Bool.eq_iff_iff, RowGroup.together_iff, Registry.alike_iff, RowGroup.partsOf,
    RowGroup.partsOf, h.keyOf_read, h.keyOf_read, List.map_map, List.map_map]
  exact Iff.rfl

end Plan.Resolution

/-- The group of the records like a leader, as rows of a plan. -/
def Plan.groupOf (p : Plan) (d : Definition) (r : Registry) (sorted : List Record)
    (leader : Record) : RowGroup :=
  ⟨d.groupBy.map fun id => r.valueIn id leader, (d.groupOf r sorted leader).map p.read⟩

namespace Plan.Resolution

variable (h : Resolution r d p)
include h

/-- **Grouping rows is grouping their records.** -/
theorem collect_read (sorted : List Record) :
    RowGroup.collect p.groupBy (sorted.map p.read) =
      (leaders (r.alike d.groupBy) sorted).map (p.groupOf d r sorted) := by
  rw [RowGroup.collect_eq, ← map_leaders fun a _ b _ =>
    (h.together_read a b).symm, List.map_map]
  refine List.map_congr_left fun leader _ => ?_
  rw [Function.comp_apply, RowGroup.around, h.keyOf_read, List.filter_map, groupOf,
    Definition.groupOf]
  congr 3
  ext record
  rw [Function.comp_apply, h.together_read]

/-! ## The order of groups -/

/-- Where the slot of a sort key is in the key of a group. -/
theorem findIdx?_groupBy {key : SlotKey} (hkey : key ∈ p.sort) {place : Nat}
    (hplace : p.groupBy.findIdx? (fun slot => slot.index == key.slot.index) = some place) :
    p.groupBy[place]? = some key.slot := by
  obtain ⟨hlt, hindex, -⟩ := List.findIdx?_eq_some_iff_getElem.1 hplace
  rw [List.getElem?_eq_getElem hlt]
  congr 1
  exact h.layout.eq_of_index_eq (h.groupBy_mem _ (List.getElem_mem hlt)).1 (h.sort_mem key hkey).1
    (by simpa using hindex)

/-- Only a sort key that names a field grouped by has its slot in the keys of groups. -/
theorem findIdx?_groupBy_eq_none_iff {key : SlotKey} (hkey : key ∈ p.sort) :
    p.groupBy.findIdx? (fun slot => slot.index == key.slot.index) = none ↔
      key.toSortKey.fieldId ∉ d.groupBy := by
  rw [List.findIdx?_eq_none_iff, ← h.groupBy, List.mem_map]
  constructor
  · rintro hnone ⟨slot, hslot, hid⟩
    have := h.layout.eq_of_id_eq (h.groupBy_mem slot hslot).1 (h.sort_mem key hkey).1 hid
    simpa [this] using hnone slot hslot
  · intro hnone slot hslot
    refine beq_false_of_ne fun hindex => hnone ⟨slot, hslot, ?_⟩
    rw [h.layout.eq_of_index_eq (h.groupBy_mem slot hslot).1 (h.sort_mem key hkey).1 hindex]
    rfl

omit h in
theorem cell_groupOf {place : Nat} {slot : Slot} (hids : p.groupBy.map (·.field.id) = d.groupBy)
    (hslot : p.groupBy[place]? = some slot) (sorted : List Record) (leader : Record) :
    ((p.groupOf d r sorted leader).key[place]?).join = r.valueIn slot.field.id leader := by
  rw [groupOf, ← hids, List.map_map, List.getElem?_map, hslot]
  rfl

/-- Groups are ordered like their leaders by the sort keys that name fields grouped by. -/
theorem map_compareGroups {keys : List SlotKey} (hkeys : ∀ key ∈ keys, key ∈ p.sort)
    (sorted : List Record) (a b : Record) :
    ((GroupKey.ofSort p.groupBy keys).map fun key =>
        key.compareGroups (p.groupOf d r sorted a) (p.groupOf d r sorted b)) =
      ((keys.map SlotKey.toSortKey).filter fun key => key.fieldId ∈ d.groupBy).map fun key =>
        key.compare r a b := by
  induction keys with
  | nil => rfl
  | cons key rest ih =>
    have hkey := hkeys key List.mem_cons_self
    replace ih := ih fun k hk => hkeys k (List.mem_cons_of_mem key hk)
    rw [List.map_cons, GroupKey.ofSort, List.filterMap_cons]
    cases hplace : p.groupBy.findIdx? fun slot => slot.index == key.slot.index with
    | none =>
      have hnot := (h.findIdx?_groupBy_eq_none_iff hkey).1 hplace
      rw [List.filter_cons_of_neg (by simpa using hnot)]
      exact ih
    | some place =>
      have hmem : key.toSortKey.fieldId ∈ d.groupBy := by
        by_contra hnot
        cases hplace.symm.trans ((h.findIdx?_groupBy_eq_none_iff hkey).2 hnot)
      have hslot := h.findIdx?_groupBy hkey hplace
      rw [List.filter_cons_of_pos (by simpa using hmem), List.map_cons, ← ih,
        ← h.compareRows_read hkey, SlotKey.compareRows, h.at_read (h.sort_mem key hkey).1,
        h.at_read (h.sort_mem key hkey).1, ← cell_groupOf h.groupBy hslot sorted,
        ← cell_groupOf h.groupBy hslot sorted]
      rfl

end Plan.Resolution

/-- The order of two groups by several keys. -/
def GroupKey.compareBy (order : List GroupKey) (a b : RowGroup) : Ordering :=
  firstDecision (order.map fun key => key.compareGroups a b)

/-- Whether the key of a group has cells that suit the fields that it is compared by. -/
def RowGroup.Suits (order : List GroupKey) (g : RowGroup) : Prop :=
  ∀ key ∈ order, Cell.Suits key.field.type (g.key[key.place]?).join

namespace Plan.Resolution

variable (h : Resolution r d p)
include h

/-- The sort keys of groups, and where their slots are. -/
theorem exists_of_mem_groupOrder {key : GroupKey} (hkey : key ∈ p.groupOrder) :
    ∃ slot, p.groupBy[key.place]? = some slot ∧ key.field = slot.field := by
  rw [h.groupOrder, GroupKey.ofSort, List.mem_filterMap] at hkey
  obtain ⟨k, hk, hkey⟩ := hkey
  obtain ⟨place, hplace, rfl⟩ := Option.map_eq_some_iff.1 hkey
  exact ⟨k.slot, h.findIdx?_groupBy hk hplace, rfl⟩

theorem suits_groupOf (sorted : List Record) (leader : Record) :
    RowGroup.Suits p.groupOrder (p.groupOf d r sorted leader) := by
  intro key hkey
  obtain ⟨slot, hslot, hfield⟩ := h.exists_of_mem_groupOrder hkey
  have hmem := (h.groupBy_mem slot (List.mem_of_getElem? hslot)).1
  rw [cell_groupOf h.groupBy hslot, hfield, Registry.valueIn_of_find? (h.layout.found slot hmem)]
  exact slot.field.suits_valueIn leader

omit h in
/-- **A sort key orders the groups of a plan.** -/
theorem ordersOn_compareGroups {order : List GroupKey} {key : GroupKey} (hkey : key ∈ order) :
    OrdersOn (RowGroup.Suits order) key.compareGroups :=
  (SlotKey.ordersOn_compareCells key.field key.direction).comap
    (fun g : RowGroup => (g.key[key.place]?).join) (fun _ hg => hg key hkey) fun _ _ _ _ => rfl

/-- **The groups of rows, in order, are those of their records.** -/
theorem groupsOf_read (sorted : List Record) :
    p.groupsOf (sorted.map p.read) =
      (d.groupLeaders r sorted).map (p.groupOf d r sorted) := by
  have hcompare : ∀ a b, SortKey.compareBy r d.groupSort a b =
      GroupKey.compareBy p.groupOrder (p.groupOf d r sorted a) (p.groupOf d r sorted b) := by
    intro a b
    rw [GroupKey.compareBy, h.groupOrder, h.map_compareGroups (fun _ hkey => hkey) sorted a b,
      h.sort]
    rfl
  rw [groupsOf, groupRows, h.collect_read, Definition.groupLeaders, map_insertionSortBy hcompare]
  refine sortBy_firstDecision (fun key hkey => ordersOn_compareGroups hkey) fun g hg => ?_
  obtain ⟨leader, -, rfl⟩ := List.mem_map.1 hg
  exact h.suits_groupOf sorted leader

end Plan.Resolution

end Reporting
