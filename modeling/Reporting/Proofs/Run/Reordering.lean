import Mathlib.Data.List.Perm.Basic
import Reporting.Proofs.Run.Partitions
import Reporting.Proofs.Run.WorkingSet
import Reporting.Proofs.Value.Extremes

/-!
# Proofs/Run/Reordering — what of a report does not depend on the order of the items

A source may yield its items in any order.  The order shows in that of rows and groups, and in sums,
which are rounded as they grow; everything else is the same (`Engine.reorders_of_perm`).  A group is led
by another record if its records come in another order, but by one that is alike, and what is alike is
written alike.
-/

namespace Reporting

variable {r : Registry} {d : Definition} {p : Plan} {items items' : List Item}

/-! ## Reductions -/

namespace Reduction

/-- Whether what a function makes of cells is the same in whatever order they come.  Sums are rounded as
they grow. -/
def ignoresOrder : Reduction → Bool
  | count | countDistinct | min | max => true
  | sum | avg => false

/-- **Counts and extremes are written alike in whatever order their cells come.** -/
theorem cellOrNull_apply_perm {f : Reduction} (hf : f.ignoresOrder) {type : FieldType}
    {cells cells' : List (Option Value)} (h : cells.Perm cells')
    (hsuits : ∀ cell ∈ cells, Cell.Suits type cell) :
    Value.cellOrNull (f.apply cells) = Value.cellOrNull (f.apply cells') := by
  have hpresent : (cells.filterMap id).Perm (cells'.filterMap id) := h.filterMap id
  have hvalues : ∀ v ∈ cells.filterMap id, v.Suits type := by
    intro v hv
    obtain ⟨cell, hcell, hv⟩ := List.mem_filterMap.1 hv
    exact hsuits cell hcell v hv
  cases f with
  | count => rw [apply, apply, h.length_eq]
  | countDistinct =>
    have hparts := firstOccurrences_perm (hpresent.map fun v => KeyPart.of (some v))
    rw [apply, apply, hparts.length_eq]
  | sum | avg => cases hf
  | min =>
    rw [apply, apply, least?_eq_keptOf, least?_eq_keptOf]
    exact (Value.favours_lower type).cellOrNull_keptOf_perm hpresent hvalues
  | max =>
    rw [apply, apply, greatest?_eq_keptOf, greatest?_eq_keptOf]
    exact (Value.favours_upper type).cellOrNull_keptOf_perm hpresent hvalues

end Reduction

/-! ## Records -/

/-- The values of records under an id suit one type. -/
theorem Registry.exists_suits_valueIn (r : Registry) (id : String) :
    ∃ type, ∀ record, Cell.Suits type (r.valueIn id record) := by
  cases hfind : r.find? id with
  | none =>
    refine ⟨.text, fun record => ?_⟩
    rw [valueIn_of_find?_eq_none hfind]
    exact fun _ hv => by cases hv
  | some f =>
    refine ⟨f.type, fun record => ?_⟩
    rw [valueIn_of_find? hfind]
    exact f.suits_valueIn record

/-- Records that are alike are written alike under the fields that they are alike in. -/
theorem Registry.cellsIn_eq_of_alike {ids : List String} {a b : Record} (h : r.alike ids a b) :
    r.cellsIn ids a = r.cellsIn ids b := by
  refine List.map_congr_left fun id hid => ?_
  rw [Value.cellOrNull_eq_of_cellsAlike (List.all_eq_true.1 h id hid)]

namespace Definition

/-- The same records are selected in whatever order the items come. -/
theorem selection_perm (h : items.Perm items') :
    (d.selection r items).Perm (d.selection r items') := by
  have hkept : ((Item.records items).filter (d.keeps r)).Perm
      ((Item.records items').filter (d.keeps r)) := (h.filterMap _).filter _
  exact (insertionSortBy_perm _).trans (hkept.trans (insertionSortBy_perm _).symm)

/-- As many cells are malformed in whatever order the items come. -/
theorem foldl_malformedCells_perm (h : items.Perm items') :
    (Item.records items).foldl (fun n record => n + d.malformedCells r record) 0 =
      (Item.records items').foldl (fun n record => n + d.malformedCells r record) 0 := by
  refine List.Perm.foldl_eq' (h.filterMap _) (fun x _ y _ n => ?_) 0
  exact Nat.add_right_comm n _ _

end Definition

/-! ## Groups -/

/-- Lists whose items have the same keys can be matched item by item. -/
theorem exists_perm_forall₂ {α κ : Type} {key : α → κ} {xs ys : List α}
    (h : (xs.map key).Perm (ys.map key)) :
    ∃ matched, matched.Perm ys ∧ List.Forall₂ (fun x y => key x = key y) xs matched := by
  have hkeys : List.Forall₂ (fun k y => k = key y) (ys.map key) ys :=
    List.forall₂_map_left_iff.2 (List.forall₂_same.2 fun _ _ => rfl)
  obtain ⟨matched, hmatched, hperm⟩ := List.perm_comp_forall₂ h hkeys
  exact ⟨matched, hperm, List.forall₂_map_left_iff.1 hmatched⟩

namespace Definition

variable {sorted sorted' : List Record} {leader leader' : Record}

/-- The leaders have the keys that the records have. -/
theorem mem_map_partsIn_groupLeaders {key : List KeyPart} :
    key ∈ (d.groupLeaders r sorted).map (r.partsIn d.groupBy) ↔
      key ∈ sorted.map (r.partsIn d.groupBy) := by
  rw [List.mem_map, List.mem_map]
  constructor
  · rintro ⟨leader, hleader, rfl⟩
    exact ⟨leader, mem_of_mem_groupLeaders hleader, rfl⟩
  · rintro ⟨record, hrecord, rfl⟩
    obtain ⟨leader, hleader, halike⟩ := exists_groupLeader (r := r) (d := d) hrecord
    exact ⟨leader, hleader, (Registry.alike_iff d.groupBy leader record).1 halike⟩

/-- Every key has one leader. -/
theorem nodup_map_partsIn_groupLeaders (sorted : List Record) :
    ((d.groupLeaders r sorted).map (r.partsIn d.groupBy)).Nodup := by
  refine List.pairwise_map.2 ((pairwise_groupLeaders sorted).imp fun {a b} hab heq => hab ?_)
  exact (Registry.alike_iff d.groupBy a b).2 heq

/-- **The leaders of records in another order can be matched with those that are alike.** -/
theorem exists_matching_groupLeaders (h : sorted.Perm sorted') :
    ∃ matched, matched.Perm (d.groupLeaders r sorted') ∧
      List.Forall₂ (fun a b => r.alike d.groupBy a b) (d.groupLeaders r sorted) matched := by
  have hkeys : ((d.groupLeaders r sorted).map (r.partsIn d.groupBy)).Perm
      ((d.groupLeaders r sorted').map (r.partsIn d.groupBy)) := by
    -- Neither side has a key twice, so it is enough that both have the same keys.
    refine (List.perm_ext_iff_of_nodup (nodup_map_partsIn_groupLeaders sorted)
      (nodup_map_partsIn_groupLeaders sorted')).2 fun key => ?_
    rw [mem_map_partsIn_groupLeaders, mem_map_partsIn_groupLeaders, (h.map _).mem_iff]
  obtain ⟨matched, hperm, hmatched⟩ := exists_perm_forall₂ hkeys
  exact ⟨matched, hperm, hmatched.imp fun a b => (Registry.alike_iff d.groupBy a b).2⟩

/-- Leaders that are alike have the same records, in whatever order they come. -/
theorem groupOf_perm (h : sorted.Perm sorted') (halike : r.alike d.groupBy leader leader') :
    (d.groupOf r sorted leader).Perm (d.groupOf r sorted' leader') := by
  have hsame : r.alike d.groupBy leader = r.alike d.groupBy leader' := by
    funext record
    rw [Registry.alike_iff] at halike
    rw [Bool.eq_iff_iff, Registry.alike_iff, Registry.alike_iff, halike]
  rw [groupOf, groupOf, hsame]
  exact h.filter _

/-- What is found in the row of a group under the target of an aggregation is its value. -/
theorem get?_groupRow (hcolumns : d.groupedColumns.Nodup) {a : Aggregation}
    (ha : a ∈ d.aggregations) (sorted : List Record) (leader : Record) :
    Json.Members.get? (d.groupRow r sorted leader) a.target =
      some (Value.cellOrNull (reduce r a (d.groupOf r sorted leader))) :=
  get?_groupRow_of_mem hcolumns (List.mem_append_right _ (List.mem_map_of_mem ha))

/-- Whether two groups, each with its row, are the same but for the order of their records: they are
written under one key, they have the same rows, and what is reckoned regardless of the order is the
same. -/
structure Matches (d : Definition) (a b : Row × Partition) : Prop where
  keyValues : a.2.keyValues = b.2.keyValues
  rows : a.2.rows.Perm b.2.rows
  values : ∀ x ∈ d.aggregations, x.function.ignoresOrder →
    ∃ cell, a.1.get? x.target = some cell ∧ b.1.get? x.target = some cell

/-- **The groups of leaders that are alike match.** -/
theorem matches_of_alike (hcolumns : d.groupedColumns.Nodup) (h : sorted.Perm sorted')
    (halike : r.alike d.groupBy leader leader') :
    d.Matches (d.groupRow r sorted leader, d.partitionOf r sorted leader)
      (d.groupRow r sorted' leader', d.partitionOf r sorted' leader') where
  keyValues := by
    dsimp only [partitionOf]
    rw [Registry.cellsIn_eq_of_alike halike]
  rows := (groupOf_perm h halike).map _
  values := by
    intro a ha hignores
    obtain ⟨type, hsuits⟩ := r.exists_suits_valueIn a.fieldId
    have hcell : ∀ cell ∈ (d.groupOf r sorted leader).map (r.valueIn a.fieldId),
        Cell.Suits type cell := List.forall_mem_map.2 fun record _ => hsuits record
    have hcells : Value.cellOrNull (reduce r a (d.groupOf r sorted leader)) =
        Value.cellOrNull (reduce r a (d.groupOf r sorted' leader')) :=
      Reduction.cellOrNull_apply_perm hignores ((groupOf_perm h halike).map _) hcell
    refine ⟨_, get?_groupRow hcolumns ha sorted leader, ?_⟩
    rw [hcells]
    exact get?_groupRow hcolumns ha sorted' leader'

end Definition

/-! ## Reports -/

namespace Definition

/-- Whether two reports on a definition are the same but for the order of rows, groups and the records
of groups, and what depends on it. -/
structure Reorders (d : Definition) (a b : Report) : Prop where
  columns : a.columns = b.columns
  totalRows : a.totalRows = b.totalRows
  skipped : a.skipped = b.skipped
  malformed : a.malformed = b.malformed
  ungrouped : ¬ d.isGrouped → a.groups = none ∧ b.groups = none ∧ a.rows.Perm b.rows
  /-- The groups, each with its row, can be matched one to one. -/
  grouped : d.isGrouped → ∃ x y, a.groups = some x ∧ b.groups = some y ∧ x.keys = y.keys ∧
    x.totalPartitions = y.totalPartitions ∧ a.rows.length = x.partitions.length ∧
    b.rows.length = y.partitions.length ∧ ∃ matched, matched.Perm (b.rows.zip y.partitions) ∧
      List.Forall₂ d.Matches (a.rows.zip x.partitions) matched

/-- **A definition asks for the same in whatever order the items come**, but for order. -/
theorem meaning_reorders (hcolumns : d.groupedColumns.Nodup) (hoffset : d.offset = 0)
    (hlimit : d.limit = none) (h : items.Perm items') :
    d.Reorders (d.meaning r items) (d.meaning r items') := by
  have hselection := selection_perm (d := d) (r := r) h
  exact {
    columns := rfl
    totalRows := hselection.length_eq
    skipped := h.countP_eq _
    malformed := foldl_malformedCells_perm h
    ungrouped := by
      intro hgrouped
      refine ⟨if_neg hgrouped, if_neg hgrouped, ?_⟩
      simp only [meaning, if_neg hgrouped, hoffset, hlimit, window_zero_none]
      exact hselection.map _
    grouped := by
      intro hgrouped
      obtain ⟨matched, hperm, hmatched⟩ := exists_matching_groupLeaders (r := r) (d := d) hselection
      refine ⟨_, _, if_pos hgrouped, if_pos hgrouped, rfl, ?_, ?_, ?_, ?_⟩
      · exact hmatched.length_eq.trans hperm.length_eq
      · simp [meaning, if_pos hgrouped]
      · simp [meaning, if_pos hgrouped]
      · simp only [meaning, if_pos hgrouped, hoffset, hlimit, window_zero_none, List.zip_map']
        refine ⟨_, hperm.map _, ?_⟩
        rw [List.forall₂_map_left_iff, List.forall₂_map_right_iff]
        exact hmatched.imp fun _ _ => matches_of_alike hcolumns hselection }

end Definition

/-! ## Runs -/

namespace Engine

/-- **What comes of a run does not depend on the order of the items**, but for order.  Runs of a
definition without a page on the same items in two orders both find no room for what they select, or both
give reports that are the same but for order: the counts are equal, and the rows, or else the groups, can
be matched one to one, with the keys, the records, the counts and the extremes of each. -/
theorem reorders_of_perm {e : Engine} (hvalid : Plan.ofDefinition e.registry d = .ok p)
    (hoffset : d.offset = 0) (hlimit : d.limit = none) (h : items.Perm items') :
    (∃ limit, e.maxWorkingSet = some limit ∧
      (e.execute d (.ok items) .clear).outcome = .error (.workingSetExceeded limit) ∧
      (e.execute d (.ok items') .clear).outcome = .error (.workingSetExceeded limit)) ∨
    ∃ report report', (e.execute d (.ok items) .clear).outcome = .ok report ∧
      (e.execute d (.ok items') .clear).outcome = .ok report' ∧ d.Reorders report report' := by
  have hlength := (Definition.selection_perm (d := d) (r := e.registry) h).length_eq
  rw [outcome_execute hvalid items, outcome_execute hvalid items', ← hlength]
  by_cases hroom : HasRoom e.maxWorkingSet (d.selection e.registry items).length
  · rw [if_pos hroom, if_pos hroom]
    have hcolumns := (Plan.resolution_of_ofDefinition hvalid).columns
    exact .inr ⟨_, _, rfl, rfl, Definition.meaning_reorders hcolumns hoffset hlimit h⟩
  · obtain ⟨limit, hbound, -⟩ := exists_of_not_hasRoom hroom
    rw [if_neg hroom, if_neg hroom, hbound]
    exact .inl ⟨limit, rfl, rfl, rfl⟩

/-- The sales in the other order make the same groups. -/
theorem reorders_of_perm_sales : ∃ report report',
    (execute ⟨.sales, none⟩ .salesByCity (.ok Item.sales) .clear).outcome = .ok report ∧
    (execute ⟨.sales, none⟩ .salesByCity (.ok Item.sales.reverse) .clear).outcome = .ok report' ∧
    Definition.salesByCity.Reorders report report' := by
  have hruns := reorders_of_perm (e := ⟨.sales, none⟩) (d := .salesByCity) rfl rfl rfl
    (List.reverse_perm Item.sales).symm
  rcases hruns with ⟨_, hbound, -⟩ | hreports
  · cases hbound
  · exact hreports

end Engine

end Reporting
