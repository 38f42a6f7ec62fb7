import Mathlib.Algebra.Ring.Nat
import Reporting.Proofs.Run.Refinement
import Reporting.Proofs.Value.Cell

/-!
# Proofs/Run/Partitions — groups divide what passed the filters

A leader stands for the records like it.  No two leaders are alike and every record is like one of
them, so the groups of the leaders hold every record once (`divide_groupLeaders`), whichever way the
groups are ordered.  Leaders that are not alike are not written alike either
(`nodup_keyValues_groupLeaders`).
-/

namespace Reporting

/-! ## Counting -/

section Counting

variable {α β : Type} {p : α → β → Bool}

/-- What one more item adds to counts. -/
theorem sum_map_countP_cons (x : β) (xs : List β) (ls : List α) :
    (ls.map fun l => (x :: xs).countP (p l)).sum =
      (ls.map fun l => xs.countP (p l)).sum + ls.countP (p · x) := by
  induction ls with
  | nil => rfl
  | cons l rest ih =>
    rw [List.map_cons, List.sum_cons, ih, List.map_cons, List.sum_cons, List.countP_cons,
      List.countP_cons]
    omega

/-- **Counts of items that are each counted once come to all of them.** -/
theorem sum_map_countP_eq_length {xs : List β} {ls : List α}
    (h : ∀ x ∈ xs, ls.countP (p · x) = 1) : (ls.map fun l => xs.countP (p l)).sum = xs.length := by
  induction xs with
  | nil => simp
  | cons x rest ih =>
    rw [sum_map_countP_cons, h x List.mem_cons_self, ih fun y hy => h y (List.mem_cons_of_mem x hy),
      List.length_cons]

/-- A property that an item has, and no two have, is counted once. -/
theorem countP_eq_one {q : α → Bool} {ls : List α} (hone : ls.Pairwise fun a b => ¬ (q a ∧ q b))
    {l : α} (hl : l ∈ ls) (hq : q l) : ls.countP q = 1 := by
  induction ls with
  | nil => cases hl
  | cons head rest ih =>
    obtain ⟨hhead, hrest⟩ := List.pairwise_cons.1 hone
    by_cases hq' : q head
    · rw [List.countP_cons_of_pos hq',
        List.countP_eq_zero.2 fun other hother hqo => hhead other hother ⟨hq', hqo⟩]
    · rw [List.countP_cons_of_neg hq']
      rcases List.mem_cons.1 hl with rfl | hl
      · exact absurd hq hq'
      · exact ih hrest hl

/-- What no two items have is found at one place. -/
theorem eq_of_getElem?_of_pairwise {q : α → Bool} {ls : List α}
    (hone : ls.Pairwise fun a b => ¬ (q a ∧ q b)) {i j : Nat} {a b : α} (hi : ls[i]? = some a)
    (hj : ls[j]? = some b) (ha : q a) (hb : q b) : i = j := by
  obtain ⟨hilt, rfl⟩ := List.getElem?_eq_some_iff.1 hi
  obtain ⟨hjlt, rfl⟩ := List.getElem?_eq_some_iff.1 hj
  rcases Nat.lt_trichotomy i j with hlt | heq | hlt
  · exact absurd ⟨ha, hb⟩ (List.pairwise_iff_getElem.1 hone i j hilt hjlt hlt)
  · exact heq
  · exact absurd ⟨hb, ha⟩ (List.pairwise_iff_getElem.1 hone j i hjlt hilt hlt)

end Counting

/-! ## Groups of records -/

/-- Whether a record has the values of a key under some ids. -/
def Registry.hasKey (r : Registry) : List String → List (Option Value) → Record → Bool
  | [], [], _ => true
  | id :: ids, v :: key, record => cellsAlike v (r.valueIn id record) && hasKey r ids key record
  | _, _, _ => false

/-- Records with the values of a key. -/
structure RecordGroup where
  key : List (Option Value)
  members : List Record

/-- A group as it is written into a report. -/
def RecordGroup.partition (d : Definition) (r : Registry) (g : RecordGroup) : Partition :=
  ⟨g.key.map Value.cellOrNull, g.members.map (d.rowOf r)⟩

/-- Whether groups divide records by their values under some ids. -/
structure RecordGroup.Divide (r : Registry) (ids : List String) (records : List Record)
    (groups : List RecordGroup) : Prop where
  /-- A group has the records with its key, in their order. -/
  members : ∀ g ∈ groups, g.members = records.filter (r.hasKey ids g.key)
  nonempty : ∀ g ∈ groups, g.members ≠ []
  /-- Every record is in one group and in no other. -/
  unique : ∀ record ∈ records, ∃! i : Nat, ∃ g, groups[i]? = some g ∧ record ∈ g.members

variable {r : Registry} {d : Definition}

/-- Having the values of a record is being like it. -/
theorem Registry.hasKey_map (ids : List String) (leader record : Record) :
    r.hasKey ids (ids.map fun id => r.valueIn id leader) record = r.alike ids leader record := by
  induction ids with
  | nil => rfl
  | cons id rest ih => rw [List.map_cons, hasKey, ih, alike, alike, List.all_cons]

namespace Definition

/-- The group of a leader, with the values that it stands for. -/
def recordGroup (d : Definition) (r : Registry) (sorted : List Record) (leader : Record) :
    RecordGroup :=
  ⟨d.groupBy.map fun id => r.valueIn id leader, d.groupOf r sorted leader⟩

theorem partition_recordGroup (sorted : List Record) (leader : Record) :
    (d.recordGroup r sorted leader).partition d r = d.partitionOf r sorted leader := by
  rw [RecordGroup.partition, recordGroup, partitionOf, Registry.cellsIn, List.map_map, List.map_map]
  rfl

/-- The groups of several leaders as they are written. -/
theorem map_partition_recordGroup (sorted leaders : List Record) :
    (leaders.map (d.recordGroup r sorted)).map (RecordGroup.partition d r) =
      leaders.map (d.partitionOf r sorted) := by
  rw [List.map_map]
  exact List.map_congr_left fun leader _ => partition_recordGroup sorted leader

/-! ## Leaders -/

theorem groupLeaders_perm (sorted : List Record) :
    (d.groupLeaders r sorted).Perm (leaders (r.alike d.groupBy) sorted) := insertionSortBy_perm _

/-- **No two leaders are alike.** -/
theorem pairwise_groupLeaders (sorted : List Record) :
    (d.groupLeaders r sorted).Pairwise fun a b => ¬ r.alike d.groupBy a b := by
  refine (groupLeaders_perm sorted).symm.pairwise ?_ fun {a b} h hba => h ?_
  · exact (pairwise_leaders sorted).imp fun {a b} hab => Bool.not_eq_true _ ▸ hab
  · rwa [Registry.alike_iff, eq_comm, ← Registry.alike_iff]

/-- No two leaders are like one record. -/
theorem pairwise_groupLeaders_like (sorted : List Record) (record : Record) :
    (d.groupLeaders r sorted).Pairwise fun a b =>
      ¬ (r.alike d.groupBy a record ∧ r.alike d.groupBy b record) := by
  refine (pairwise_groupLeaders sorted).imp fun {a b} hab ⟨ha, hb⟩ => hab ?_
  rw [Registry.alike_iff] at ha hb ⊢
  exact ha.trans hb.symm

/-- **Every record is like a leader.** -/
theorem exists_groupLeader {sorted : List Record} {record : Record} (h : record ∈ sorted) :
    ∃ leader ∈ d.groupLeaders r sorted, r.alike d.groupBy leader record := by
  obtain ⟨leader, hleader, heq⟩ := exists_leader (Registry.alike_iff (r := r) d.groupBy) h
  exact ⟨leader, (groupLeaders_perm sorted).mem_iff.2 hleader,
    (Registry.alike_iff d.groupBy leader record).2 heq⟩

theorem mem_of_mem_groupLeaders {sorted : List Record} {leader : Record}
    (h : leader ∈ d.groupLeaders r sorted) : leader ∈ sorted :=
  mem_of_mem_leaders ((groupLeaders_perm sorted).mem_iff.1 h)

/-- **The groups of the leaders divide the records.** -/
theorem divide_groupLeaders (sorted : List Record) : RecordGroup.Divide r d.groupBy sorted
    ((d.groupLeaders r sorted).map (d.recordGroup r sorted)) where
  members := by
    intro g hg
    obtain ⟨leader, -, rfl⟩ := List.mem_map.1 hg
    exact List.filter_congr fun record _ => (Registry.hasKey_map d.groupBy leader record).symm
  nonempty := by
    intro g hg
    obtain ⟨leader, hleader, rfl⟩ := List.mem_map.1 hg
    have halike := (Registry.alike_iff (r := r) d.groupBy leader leader).2 rfl
    exact List.ne_nil_of_mem (List.mem_filter.2 ⟨mem_of_mem_groupLeaders hleader, halike⟩)
  unique := by
    intro record hrecord
    obtain ⟨leader, hleader, halike⟩ := exists_groupLeader (r := r) (d := d) hrecord
    obtain ⟨i, hi⟩ := List.mem_iff_getElem?.1 hleader
    refine ⟨i, ⟨d.recordGroup r sorted leader, ?_, List.mem_filter.2 ⟨hrecord, halike⟩⟩, ?_⟩
    · rw [List.getElem?_map, hi, Option.map_some]
    · rintro j ⟨g, hj, hmem⟩
      rw [List.getElem?_map] at hj
      obtain ⟨other, hother, rfl⟩ := Option.map_eq_some_iff.1 hj
      exact eq_of_getElem?_of_pairwise (pairwise_groupLeaders_like sorted record) hother hi
        (List.mem_filter.1 hmem).2 halike

/-- The sizes of the groups come to the number of records. -/
theorem sum_length_groupOf (sorted : List Record) :
    ((d.groupLeaders r sorted).map fun leader => (d.groupOf r sorted leader).length).sum =
      sorted.length := by
  simp only [groupOf, ← List.countP_eq_length_filter]
  refine sum_map_countP_eq_length fun record hrecord => ?_
  obtain ⟨leader, hleader, halike⟩ := exists_groupLeader (r := r) (d := d) hrecord
  exact countP_eq_one (pairwise_groupLeaders_like sorted record) hleader halike

/-- Records that are written alike under the fields grouped by are alike. -/
theorem alike_of_map_cellOrNull_eq {a b : Record}
    (h : (d.groupBy.map fun id => Value.cellOrNull (r.valueIn id a)) =
      d.groupBy.map fun id => Value.cellOrNull (r.valueIn id b)) : r.alike d.groupBy a b := by
  rw [List.map_inj_left] at h
  refine List.all_eq_true.2 fun id hid => ?_
  have hcell := h id hid
  cases hfind : r.find? id with
  | none =>
    rw [Registry.valueIn_of_find?_eq_none hfind, Registry.valueIn_of_find?_eq_none hfind]
    rfl
  | some f =>
    rw [Registry.valueIn_of_find? hfind, Registry.valueIn_of_find? hfind] at hcell ⊢
    exact Value.cellsAlike_of_cellOrNull_eq (f.suits_valueIn a) (f.suits_valueIn b) hcell

/-- **No two groups are written under one key.** -/
theorem nodup_keyValues_groupLeaders (sorted : List Record) :
    ((d.groupLeaders r sorted).map fun leader =>
      (d.partitionOf r sorted leader).keyValues).Nodup := by
  refine List.pairwise_map.2 ((pairwise_groupLeaders sorted).imp fun {a b} hab heq => hab ?_)
  simp only [partitionOf, Registry.cellsIn, List.map_map] at heq
  exact alike_of_map_cellOrNull_eq heq

/-! ## Rows of groups -/

/-- The cells of the row of a group, in the order of its columns. -/
def groupCells (d : Definition) (r : Registry) (sorted : List Record) (leader : Record) :
    List (String × Json) :=
  r.cellsIn d.groupBy leader ++ d.aggregations.map fun a =>
    (a.target, Value.cellOrNull (reduce r a (d.groupOf r sorted leader)))

theorem groupRow_eq (sorted : List Record) (leader : Record) :
    d.groupRow r sorted leader = Json.Members.ofList (d.groupCells r sorted leader) := rfl

/-- There is a cell for every column. -/
theorem map_fst_groupCells (sorted : List Record) (leader : Record) :
    (d.groupCells r sorted leader).map (·.1) = d.groupedColumns := by
  simp [groupCells, Registry.cellsIn, groupedColumns, Function.comp_def]

/-- **No cell of the row of a group is lost**, as its columns all have different names. -/
theorem get?_groupRow_of_mem (hcolumns : d.groupedColumns.Nodup) {sorted : List Record}
    {leader : Record} {name : String} {cell : Json}
    (h : (name, cell) ∈ d.groupCells r sorted leader) :
    Json.Members.get? (d.groupRow r sorted leader) name = some cell := by
  rw [groupRow_eq]
  refine Json.Members.get?_ofList_of_mem ?_ h
  rwa [map_fst_groupCells]

end Definition

/-! ## Runs -/

/-- **Groups are total, disjoint and rightly keyed.**  Whatever report comes of a run with groups and
without a page, its groups divide the records that passed the filters, in order; their sizes come to
the number of rows, and no two are written under one key. -/
theorem Engine.divide_of_outcome {e : Engine} {source : Except SourceError (List Item)}
    {token : Token} {report : Report} (h : (e.execute d source token).outcome = .ok report)
    (hgrouped : d.isGrouped) (hoffset : d.offset = 0) (hlimit : d.limit = none) :
    ∃ items set groups, source = .ok items ∧ report.groups = some set ∧
      set.partitions = groups.map (RecordGroup.partition d e.registry) ∧
      RecordGroup.Divide e.registry d.groupBy (d.selection e.registry items) groups ∧
      (d.selection e.registry items).Perm ((Item.records items).filter (d.keeps e.registry)) ∧
      (set.partitions.map fun partition => partition.rows.length).sum = report.totalRows ∧
      (set.partitions.map (·.keyValues)).Nodup := by
  obtain ⟨items, rfl, rfl⟩ := Engine.eq_meaning_of_outcome h
  obtain ⟨r, bound⟩ := e
  have hgroups : (d.meaning r items).groups = some ⟨d.groupBy,
      (d.groupLeaders r (d.selection r items)).length,
      (d.groupLeaders r (d.selection r items)).map (d.partitionOf r (d.selection r items))⟩ := by
    rw [Definition.meaning]
    dsimp only
    rw [if_pos hgrouped, hoffset, hlimit, window_zero_none]
  refine ⟨items, _, _, rfl, hgroups, ?_, Definition.divide_groupLeaders _,
    insertionSortBy_perm _, ?_, ?_⟩
  · rw [List.map_map]
    exact List.map_congr_left fun leader _ => (Definition.partition_recordGroup _ leader).symm
  · rw [List.map_map]
    refine Eq.trans ?_ (Definition.sum_length_groupOf (r := r) (d := d) _)
    simp [Definition.partitionOf, Function.comp_def]
  · rw [List.map_map]
    exact Definition.nodup_keyValues_groupLeaders _

/-- The report on sales has groups, for the sale in Rome and for the one in Oslo. -/
theorem Engine.divide_of_outcome_sales : ∃ report,
    (execute ⟨.sales, none⟩ .salesByCity (.ok Item.sales) Token.clear).outcome = .ok report ∧
      ∃ set, report.groups = some set ∧ (set.partitions.map (·.keyValues)).Nodup := by
  have h : ∃ report,
      (execute ⟨.sales, none⟩ .salesByCity (.ok Item.sales) Token.clear).outcome = .ok report :=
    ⟨_, rfl⟩
  obtain ⟨report, h⟩ := h
  obtain ⟨_, set, _, -, hset, -, -, -, -, hkeys⟩ := Engine.divide_of_outcome h rfl rfl rfl
  exact ⟨report, h, set, hset, hkeys⟩

end Reporting
