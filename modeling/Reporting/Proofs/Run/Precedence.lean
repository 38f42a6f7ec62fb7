import Reporting.Proofs.Order.Stability
import Reporting.Proofs.Query.Ranking
import Reporting.Proofs.Run.Partitions

/-!
# Proofs/Run/Precedence — which of two groups comes first

Groups are found in the order of their first records, and then sorted stably by the sort keys that name
fields grouped by.  So these keys decide between two groups, and where they do not the group that begins
earlier among the sorted records comes first (`RecordGroup.Precedes`).  The values that such keys look at
are those that a group has in common, so any of its records can speak for it (`compareBy_eq_of_alike`).

Where the keys that name fields grouped by are the first of all sort keys, the records are in the order
of these keys already, and so are the first of each group: sorting the groups changes nothing
(`groupRows_eq_of_groupKeysFirst`).
-/

namespace Reporting

variable {r : Registry} {d : Definition} {ids : List String}

/-! ## Values under ids -/

namespace SortKey

/-- Whether a cell comes before another under a sort key: it does under that key on a slot of its
field. -/
def Before (r : Registry) (key : SortKey) (a b : Option Value) : Prop :=
  ∃ slot : Slot, r.find? key.fieldId = some slot.field ∧ SlotKey.Before ⟨slot, key.direction⟩ a b

/-- Whether the values `v` of some ids come before the values `w`: they do under the first sort key that
names one of the ids and tells the two apart. -/
inductive ValuesBefore (r : Registry) (ids : List String) (v w : String → Option Value) :
    List SortKey → Prop
  | decided {key : SortKey} {keys : List SortKey} (hkey : key.fieldId ∈ ids)
    (h : key.Before r (v key.fieldId) (w key.fieldId)) : ValuesBefore r ids v w (key :: keys)
  | tied {key : SortKey} {keys : List SortKey} (hkey : key.fieldId ∈ ids)
    (hvw : ¬ key.Before r (v key.fieldId) (w key.fieldId))
    (hwv : ¬ key.Before r (w key.fieldId) (v key.fieldId)) (rest : ValuesBefore r ids v w keys) :
    ValuesBefore r ids v w (key :: keys)
  | passed {key : SortKey} {keys : List SortKey} (hkey : key.fieldId ∉ ids)
    (rest : ValuesBefore r ids v w keys) : ValuesBefore r ids v w (key :: keys)

/-- Only the values of the ids count. -/
theorem ValuesBefore.congr {v v' w w' : String → Option Value} {keys : List SortKey}
    (hv : ∀ id ∈ ids, v id = v' id) (hw : ∀ id ∈ ids, w id = w' id)
    (h : ValuesBefore r ids v w keys) : ValuesBefore r ids v' w' keys := by
  induction h with
  | decided hkey h => exact .decided hkey (hv _ hkey ▸ hw _ hkey ▸ h)
  | tied hkey hvw hwv _ ih =>
    exact .tied hkey (hv _ hkey ▸ hw _ hkey ▸ hvw) (hv _ hkey ▸ hw _ hkey ▸ hwv) ih
  | passed hkey _ ih => exact .passed hkey ih

/-- **Records are compared by a sort key as their cells come under it.** -/
theorem compare_eq_lt_iff (key : SortKey) (a b : Record) : key.compare r a b = .lt ↔
    key.Before r (r.valueIn key.fieldId a) (r.valueIn key.fieldId b) := by
  rw [SortKey.compare]
  cases hfind : r.find? key.fieldId with
  | none =>
    refine iff_of_false (fun h => by cases h) ?_
    rintro ⟨_, hslot, -⟩
    cases hfind.symm.trans hslot
  | some f =>
    rw [Registry.valueIn_of_find? hfind, Registry.valueIn_of_find? hfind]
    constructor
    · intro h
      refine ⟨⟨0, f⟩, hfind, ?_⟩
      exact (@SlotKey.compareCells_eq_lt_iff ⟨⟨0, f⟩, key.direction⟩ _ _ (f.suits_valueIn a)
        (f.suits_valueIn b)).1 h
    · rintro ⟨slot, hslot, h⟩
      obtain rfl := Option.some.inj (hfind.symm.trans hslot)
      exact (@SlotKey.compareCells_eq_lt_iff ⟨slot, key.direction⟩ _ _ (slot.field.suits_valueIn a)
        (slot.field.suits_valueIn b)).2 h

theorem compare_eq_eq_iff (key : SortKey) (a b : Record) : key.compare r a b = .eq ↔
    ¬ key.Before r (r.valueIn key.fieldId a) (r.valueIn key.fieldId b) ∧
      ¬ key.Before r (r.valueIn key.fieldId b) (r.valueIn key.fieldId a) := by
  rw [← compare_eq_lt_iff, ← compare_eq_lt_iff, (ordersOn_compare r key).swap (a := a) trivial trivial]
  cases key.compare r a b <;> simp

/-- **Records are compared as their values come** under the sort keys that name some ids. -/
theorem valuesBefore_iff {keys : List SortKey} (a b : Record) :
    ValuesBefore r ids (r.valueIn · a) (r.valueIn · b) keys ↔
      compareBy r (keys.filter fun key => key.fieldId ∈ ids) a b = .lt := by
  induction keys with
  | nil => exact iff_of_false nofun nofun
  | cons key rest ih =>
    by_cases hkey : key.fieldId ∈ ids
    · have hcons : compareBy r (key :: rest.filter fun key => key.fieldId ∈ ids) a b =
          (key.compare r a b).then (compareBy r (rest.filter fun key => key.fieldId ∈ ids) a b) := rfl
      rw [List.filter_cons_of_pos (by simpa using hkey), hcons, Ordering.then_eq_lt,
        compare_eq_lt_iff, compare_eq_eq_iff, ← ih]
      constructor
      · intro h
        cases h with
        | decided _ h => exact .inl h
        | tied _ hab hba h => exact .inr ⟨⟨hab, hba⟩, h⟩
        | passed hnot _ => exact absurd hkey hnot
      · rintro (h | ⟨⟨hab, hba⟩, h⟩)
        · exact .decided hkey h
        · exact .tied hkey hab hba h
    · rw [List.filter_cons_of_neg (by simpa using hkey), ← ih]
      refine ⟨fun h => ?_, .passed hkey⟩
      cases h with
      | decided hmem _ => exact absurd hmem hkey
      | tied hmem _ _ _ => exact absurd hmem hkey
      | passed _ h => exact h

/-! ## Records that are alike -/

theorem compare_eq_of_alike {key : SortKey} (hkey : key.fieldId ∈ ids) {a b : Record}
    (h : r.alike ids a b) : key.compare r a b = .eq := by
  rw [SortKey.compare]
  cases hfind : r.find? key.fieldId with
  | none => rfl
  | some f =>
    have hcells := List.all_eq_true.1 h key.fieldId hkey
    rw [Registry.valueIn_of_find? hfind, Registry.valueIn_of_find? hfind] at hcells
    exact SlotKey.compareCells_eq_of_alike key.direction (f.suits_valueIn a) (f.suits_valueIn b) hcells

/-- Sort keys that name ids do not tell apart records that are alike under these. -/
theorem compareBy_eq_eq_of_alike {keys : List SortKey} (hkeys : ∀ key ∈ keys, key.fieldId ∈ ids)
    {a b : Record} (h : r.alike ids a b) : compareBy r keys a b = .eq := by
  induction keys with
  | nil => rfl
  | cons key rest ih =>
    obtain ⟨hkey, hrest⟩ := List.forall_mem_cons.1 hkeys
    have hcons : compareBy r (key :: rest) a b =
        (key.compare r a b).then (compareBy r rest a b) := rfl
    rw [hcons, compare_eq_of_alike hkey h, ih hrest]
    rfl

/-- **Records that are alike can speak for each other.** -/
theorem compareBy_eq_of_alike {keys : List SortKey} (hkeys : ∀ key ∈ keys, key.fieldId ∈ ids)
    {a a' b b' : Record} (ha : r.alike ids a a') (hb : r.alike ids b b') :
    compareBy r keys a b = compareBy r keys a' b' :=
  (ordersOn_compareBy r keys).congr trivial trivial trivial trivial
    (compareBy_eq_eq_of_alike hkeys ha) (compareBy_eq_eq_of_alike hkeys hb)

end SortKey

/-! ## Groups -/

namespace RecordGroup

/-- The value of a group under one of the ids that its key is for. -/
def valueUnder (ids : List String) (g : RecordGroup) (id : String) : Option Value :=
  ((ids.zip g.key).lookup id).join

/-- Whether the key of a group comes before that of another, by the sort keys that name fields grouped
by. -/
def KeyBefore (r : Registry) (d : Definition) (g h : RecordGroup) : Prop :=
  SortKey.ValuesBefore r d.groupBy (g.valueUnder d.groupBy) (h.valueUnder d.groupBy) d.sort

/-- Where the first record of a group is. -/
def start (r : Registry) (ids : List String) (sorted : List Record) (g : RecordGroup) : Nat :=
  sorted.findIdx (r.hasKey ids g.key)

/-- Whether a group of sorted records comes before another: its key does, or neither key does and it
begins earlier. -/
def Precedes (r : Registry) (d : Definition) (sorted : List Record) (g h : RecordGroup) : Prop :=
  g.KeyBefore r d h ∨ (¬ g.KeyBefore r d h ∧ ¬ h.KeyBefore r d g) ∧
    g.start r d.groupBy sorted < h.start r d.groupBy sorted

/-- Whether groups of sorted records come in the order of their keys, and then of their first records. -/
structure Ranked (r : Registry) (d : Definition) (sorted : List Record) (groups : List RecordGroup) :
    Prop where
  lt_iff : ∀ {i j : Nat} {g h : RecordGroup}, groups[i]? = some g → groups[j]? = some h →
    (i < j ↔ g.Precedes r d sorted h)
  /-- A group starts where its first record is. -/
  start : ∀ g ∈ groups, sorted[g.start r d.groupBy sorted]? = g.members.head?
  /-- Any record of a group can speak for it. -/
  representative : ∀ g ∈ groups, ∀ h ∈ groups, ∀ a ∈ g.members, ∀ b ∈ h.members,
    (SortKey.ValuesBefore r d.groupBy (r.valueIn · a) (r.valueIn · b) d.sort ↔ g.KeyBefore r d h)

end RecordGroup

/-- The places of items that come in an asymmetric order are in that order. -/
theorem lt_iff_of_pairwise {α : Type} {before : α → α → Prop} {xs : List α} (h : xs.Pairwise before)
    (hasymm : ∀ x ∈ xs, ∀ y ∈ xs, before x y → ¬ before y x) {i j : Nat} {x y : α}
    (hi : xs[i]? = some x) (hj : xs[j]? = some y) : i < j ↔ before x y := by
  have hx := List.mem_of_getElem? hi
  have hy := List.mem_of_getElem? hj
  obtain ⟨hilt, rfl⟩ := List.getElem?_eq_some_iff.1 hi
  obtain ⟨hjlt, rfl⟩ := List.getElem?_eq_some_iff.1 hj
  refine ⟨List.pairwise_iff_getElem.1 h i j hilt hjlt, fun hbefore => ?_⟩
  rcases Nat.lt_trichotomy i j with hlt | rfl | hlt
  · exact hlt
  · exact absurd hbefore (hasymm _ hx _ hx hbefore)
  · exact absurd (List.pairwise_iff_getElem.1 h j i hjlt hilt hlt) (hasymm _ hx _ hy hbefore)

namespace Definition

variable {sorted : List Record}

theorem valueUnder_recordGroup (leader : Record) {id : String} (hid : id ∈ d.groupBy) :
    (d.recordGroup r sorted leader).valueUnder d.groupBy id = r.valueIn id leader := by
  have hlookup : ∀ ids : List String, id ∈ ids →
      (ids.map fun id => (id, r.valueIn id leader)).lookup id = some (r.valueIn id leader) := by
    intro ids hid
    induction ids with
    | nil => cases hid
    | cons other rest ih =>
      rw [List.map_cons, List.lookup_cons]
      by_cases heq : id = other
      · rw [beq_iff_eq.2 heq, heq]
      · rw [beq_false_of_ne heq]
        exact ih ((List.mem_cons.1 hid).resolve_left heq)
  rw [RecordGroup.valueUnder, recordGroup, ← List.map_prod_left_eq_zip, hlookup _ hid]
  rfl

/-- **The keys of groups come as the records that lead the groups are compared.** -/
theorem keyBefore_recordGroup_iff (a b : Record) :
    (d.recordGroup r sorted a).KeyBefore r d (d.recordGroup r sorted b) ↔
      SortKey.compareBy r d.groupSort a b = .lt := by
  have hvalues : ∀ leader, ∀ id ∈ d.groupBy,
      (d.recordGroup r sorted leader).valueUnder d.groupBy id = r.valueIn id leader :=
    fun leader _ => valueUnder_recordGroup leader
  rw [groupSort, ← SortKey.valuesBefore_iff]
  exact ⟨.congr (hvalues a) (hvalues b),
    .congr (fun id hid => (hvalues a id hid).symm) fun id hid => (hvalues b id hid).symm⟩

theorem start_recordGroup (leader : Record) :
    (d.recordGroup r sorted leader).start r d.groupBy sorted =
      sorted.findIdx (r.alike d.groupBy leader) :=
  congrArg (sorted.findIdx ·) (funext fun record => Registry.hasKey_map d.groupBy leader record)

theorem precedes_recordGroup_iff (a b : Record) :
    (d.recordGroup r sorted a).Precedes r d sorted (d.recordGroup r sorted b) ↔
      SortKey.compareBy r d.groupSort a b = .lt ∨ SortKey.compareBy r d.groupSort a b = .eq ∧
        sorted.findIdx (r.alike d.groupBy a) < sorted.findIdx (r.alike d.groupBy b) := by
  rw [RecordGroup.Precedes, keyBefore_recordGroup_iff, keyBefore_recordGroup_iff, start_recordGroup,
    start_recordGroup, (SortKey.ordersOn_compareBy r d.groupSort).swap (a := a) trivial trivial]
  cases SortKey.compareBy r d.groupSort a b <;> simp

/-- **Leaders come by the sort keys for groups, and then by where their groups begin.** -/
theorem pairwise_precedes_groupLeaders (sorted : List Record) :
    (d.groupLeaders r sorted).Pairwise fun a b =>
      (d.recordGroup r sorted a).Precedes r d sorted (d.recordGroup r sorted b) := by
  have horders := SortKey.ordersOn_compareBy r d.groupSort
  have hstable : StablySorted (SortKey.compareBy r d.groupSort) (leaders (r.alike d.groupBy) sorted)
      (d.groupLeaders r sorted) := horders.stablySorted_insertionSortBy fun _ _ => trivial
  refine (hstable.pairwise (fun _ _ => horders.refl trivial)
    (pairwise_findIdx_leaders (Registry.alike_iff d.groupBy) sorted)).imp fun {a b} hab => ?_
  exact (precedes_recordGroup_iff a b).2 hab

theorem precedes_asymm (a b : Record)
    (h : (d.recordGroup r sorted a).Precedes r d sorted (d.recordGroup r sorted b)) :
    ¬ (d.recordGroup r sorted b).Precedes r d sorted (d.recordGroup r sorted a) := by
  rw [precedes_recordGroup_iff] at h ⊢
  rw [(SortKey.ordersOn_compareBy r d.groupSort).swap (a := a) trivial trivial]
  rcases h with h | ⟨h, hlt⟩
  · simp [h]
  · simp only [h, Ordering.swap_eq, reduceCtorEq, false_or, true_and]
    exact Nat.lt_asymm hlt

/-- **The groups of the leaders are ranked.** -/
theorem ranked_groupLeaders (sorted : List Record) :
    RecordGroup.Ranked r d sorted ((d.groupLeaders r sorted).map (d.recordGroup r sorted)) where
  lt_iff := by
    refine lt_iff_of_pairwise (List.pairwise_map.2 (pairwise_precedes_groupLeaders sorted)) ?_
    refine List.forall_mem_map.2 fun a _ => List.forall_mem_map.2 fun b _ => precedes_asymm a b
  start := by
    refine List.forall_mem_map.2 fun leader _ => ?_
    rw [start_recordGroup, recordGroup, groupOf, List.head?_filter, List.find?_eq_getElem?_findIdx]
  representative := by
    refine List.forall_mem_map.2 fun a _ => List.forall_mem_map.2 fun b _ => fun a' ha' b' hb' => ?_
    rw [keyBefore_recordGroup_iff, SortKey.valuesBefore_iff, groupSort,
      SortKey.compareBy_eq_of_alike (fun key hkey => by simpa using (List.mem_filter.1 hkey).2)
        (List.mem_filter.1 ha').2 (List.mem_filter.1 hb').2]

end Definition

/-! ## Runs -/

/-- **The groups of a run are ranked.**  Whatever report comes of a run with groups, its partitions are
a window on groups that divide the records that passed the filters, and of two groups the one comes
first that the sort keys for fields grouped by put first or, where they do not tell the two apart, that
begins earlier among the sorted records. -/
theorem Engine.ranked_of_outcome {e : Engine} {source : Except SourceError (List Item)} {token : Token}
    {report : Report} (h : (e.execute d source token).outcome = .ok report) (hgrouped : d.isGrouped) :
    ∃ items set groups, source = .ok items ∧ report.groups = some set ∧
      set.totalPartitions = groups.length ∧
      set.partitions = window d.offset d.limit (groups.map (RecordGroup.partition d e.registry)) ∧
      RecordGroup.Divide e.registry d.groupBy (d.selection e.registry items) groups ∧
      RecordGroup.Ranked e.registry d (d.selection e.registry items) groups := by
  obtain ⟨items, rfl, rfl⟩ := Engine.eq_meaning_of_outcome h
  obtain ⟨r, bound⟩ := e
  have hgroups : (d.meaning r items).groups = some _ := if_pos hgrouped
  refine ⟨items, _, _, rfl, hgroups, (List.length_map _).symm, ?_,
    Definition.divide_groupLeaders _, Definition.ranked_groupLeaders _⟩
  rw [Definition.map_partition_recordGroup, window_map]

/-- The report on sales has ranked groups, for the sale in Rome and for the one in Oslo. -/
theorem Engine.ranked_of_outcome_sales : ∃ report,
    (execute ⟨.sales, none⟩ .salesByCity (.ok Item.sales) Token.clear).outcome = .ok report ∧
      ∃ set groups, report.groups = some set ∧ set.totalPartitions = groups.length ∧
        RecordGroup.Ranked .sales .salesByCity
          (Definition.salesByCity.selection .sales Item.sales) groups := by
  have h : ∃ report,
      (execute ⟨.sales, none⟩ .salesByCity (.ok Item.sales) Token.clear).outcome = .ok report :=
    ⟨_, rfl⟩
  obtain ⟨report, h⟩ := h
  obtain ⟨_, set, groups, hitems, hset, htotal, -, -, hranked⟩ := Engine.ranked_of_outcome h rfl
  cases hitems
  exact ⟨report, h, set, groups, hset, htotal, hranked⟩

/-! ## Groups that need no sorting -/

/-- Whether the sort keys that name fields grouped by are the first of all. -/
def Definition.GroupKeysFirst (d : Definition) : Prop :=
  d.sort.Pairwise fun key later => later.fieldId ∈ d.groupBy → key.fieldId ∈ d.groupBy

instance (d : Definition) : Decidable d.GroupKeysFirst :=
  inferInstanceAs (Decidable (d.sort.Pairwise fun key later =>
    later.fieldId ∈ d.groupBy → key.fieldId ∈ d.groupBy))

/-- What comes after by the first of the sort keys comes after by all of them. -/
theorem SortKey.compareBy_eq_gt_of_filter {keys : List SortKey}
    (hfirst : keys.Pairwise fun key later => later.fieldId ∈ ids → key.fieldId ∈ ids) {a b : Record}
    (h : compareBy r (keys.filter fun key => key.fieldId ∈ ids) a b = .gt) :
    compareBy r keys a b = .gt := by
  induction keys with
  | nil => exact h
  | cons key rest ih =>
    obtain ⟨hkey, hrest⟩ := List.pairwise_cons.1 hfirst
    by_cases hmem : key.fieldId ∈ ids
    · rw [List.filter_cons_of_pos (by simpa using hmem)] at h
      rcases Ordering.then_eq_gt.1 h with h | ⟨heq, h⟩
      · exact Ordering.then_eq_gt.2 (.inl h)
      · exact Ordering.then_eq_gt.2 (.inr ⟨heq, ih hrest h⟩)
    · -- No later key names one of the ids either, so nothing comes after anything by such keys.
      have hnone : (key :: rest).filter (fun key => key.fieldId ∈ ids) = [] := by
        refine List.filter_eq_nil_iff.2 (List.forall_mem_cons.2 ⟨by simpa using hmem, ?_⟩)
        exact fun later hlater => by simpa using mt (hkey later hlater) hmem
      rw [hnone] at h
      cases h

/-- **Where the sort keys that name fields grouped by are the first of all, the leaders of sorted
records are in order.** -/
theorem Definition.groupLeaders_eq_leaders (hfirst : d.GroupKeysFirst) (records : List Record) :
    d.groupLeaders r (insertionSortBy (SortKey.compareBy r d.sort) records) =
      leaders (r.alike d.groupBy) (insertionSortBy (SortKey.compareBy r d.sort) records) := by
  have hsorted : InOrder (SortKey.compareBy r d.sort)
      (insertionSortBy (SortKey.compareBy r d.sort) records) :=
    (SortKey.ordersOn_compareBy r d.sort).inOrder_insertionSortBy fun _ _ => trivial
  have hleaders : InOrder (SortKey.compareBy r d.groupSort)
      (leaders (r.alike d.groupBy) (insertionSortBy (SortKey.compareBy r d.sort) records)) :=
    (hsorted.sublist (leaders_sublist _)).imp fun hle hgt =>
      hle (SortKey.compareBy_eq_gt_of_filter hfirst hgt)
  exact hleaders.insertionSortBy_eq

namespace Plan

variable {p : Plan}

/-- The groups of rows that were read and sorted need no sorting where the sort keys that name fields
grouped by are the first of all. -/
theorem Resolution.groupsOf_sortRows (h : Resolution r d p) (hfirst : d.GroupKeysFirst)
    (records : List Record) : p.groupsOf (sortRows p.sort (records.map p.read)) =
      RowGroup.collect p.groupBy (sortRows p.sort (records.map p.read)) := by
  rw [h.sortRows_read, h.groupsOf_read, h.collect_read, Definition.groupLeaders_eq_leaders hfirst]

/-- What a run holds are rows that were read. -/
theorem Resolution.exists_rows_of_acceptAll (h : Resolution r d p) {bound : Option Nat}
    {items : List Item} {s : Intake} {pulled : Nat}
    (htaken : Intake.acceptAll p bound {} items = (.ok s, pulled)) :
    ∃ records : List Record, s.rows = records.map p.read := by
  have hall := Intake.acceptAll_none_of_ok htaken
  rw [h.acceptAll_none, Prod.mk.injEq, Except.ok.injEq] at hall
  refine ⟨(Item.records items).filter (d.keeps r), ?_⟩
  rw [← hall.1]
  simp [after, Intake.rows]

/-- **Sorting groups changes nothing where the sort keys that name fields grouped by are the first of
all**: whatever a run has taken in, the groups of its sorted rows are the same without the sort keys for
groups. -/
theorem groupRows_eq_of_groupKeysFirst (hplan : ofDefinition r d = .ok p)
    (hfirst : d.GroupKeysFirst) {bound : Option Nat} {items : List Item} {s : Intake} {pulled : Nat}
    (htaken : Intake.acceptAll p bound {} items = (.ok s, pulled)) :
    groupRows p.groupBy p.groupOrder (sortRows p.sort s.rows) =
      groupRows p.groupBy [] (sortRows p.sort s.rows) := by
  have h := resolution_of_ofDefinition hplan
  obtain ⟨records, hrows⟩ := h.exists_rows_of_acceptAll htaken
  rw [hrows]
  exact h.groupsOf_sortRows hfirst records

/-- The sales are sorted by their city, which they are grouped by. -/
theorem groupRows_eq_of_groupKeysFirst_sales : Definition.salesByCity.GroupKeysFirst ∧
    ∃ p s pulled, ofDefinition .sales .salesByCity = .ok p ∧
      Intake.acceptAll p none {} Item.sales = (.ok s, pulled) ∧
      groupRows p.groupBy p.groupOrder (sortRows p.sort s.rows) =
        groupRows p.groupBy [] (sortRows p.sort s.rows) := by
  have hfirst : Definition.salesByCity.GroupKeysFirst := by decide
  have hruns : ∃ p s pulled, ofDefinition .sales .salesByCity = .ok p ∧
      Intake.acceptAll p none {} Item.sales = (.ok s, pulled) := ⟨_, _, _, rfl, rfl⟩
  obtain ⟨p, s, pulled, hplan, htaken⟩ := hruns
  exact ⟨hfirst, p, s, pulled, hplan, htaken, groupRows_eq_of_groupKeysFirst hplan hfirst htaken⟩

end Plan

end Reporting
