import Mathlib.Data.List.Dedup
import Mathlib.Data.List.Induction
import Mathlib.Data.List.Pairwise
import Reporting.Proofs.Query.Ranking

/-!
# Proofs/Query/Declaration — where the values of an enum field are declared

A value that is declared twice has two places among the declared ones: its rank is the first of them
(`Field.enumRank?`), and sort keys go by the last.  Keeping each value at its first place lists them by
rank (`pairwise_firstOccurrences`), keeping it at its last place lists them as they are sorted
(`pairwise_dedup`).  So a sort key ranks the declared values as the field does exactly if the two lists
are one (`SlotKey.followsRanks_iff`), which they are unless a value is declared twice.
-/

namespace Reporting

open Value (declaredRank)

/-! ## First and last places -/

section Places

variable {s t x : String} {xs : List String}

theorem firstOccurrences_concat (xs : List String) (x : String) :
    firstOccurrences (xs ++ [x]) =
      if x ∈ xs then firstOccurrences xs else firstOccurrences xs ++ [x] := by
  have hmem : (firstOccurrences xs).contains x ↔ x ∈ xs :=
    List.contains_iff_mem.trans mem_firstOccurrences
  rw [firstOccurrences, List.foldl_append]
  exact if_congr hmem rfl rfl

/-- **Kept at their first places, strings come in the order of these.** -/
theorem pairwise_firstOccurrences (xs : List String) :
    (firstOccurrences xs).Pairwise fun s t => xs.idxOf s < xs.idxOf t := by
  induction xs using List.reverseRecOn with
  | nil => exact .nil
  | append_singleton xs x ih =>
    have hkeep : ∀ s ∈ firstOccurrences xs, (xs ++ [x]).idxOf s = xs.idxOf s := fun s hs =>
      List.idxOf_append_of_mem (mem_firstOccurrences.1 hs)
    have hold : (firstOccurrences xs).Pairwise fun s t =>
        (xs ++ [x]).idxOf s < (xs ++ [x]).idxOf t :=
      ih.imp_of_mem fun {s t} hs ht h => by rwa [hkeep s hs, hkeep t ht]
    rw [firstOccurrences_concat]
    split
    · exact hold
    · rename_i hx
      refine List.pairwise_append.2 ⟨hold, List.pairwise_singleton _ x, fun s hs t ht => ?_⟩
      obtain rfl := List.mem_singleton.1 ht
      rw [hkeep s hs, List.idxOf_append_of_notMem hx]
      exact Nat.lt_add_right _ (List.idxOf_lt_length_iff.2 (mem_firstOccurrences.1 hs))

/-- Strings that are all different are all at their first places. -/
theorem firstOccurrences_eq_self (h : xs.Nodup) : firstOccurrences xs = xs := by
  induction xs using List.reverseRecOn with
  | nil => rfl
  | append_singleton xs x ih =>
    obtain ⟨hxs, -, hdisjoint⟩ := List.nodup_append.1 h
    have hx : x ∉ xs := fun hmem => hdisjoint x hmem x (List.mem_singleton.2 rfl) rfl
    rw [firstOccurrences_concat, if_neg hx, ih hxs]

theorem lastIndex?_cons_of_mem (h : s ∈ xs) :
    lastIndex? s (x :: xs) = (lastIndex? s xs).map (· + 1) := by
  rw [lastIndex?]
  cases hlast : lastIndex? s xs with
  | some i => rfl
  | none => exact absurd h (lastIndex?_eq_none_iff.1 hlast)

theorem exists_lastIndex? (h : s ∈ xs) : ∃ i, lastIndex? s xs = some i :=
  Option.ne_none_iff_exists'.1 fun hnone => lastIndex?_eq_none_iff.1 hnone h

theorem declaredRank_cons_of_mem (h : s ∈ xs) :
    declaredRank (x :: xs) s = declaredRank xs s + 1 := by
  obtain ⟨i, hi⟩ := exists_lastIndex? h
  rw [declaredRank, declaredRank, lastIndex?_cons_of_mem h, hi]
  rfl

theorem declaredRank_cons_self (h : x ∉ xs) : declaredRank (x :: xs) x = 0 := by
  rw [declaredRank, lastIndex?, lastIndex?_eq_none_iff.2 h]
  simp

/-- **Kept at their last places, strings come in the order of those.** -/
theorem pairwise_dedup (xs : List String) :
    xs.dedup.Pairwise fun s t => declaredRank xs s < declaredRank xs t := by
  induction xs with
  | nil => exact .nil
  | cons x xs ih =>
    have hold : xs.dedup.Pairwise fun s t =>
        declaredRank (x :: xs) s < declaredRank (x :: xs) t :=
      ih.imp_of_mem fun {s t} hs ht h => by
        rw [declaredRank_cons_of_mem (List.mem_dedup.1 hs),
          declaredRank_cons_of_mem (List.mem_dedup.1 ht)]
        exact Nat.succ_lt_succ h
    by_cases hx : x ∈ xs
    · rwa [List.dedup_cons_of_mem hx]
    · rw [List.dedup_cons_of_notMem hx]
      refine List.pairwise_cons.2 ⟨fun t ht => ?_, hold⟩
      rw [declaredRank_cons_self hx, declaredRank_cons_of_mem (List.mem_dedup.1 ht)]
      exact Nat.succ_pos _

/-- **First places and last places put strings in one order exactly if it is all the same whether they
are kept at these or at those.** -/
theorem compare_declaredRank_eq_iff : (∀ s ∈ xs, ∀ t ∈ xs,
      compare (declaredRank xs s) (declaredRank xs t) = compare (xs.idxOf s) (xs.idxOf t)) ↔
    firstOccurrences xs = xs.dedup := by
  have hfirst := pairwise_firstOccurrences xs
  have hlast := pairwise_dedup xs
  constructor
  · intro h
    have hperm : (firstOccurrences xs).Perm xs.dedup := by
      rw [List.perm_ext_iff_of_nodup (nodup_firstOccurrences xs) (List.nodup_dedup xs)]
      exact fun s => mem_firstOccurrences.trans List.mem_dedup.symm
    refine hperm.eq_of_pairwise (fun s t _ _ hst hts => absurd hst (Nat.lt_asymm hts)) hfirst ?_
    refine hlast.imp_of_mem fun {s t} hs ht hst => ?_
    rw [← Nat.compare_eq_lt, ← h s (List.mem_dedup.1 hs) t (List.mem_dedup.1 ht)]
    exact Nat.compare_eq_lt.2 hst
  · intro h
    -- In the one list there is, of any two strings the earlier has the smaller places of both kinds.
    rw [h] at hfirst
    have hsymm : Std.Symm fun s t =>
        compare (declaredRank xs s) (declaredRank xs t) = compare (xs.idxOf s) (xs.idxOf t) :=
      ⟨fun s t hst => by rw [← Nat.compare_swap, hst, Nat.compare_swap]⟩
    have hpair := List.Pairwise.forall_of_forall (l := xs.dedup) (fun s _ => by simp)
      ((hlast.and hfirst).imp fun ⟨hst, hst'⟩ =>
        (Nat.compare_eq_lt.2 hst).trans (Nat.compare_eq_lt.2 hst').symm)
    exact fun s hs t ht => hpair (List.mem_dedup.2 hs) (List.mem_dedup.2 ht)

end Places

/-- The rank of a value is its first place among the declared ones. -/
theorem Field.enumRank?_eq_some_iff {f : Field} {s : String} {i : Nat} :
    f.enumRank? s = some i ↔ s ∈ f.enumValues ∧ f.enumValues.idxOf s = i := by
  rw [enumRank?, List.findIdx?_eq_some_iff_findIdx_eq, ← List.idxOf_lt_length_iff]
  constructor
  · rintro ⟨hlt, rfl⟩
    exact ⟨hlt, rfl⟩
  · rintro ⟨hlt, rfl⟩
    exact ⟨hlt, rfl⟩

/-! ## Sort keys -/

namespace SlotKey

variable {r : Registry} {d : Definition} {slots : List Slot} {key : SlotKey} {id s t : String}

/-- The order of two values of an enum field by a sort key. -/
def compareEnums (key : SlotKey) (s t : String) : Ordering :=
  compareCells key.slot.field key.direction (some (.enum s)) (some (.enum t))

/-- Whether a sort key puts the declared values of its field in the order of their ranks. -/
def FollowsRanks (key : SlotKey) : Prop :=
  ∀ s t i j, key.slot.field.enumRank? s = some i → key.slot.field.enumRank? t = some j →
    key.compareEnums s t = compare i j

theorem compareEnums_asc (henum : key.slot.field.type = .enum) (hasc : key.direction = .asc) :
    key.compareEnums s t = compareDeclared key.slot.field.enumValues s t := by
  rw [compareEnums, hasc]
  exact compareValues_enum henum s t

/-- Declared values are compared by their last places. -/
theorem compareDeclared_of_mem {declared : List String} (hs : s ∈ declared) (ht : t ∈ declared) :
    compareDeclared declared s t = compare (declaredRank declared s) (declaredRank declared t) := by
  obtain ⟨i, hi⟩ := exists_lastIndex? hs
  obtain ⟨j, hj⟩ := exists_lastIndex? ht
  rw [compareDeclared, declaredRank, declaredRank, hi, hj]
  rfl

/-- **A sort key follows the ranks of the declared values exactly if their first places and their last
places put them in one order.** -/
theorem followsRanks_iff (henum : key.slot.field.type = .enum) (hasc : key.direction = .asc) :
    key.FollowsRanks ↔
      firstOccurrences key.slot.field.enumValues = key.slot.field.enumValues.dedup := by
  rw [← compare_declaredRank_eq_iff]
  constructor
  · intro h s hs t ht
    rw [← compareDeclared_of_mem hs ht, ← compareEnums_asc henum hasc]
    exact h s t _ _ (Field.enumRank?_eq_some_iff.2 ⟨hs, rfl⟩) (Field.enumRank?_eq_some_iff.2 ⟨ht, rfl⟩)
  · intro h s t i j hi hj
    obtain ⟨hs, rfl⟩ := Field.enumRank?_eq_some_iff.1 hi
    obtain ⟨ht, rfl⟩ := Field.enumRank?_eq_some_iff.1 hj
    rw [compareEnums_asc henum hasc, compareDeclared_of_mem hs ht, h s hs t ht]

/-- **Enum values are sorted as they are declared.**  Take an ascending sort key of a definition on an
enum field.  Declared values come before all others, which go by their bytes, and of two declared values
the one comes first whose last place is the earlier.  That is the order of their ranks, which are first
places, exactly if the values come out in one order whether each is kept at its first place or at its
last; it is if none is declared twice. -/
theorem ordersDeclared_of_asc (hslots : Plan.slotsOf r d = .ok slots)
    (hkey : ofSortKey slots ⟨id, .asc⟩ = .ok key) (henum : key.slot.field.type = .enum) :
    r.find? id = some key.slot.field ∧
      (∀ s t, s ∈ key.slot.field.enumValues → t ∉ key.slot.field.enumValues →
        key.compareEnums s t = .lt) ∧
      (∀ s t, s ∉ key.slot.field.enumValues → t ∉ key.slot.field.enumValues →
        (key.compareEnums s t = .lt ↔ Text.bytes s < Text.bytes t)) ∧
      (∀ s t i j, LastAt s key.slot.field.enumValues i → LastAt t key.slot.field.enumValues j →
        key.compareEnums s t = compare i j) ∧
      (key.FollowsRanks ↔
        firstOccurrences key.slot.field.enumValues = key.slot.field.enumValues.dedup) ∧
      (key.slot.field.enumValues.Nodup → key.FollowsRanks) := by
  have hlayout : Slot.Layout r slots := (Slot.layout_of_slotsOf hslots).1
  obtain ⟨hslot, hsame, -⟩ := (ofSortKey_eq_ok_iff hlayout).1 hkey
  have hid : key.slot.field.id = id := congrArg SortKey.fieldId hsame
  have hasc : key.direction = .asc := congrArg SortKey.direction hsame
  have hiff := followsRanks_iff henum hasc
  have hcompare : ∀ s t, key.compareEnums s t = compareDeclared key.slot.field.enumValues s t :=
    fun s t => compareEnums_asc henum hasc
  refine ⟨hid ▸ hlayout.found key.slot hslot, fun s t hs ht => ?_, fun s t hs ht => ?_,
    fun s t i j hs ht => ?_, hiff, fun hnodup => hiff.2 ?_⟩
  · rw [hcompare, compareDeclared_eq_lt_iff]
    exact .undeclared hs ht
  · rw [hcompare, compareDeclared, lastIndex?_eq_none_iff.2 hs, lastIndex?_eq_none_iff.2 ht]
    exact Text.compare_eq_lt_iff
  · rw [hcompare, compareDeclared, lastIndex?_eq_some_iff.2 hs, lastIndex?_eq_some_iff.2 ht]
  · rw [firstOccurrences_eq_self hnodup, List.dedup_eq_self.2 hnodup]

end SlotKey

/-! ### Shirts by size -/

/-- A field for the size of shirts, with some declared sizes. -/
def Field.size (sizes : List String) : Field :=
  { unrestricted "size" "Size" .enum "shirt" with enumValues := sizes }

/-- The sizes of shirts, in ascending order. -/
def Definition.bySize : Definition where
  fields := ["size"]
  filters := []
  sort := [⟨"size", .asc⟩]
  groupBy := []
  aggregations := []

namespace SlotKey

/-- Sizes that are declared once are sorted by rank. -/
theorem ordersDeclared_of_asc_size : ∃ r slots key,
    Registry.ofFields [.size ["small", "large"]] = .ok r ∧ Plan.slotsOf r .bySize = .ok slots ∧
      ofSortKey slots ⟨"size", .asc⟩ = .ok key ∧ key.slot.field.type = .enum ∧
      key.FollowsRanks ∧ key.compareEnums "large" "medium" = .lt := by
  obtain ⟨r, hr, slots, hslots, key, hkey, hfield⟩ : ∃ r,
      Registry.ofFields [.size ["small", "large"]] = .ok r ∧ ∃ slots,
        Plan.slotsOf r .bySize = .ok slots ∧ ∃ key, ofSortKey slots ⟨"size", .asc⟩ = .ok key ∧
          key.slot.field = .size ["small", "large"] :=
    ⟨_, rfl, _, rfl, _, rfl, rfl⟩
  have henum : key.slot.field.type = .enum := by rw [hfield]; rfl
  obtain ⟨-, hdeclared, -, -, -, hranks⟩ := ordersDeclared_of_asc hslots hkey henum
  rw [hfield] at hdeclared hranks
  exact ⟨r, slots, key, hr, hslots, hkey, henum, hranks (by decide),
    hdeclared "large" "medium" (by decide) (by decide)⟩

/-- A size that is declared again behind another one is sorted behind it, although its rank is the
smaller. -/
theorem not_followsRanks_of_repeated : ∃ r slots key,
    Registry.ofFields [.size ["small", "large", "small"]] = .ok r ∧
      Plan.slotsOf r .bySize = .ok slots ∧ ofSortKey slots ⟨"size", .asc⟩ = .ok key ∧
      key.slot.field.enumRank? "small" = some 0 ∧ key.slot.field.enumRank? "large" = some 1 ∧
      key.compareEnums "small" "large" = .gt ∧ ¬ key.FollowsRanks := by
  refine ⟨_, _, _, rfl, rfl, rfl, rfl, rfl, rfl, fun h => ?_⟩
  have hlt := h "small" "large" 0 1 rfl rfl
  cases hlt

end SlotKey

end Reporting
