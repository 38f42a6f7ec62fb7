import Mathlib.Data.List.TFAE
import Reporting.Proofs.Double.Nearest
import Reporting.Proofs.Query.Ranking
import Reporting.Proofs.Value.Cell

/-!
# Proofs/Query/Equality — values are equal in one way only

A report asks in many places whether two values of a field are equal: filters do, and so do comparisons,
groups, counts of distinct values and sort keys, and whoever reads the rows sees how they are written.
Each of these has a definition of its own, and each answers as `Value.same` does (`holds_equals_iff`,
`same_iff_compare?`, `KeyPart.of_some_eq_iff`, `groupsTogether_iff`, `countsOnce_iff`,
`compareCells_eq_iff`, `cell_eq_iff`), so they all agree (`equalities_agree`).
-/

namespace Reporting

variable {f : Field} {a b : Value}

/-! ## Sort keys -/

/-- Only a value itself has its place in a declaration. -/
theorem SlotKey.eq_of_compareDeclared_eq {declared : List String} {s t : String}
    (h : compareDeclared declared s t = .eq) : s = t := by
  rw [compareDeclared] at h
  split at h
  · rename_i i j hi hj
    obtain rfl : i = j := Std.LawfulEqOrd.eq_of_compare h
    have hs := (lastIndex?_eq_some_iff.1 hi).here
    rw [(lastIndex?_eq_some_iff.1 hj).here] at hs
    exact (Option.some.inj hs).symm
  · cases h
  · cases h
  · exact Std.LawfulEqOrd.eq_of_compare h

/-- Values of a field share their place among its values exactly if they are equal. -/
theorem SlotKey.compareValues_eq_iff (ha : a.Suits f.type) (hb : b.Suits f.type) :
    compareValues f a b = .eq ↔ a.same b := by
  by_cases htype : f.type = .enum
  · rw [htype] at ha hb
    obtain ⟨s, rfl⟩ := ha.exists_enum
    obtain ⟨t, rfl⟩ := hb.exists_enum
    rw [compareValues_enum htype, Value.same, beq_iff_eq]
    refine ⟨eq_of_compareDeclared_eq, ?_⟩
    rintro rfl
    rw [← compareValues_enum htype]
    exact (ordersOn_compareValues f).refl (htype ▸ ha)
  · obtain ⟨o, ho⟩ := Option.isSome_iff_exists.1 (Value.isSome_compare? ha hb)
    rw [compareValues_of_ne htype, Value.same_iff_compare?, ho, Option.getD_some, Option.some.injEq]

/-- **A sort key does not tell two values apart exactly if they are equal**, in either direction. -/
theorem SlotKey.compareCells_eq_iff (direction : Direction) (ha : a.Suits f.type)
    (hb : b.Suits f.type) : compareCells f direction (some a) (some b) = .eq ↔ a.same b := by
  rw [← compareValues_eq_iff ha hb]
  cases direction with
  | asc => rfl
  | desc => exact Ordering.swap_eq_eq

/-! ## Groups -/

/-- Whether rows that differ in nothing that is grouped by, but that a field is `a` in one of them and
`b` in the other, are always in one group. -/
def Field.GroupsTogether (f : Field) (a b : Value) : Prop :=
  ∀ slots order rows u v, u ∈ rows → v ∈ rows →
    (∀ slot ∈ slots, u.at slot = v.at slot ∨
      slot.field = f ∧ u.at slot = some a ∧ v.at slot = some b) →
    ∃ g ∈ groupRows slots order rows, u ∈ g.members ∧ v ∈ g.members

/-- **Rows are in one group exactly if they have one key.** -/
theorem RowGroup.exists_group_iff {slots : List Slot} {rows : List TypedRow} {u v : TypedRow}
    (hu : u ∈ rows) (hv : v ∈ rows) :
    (∃ g ∈ collect slots rows, u ∈ g.members ∧ v ∈ g.members) ↔
      partsOf slots u = partsOf slots v := by
  have hmem {leader row : TypedRow} : row ∈ (around slots rows leader).members ↔
      row ∈ rows ∧ partsOf slots leader = partsOf slots row := by
    rw [around, List.mem_filter, together_iff]
  rw [collect_eq]
  constructor
  · rintro ⟨g, hg, hug, hvg⟩
    obtain ⟨leader, -, rfl⟩ := List.mem_map.1 hg
    exact (hmem.1 hug).2.symm.trans (hmem.1 hvg).2
  · intro hparts
    obtain ⟨leader, hleader, hkey⟩ := exists_leader together_iff hu
    exact ⟨_, List.mem_map_of_mem hleader, hmem.2 ⟨hu, hkey⟩, hmem.2 ⟨hv, hkey.trans hparts⟩⟩

/-- **Groups hold rows with equal values together, and no others.** -/
theorem Field.groupsTogether_iff : f.GroupsTogether a b ↔ KeyPart.of (some a) = KeyPart.of (some b) := by
  constructor
  · intro htogether
    -- The two rows that are nothing but the two values.
    obtain ⟨g, hg, hmembers⟩ := htogether [⟨0, f⟩] [] [[some a], [some b]] [some a] [some b]
      (by simp) (by simp) fun slot hslot => by
        obtain rfl := List.mem_singleton.1 hslot
        exact .inr ⟨rfl, rfl, rfl⟩
    have hparts := (RowGroup.exists_group_iff (by simp) (by simp)).1
      ⟨g, (groupRows_perm _ _ _).mem_iff.1 hg, hmembers⟩
    exact (List.cons.inj hparts).1
  · intro hkey slots order rows u v hu hv hslots
    have hparts : RowGroup.partsOf slots u = RowGroup.partsOf slots v := by
      rw [RowGroup.partsOf, RowGroup.partsOf, RowGroup.keyOf, RowGroup.keyOf, List.map_map,
        List.map_map]
      refine List.map_congr_left fun slot hslot => ?_
      rcases hslots slot hslot with heq | ⟨-, ha, hb⟩
      · rw [Function.comp_apply, Function.comp_apply, heq]
      · rw [Function.comp_apply, Function.comp_apply, ha, hb, hkey]
    obtain ⟨g, hg, hmembers⟩ := (RowGroup.exists_group_iff hu hv).2 hparts
    exact ⟨g, (groupRows_perm _ _ _).mem_iff.2 hg, hmembers⟩

/-! ## Counts -/

/-- Whether a value adds nothing to the number of distinct values wherever another is among them. -/
def Value.CountsOnce (a b : Value) : Prop :=
  ∀ cells : List (Option Value), some b ∈ cells →
    Reduction.countDistinct.apply (some a :: cells) = Reduction.countDistinct.apply cells

theorem Reduction.apply_countDistinct_cons (v : Value) (cells : List (Option Value)) :
    countDistinct.apply (some v :: cells) = some (.number (Double.ofNat (firstOccurrences
      (KeyPart.of (some v) :: (cells.filterMap id).map fun w => KeyPart.of (some w))).length)) := rfl

/-- **Distinct values are counted by their keys.** -/
theorem Value.countsOnce_iff : a.CountsOnce b ↔ KeyPart.of (some a) = KeyPart.of (some b) := by
  constructor
  · intro hcount
    have hpair := hcount [some b] List.mem_cons_self
    by_contra hne
    have hnew : KeyPart.of (some a) ∉ [KeyPart.of (some b)] := mt List.mem_singleton.1 hne
    have htwo : (firstOccurrences [KeyPart.of (some a), KeyPart.of (some b)]).length = 2 := by
      rw [length_firstOccurrences_cons, if_neg hnew]
      rfl
    have hone : (firstOccurrences [KeyPart.of (some b)]).length = 1 := rfl
    rw [Reduction.apply_countDistinct_cons, Reduction.apply_countDistinct_cons, Option.some.injEq,
      Value.number.injEq] at hpair
    have heq : Double.ofNat 2 = Double.ofNat 1 := htwo ▸ hone ▸ hpair
    exact absurd (Double.ofNat_injective (by decide) (by decide) heq) (by decide)
  · intro hkey cells hmem
    have hthere : KeyPart.of (some a) ∈ (cells.filterMap id).map fun v => KeyPart.of (some v) := by
      rw [hkey]
      exact List.mem_map_of_mem (List.mem_filterMap.2 ⟨_, hmem, rfl⟩)
    rw [Reduction.apply_countDistinct_cons, length_firstOccurrences_cons, if_pos hthere, Nat.add_zero]
    rfl

/-! ## Agreement -/

namespace Value

/-- **Values are written alike exactly if they are equal.** -/
theorem cell_eq_iff {type : FieldType} (ha : a.Suits type) (hb : b.Suits type) :
    a.cell = b.cell ↔ a.same b := ⟨same_of_cell_eq ha hb, cell_eq_of_same⟩

/-- The test that a clause for equality becomes, whatever the type of its field. -/
theorem testOf_equals (hfilterable : f.filterable) (htype : b.type = f.type) :
    Condition.testOf f (.compare f.id .equals b) = .ok (.value (.equals b)) := by
  have hlegal : ¬ !Operator.equals.isLegal f.type := by cases f.type <;> decide
  have hsingle : Condition.single f (.compare f.id .equals b) = .ok b :=
    Condition.single_eq_ok_iff.2 ⟨rfl, htype⟩
  rw [Condition.testOf, if_neg (by simpa using hfilterable), Clause.compare, if_neg hlegal,
    Condition.operatorTest, ← Clause.compare, hsingle]
  rfl

/-- **Filters, comparisons, groups, counts, sort keys and rows agree on which values are equal.** -/
theorem equalities_agree (f : Field) {x y : Json} {a b : Value}
    (ha : ofCell f.type x = .ok (some a)) (hb : ofCell f.type y = .ok (some b)) :
    (f.filterable →
      Condition.testOf f (.compare f.id .equals b) = .ok (.value (.equals b))) ∧
    List.TFAE [
      (CellTest.value (.equals b)).holds (some a),
      a.compare? b = some .eq,
      KeyPart.of (some a) = KeyPart.of (some b),
      f.GroupsTogether a b,
      a.CountsOnce b,
      SlotKey.compareCells f .asc (some a) (some b) = .eq,
      SlotKey.compareCells f .desc (some a) (some b) = .eq,
      a.cell = b.cell] := by
  have ha := suits_of_ofCell? (ofCell_eq_some_iff.1 ha)
  have hb := suits_of_ofCell? (ofCell_eq_some_iff.1 hb)
  have hkey := KeyPart.of_some_eq_iff ha hb
  refine ⟨fun hfilterable => testOf_equals hfilterable hb.type_eq, ?_⟩
  refine List.tfae_of_forall (a.same b) _ ?_
  simp only [List.forall_mem_cons]
  exact ⟨.rfl, same_iff_compare?.symm, hkey, Field.groupsTogether_iff.trans hkey,
    countsOnce_iff.trans hkey, SlotKey.compareCells_eq_iff .asc ha hb,
    SlotKey.compareCells_eq_iff .desc ha hb, cell_eq_iff ha hb, List.forall_mem_nil _⟩

/-- Zero with a sign and zero without are one amount, though not one double. -/
theorem equalities_agree_sales : ∃ f a b, Registry.sales.find? "amount" = some f ∧
    ofCell f.type (.ofFloat (Double.ofMagnitude true 0)) = .ok (some a) ∧
    ofCell f.type (.ofInt 0) = .ok (some b) ∧ a ≠ b ∧
    Condition.testOf f (.compare f.id .equals b) = .ok (.value (.equals b)) ∧
    f.GroupsTogether a b ∧ a.CountsOnce b ∧ a.cell = b.cell := by
  have hmagnitude : Double.magnitude (Double.ofMagnitude true 0) = 0 := by
    rw [Double.magnitude_ofMagnitude]
    rfl
  have hfinite : Double.isFinite (Double.ofMagnitude true 0) := by
    rw [Double.isFinite, hmagnitude]
    rfl
  have hsame : Double.same (Double.ofMagnitude true 0) (Double.ofInt 0) :=
    Double.same_of_integer? (Double.integer?_of_magnitude_eq_zero hmagnitude)
      (Double.integer?_ofInt (by decide)) hfinite (Double.isFinite_ofInt (by decide))
  have hread : ofCell .number (.ofFloat (Double.ofMagnitude true 0)) =
      .ok (some (number (Double.ofMagnitude true 0))) := by
    rw [ofFloat_of_isFinite hfinite]
    rfl
  have hne : Double.ofMagnitude true 0 ≠ Double.ofInt 0 := by
    intro heq
    have hsign := congrArg Double.isNegative heq
    rw [Double.ofInt, Double.isNegative_ofMagnitude, Double.isNegative_ofMagnitude] at hsign
    cases hsign
  obtain ⟨htest, hagree⟩ := equalities_agree (.unrestricted "amount" "Amount" .number "sale")
    (x := .ofFloat (Double.ofMagnitude true 0)) (y := .ofInt 0) hread rfl
  exact ⟨_, _, _, rfl, hread, rfl, fun heq => hne (number.inj heq), htest rfl,
    (hagree.out 0 3).1 hsame, (hagree.out 0 4).1 hsame, (hagree.out 0 7).1 hsame⟩

end Value

end Reporting
