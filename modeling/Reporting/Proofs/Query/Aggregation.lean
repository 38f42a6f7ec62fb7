import Reporting.Proofs.Query.Equality
import Reporting.Proofs.Query.Validation
import Reporting.Proofs.Value.Extremes

/-!
# Proofs/Query/Aggregation — aggregations are what they are called

An aggregation is worked out from the cells of rows; here it is measured against the records that the
rows were read from (`Plan.aggregates_of_ofDefinition`).  Counts are numbers of things as long as doubles
tell these apart.  Distinct values are counted by their keys, but how many there are is a question about
the values alone: the values of which some stand for all have one number (`Value.StandFor.length_eq`), and
the first rows of groups by the one slot are such (`RowGroup.standFor_keys`).  The least and the greatest
value are those of some record and have all others on one side (`Value.Favours.isExtreme`).
-/

namespace Reporting

-- Powers are those of natural numbers, whatever else has powers.
attribute [local instance (high)] instPowNat

/-! ## Numbers of things -/

/-- Whether a result is a number of things, also once it is written. -/
def Value.IsNumber (n : Nat) (result : Option Value) : Prop :=
  ∃ x, result = some (.number x) ∧ Double.integer? x = some (n : Int) ∧ numberCell x = .ofNat n

theorem Value.isNumber_ofNat {n : Nat} (h : n ≤ 2 ^ (53 : Nat)) :
    IsNumber n (some (.number (Double.ofNat n))) := by
  have hinteger := Double.integer?_ofNat h
  refine ⟨_, rfl, hinteger, ?_⟩
  rw [numberCell, hinteger]
  exact if_pos h

/-! ## Distinct values -/

/-- Whether some values stand for all of several ones: they are among them, no two of them are equal, and
every value is equal to one of them. -/
structure Value.StandFor (chosen vs : List Value) : Prop where
  among : chosen ⊆ vs
  distinct : chosen.Pairwise fun a b => ¬ a.same b
  all : ∀ v ∈ vs, ∃ w ∈ chosen, v.same w

/-- Whether there are so many distinct values: some stand for all, and whichever do, it is so many. -/
def Value.AreDistinct (n : Nat) (vs : List Value) : Prop :=
  (∃ chosen, StandFor chosen vs) ∧ ∀ chosen, StandFor chosen vs → chosen.length = n

/-- **Whichever values stand for all, they are as many as there are keys.** -/
theorem Value.StandFor.length_eq {type : FieldType} {chosen vs : List Value} (h : StandFor chosen vs)
    (hvs : ∀ v ∈ vs, v.Suits type) :
    chosen.length = (firstOccurrences (vs.map fun v => KeyPart.of (some v))).length := by
  have hkey : ∀ a ∈ vs, ∀ b ∈ vs, KeyPart.of (some a) = KeyPart.of (some b) ↔ a.same b :=
    fun a ha b hb => KeyPart.of_some_eq_iff (hvs a ha) (hvs b hb)
  have hnodup : (chosen.map fun v => KeyPart.of (some v)).Nodup :=
    List.pairwise_map.2 (h.distinct.imp_of_mem fun ha hb hne heq =>
      hne ((hkey _ (h.among ha) _ (h.among hb)).1 heq))
  rw [length_firstOccurrences_eq hnodup, List.length_map]
  intro part
  constructor
  · intro hpart
    obtain ⟨v, hv, rfl⟩ := List.mem_map.1 hpart
    exact List.mem_map_of_mem (h.among hv)
  · intro hpart
    obtain ⟨v, hv, rfl⟩ := List.mem_map.1 hpart
    obtain ⟨w, hw, hsame⟩ := h.all v hv
    rw [(hkey v hv w (h.among hw)).2 hsame]
    exact List.mem_map_of_mem hw

/-- The value in the key of a group by one slot. -/
def RowGroup.keyValue (g : RowGroup) : Option Value := g.key.head?.join

/-- **The values that groups by one slot have in their keys stand for all values of the slot.** -/
theorem RowGroup.standFor_keys {slot : Slot} {rows : List TypedRow}
    (hsuits : ∀ row ∈ rows, Cell.Suits slot.field.type (row.at slot)) :
    Value.StandFor ((collect [slot] rows).filterMap keyValue) (rows.filterMap (·.at slot)) := by
  have hkeys : (collect [slot] rows).filterMap keyValue =
      (leaders (together [slot]) rows).filterMap (·.at slot) := by
    rw [collect_eq, List.filterMap_map]
    rfl
  have hparts {a b : TypedRow} (ha : a ∈ rows) (hb : b ∈ rows) :
      partsOf [slot] a = partsOf [slot] b ↔ cellsAlike (a.at slot) (b.at slot) := by
    rw [← keyPart_eq_iff_alike (hsuits a ha) (hsuits b hb)]
    exact List.singleton_inj
  rw [hkeys]
  refine ⟨fun v hv => ?_, ?_, fun v hv => ?_⟩
  · obtain ⟨leader, hleader, hv⟩ := List.mem_filterMap.1 hv
    exact List.mem_filterMap.2 ⟨leader, mem_of_mem_leaders hleader, hv⟩
  · refine List.pairwise_filterMap.2 ((pairwise_leaders rows).imp_of_mem ?_)
    intro a b ha hb hapart v hv w hw hsame
    have halike : cellsAlike (a.at slot) (b.at slot) := by
      rw [hv, hw]
      exact hsame
    have htogether := (together_iff a b).2
      ((hparts (mem_of_mem_leaders ha) (mem_of_mem_leaders hb)).2 halike)
    rw [hapart] at htogether
    cases htogether
  · obtain ⟨row, hrow, hv⟩ := List.mem_filterMap.1 hv
    obtain ⟨leader, hleader, hkey⟩ := exists_leader together_iff hrow
    have halike := (hparts hrow (mem_of_mem_leaders hleader)).1 hkey.symm
    rw [hv] at halike
    cases hcell : leader.at slot with
    | none =>
      rw [hcell] at halike
      cases halike
    | some w =>
      rw [hcell] at halike
      exact ⟨w, List.mem_filterMap.2 ⟨leader, hleader, hcell⟩, halike⟩

/-- **There are as many distinct values of a slot as there are keys, and as many groups with a value in
their key.** -/
theorem RowGroup.areDistinct {slot : Slot} {rows : List TypedRow}
    (hsuits : ∀ row ∈ rows, Cell.Suits slot.field.type (row.at slot)) {n : Nat}
    (hn : (firstOccurrences ((rows.filterMap (·.at slot)).map fun v => KeyPart.of (some v))).length = n) :
    Value.AreDistinct n (rows.filterMap (·.at slot)) ∧
      ∀ order, (groupRows [slot] order rows).countP (fun g => g.keyValue.isSome) = n := by
  have hvalues : ∀ v ∈ rows.filterMap (·.at slot), v.Suits slot.field.type := by
    intro v hv
    obtain ⟨row, hrow, hv⟩ := List.mem_filterMap.1 hv
    exact hsuits row hrow v hv
  have hstand := standFor_keys hsuits
  refine ⟨⟨⟨_, hstand⟩, fun chosen hchosen => (hchosen.length_eq hvalues).trans hn⟩, fun order => ?_⟩
  rw [(groupRows_perm _ _ _).countP_eq, ← hn, ← hstand.length_eq hvalues,
    List.length_filterMap_eq_countP]

/-! ## Extremes -/

/-- Whether a result is the value of a field that is on one side of all others in some records. -/
structure Field.IsExtreme (f : Field) (side : Ordering → Bool) (records : List Record)
    (result : Option Value) : Prop where
  none_iff : result = none ↔ ∀ record ∈ records, f.valueIn record = none
  attained : ∀ best ∈ result, best.type = f.type ∧ ∃ record ∈ records, f.valueIn record = some best
  bounds : ∀ best ∈ result, ∀ record ∈ records, ∀ v ∈ f.valueIn record, (best.compare? v).any side

/-- **What a choice keeps of the values of a field is their extreme**, if what it keeps of two values is
on the one side of both. -/
theorem Value.Favours.isExtreme {f : Field} {choose : Value → Value → Value}
    {bounds : Value → Value → Prop} (hchoose : Favours f.type choose bounds) {side : Ordering → Bool}
    (hside : ∀ a b : Value, a.Suits f.type → b.Suits f.type → bounds a b → (a.compare? b).any side)
    (records : List Record) :
    f.IsExtreme side records (keptOf choose (records.filterMap f.valueIn)) := by
  have hsuits : ∀ v ∈ records.filterMap f.valueIn, v.Suits f.type := by
    intro v hv
    obtain ⟨record, -, hv⟩ := List.mem_filterMap.1 hv
    exact f.suits_valueIn record v hv
  refine ⟨?_, fun best hbest => ?_, fun best hbest record hrecord v hv => ?_⟩
  · rw [keptOf_eq_none_iff, List.filterMap_eq_nil_iff]
  · have hmem := mem_of_mem_keptOf hchoose.chooses hbest
    exact ⟨(hsuits best hmem).type_eq, List.mem_filterMap.1 hmem⟩
  · have hmem : v ∈ records.filterMap f.valueIn := List.mem_filterMap.2 ⟨record, hrecord, hv⟩
    exact hside best v (hsuits best (mem_of_mem_keptOf hchoose.chooses hbest)) (hsuits v hmem)
      (bounds_of_mem_keptOf hchoose.chooses hchoose.bounded hchoose.trans hsuits hbest v hmem)

theorem Value.any_isLE_of_notAfter {type : FieldType} {a b : Value} (ha : a.Suits type)
    (hb : b.Suits type) (h : a.NotAfter b) : (a.compare? b).any Ordering.isLE := by
  obtain ⟨o, ho⟩ := Option.isSome_iff_exists.1 (isSome_compare? ha hb)
  rw [NotAfter, ho] at h
  rw [ho]
  cases o with
  | gt => exact absurd rfl h
  | _ => rfl

theorem Value.any_isGE_of_notAfter {type : FieldType} {a b : Value} (ha : a.Suits type)
    (hb : b.Suits type) (h : b.NotAfter a) : (a.compare? b).any Ordering.isGE := by
  obtain ⟨o, ho⟩ := Option.isSome_iff_exists.1 (isSome_compare? hb ha)
  rw [NotAfter, ho] at h
  rw [hb.compare?_swap ha ho]
  cases o with
  | gt => exact absurd rfl h
  | _ => rfl

/-! ## Aggregations -/

/-- What an aggregation promises of the value that it makes of some rows, in terms of the records that
they were read from. -/
structure SlotReduction.Keeps (a : SlotReduction) (records : List Record) (rows : List TypedRow) :
    Prop where
  count : a.function = .count → Value.IsNumber records.length (a.value rows)
  countDistinct : a.function = .countDistinct → ∃ n, Value.IsNumber n (a.value rows) ∧
    Value.AreDistinct n (records.filterMap a.slot.field.valueIn) ∧
      ∀ order, (groupRows [a.slot] order rows).countP (fun g => g.keyValue.isSome) = n
  min : a.function = .min → a.slot.field.IsExtreme Ordering.isLE records (a.value rows)
  max : a.function = .max → a.slot.field.IsExtreme Ordering.isGE records (a.value rows)

namespace Plan

variable {r : Registry} {d : Definition} {p : Plan} {a : SlotReduction}

/-- What an aggregation makes of rows, in terms of the records that they were read from. -/
theorem Resolution.filterMap_at (h : Resolution r d p) {slot : Slot} (hslot : slot ∈ p.slots)
    (records : List Record) :
    (records.map p.read).filterMap (·.at slot) = records.filterMap slot.field.valueIn := by
  rw [List.filterMap_map]
  exact congrArg (List.filterMap · records) (funext (h.layout.at_readRow hslot))

/-- **Aggregations of fewer rows than `2 ^ 53` are what they are called.** -/
theorem aggregates_of_ofDefinition (h : ofDefinition r d = .ok p) (ha : a ∈ p.reductions)
    {records : List Record} (hfew : records.length < 2 ^ (53 : Nat)) :
    a.Keeps records (records.map p.read) := by
  have hresolution := resolution_of_ofDefinition h
  have hslot : a.slot ∈ p.slots := (hresolution.reductions_mem a ha).1
  have hpresent := hresolution.filterMap_at hslot records
  have hcells : ((records.map p.read).map fun row => row.at a.slot).filterMap id =
      records.filterMap a.slot.field.valueIn := by
    rw [List.filterMap_map, ← hpresent]
    rfl
  refine ⟨fun hcount => ?_, fun hdistinct => ?_, fun hmin => ?_, fun hmax => ?_⟩
  · rw [SlotReduction.value, hcount, Reduction.apply, List.length_map, List.length_map]
    exact Value.isNumber_ofNat (Nat.le_of_lt hfew)
  · have hsuits : ∀ row ∈ records.map p.read, Cell.Suits a.slot.field.type (row.at a.slot) := by
      intro row hrow
      obtain ⟨record, -, rfl⟩ := List.mem_map.1 hrow
      exact hresolution.suits_read record a.slot hslot
    have hkeys := RowGroup.areDistinct hsuits rfl
    rw [hpresent] at hkeys
    refine ⟨_, ?_, hkeys⟩
    rw [SlotReduction.value, hdistinct, Reduction.apply, hcells]
    refine Value.isNumber_ofNat (Nat.le_trans (length_firstOccurrences_le _) ?_)
    rw [List.length_map]
    exact Nat.le_trans (List.length_filterMap_le _ _) (Nat.le_of_lt hfew)
  · rw [SlotReduction.value, hmin, Reduction.apply, hcells, least?_eq_keptOf]
    exact (Value.favours_lower _).isExtreme (fun _ _ => Value.any_isLE_of_notAfter) records
  · rw [SlotReduction.value, hmax, Reduction.apply, hcells, greatest?_eq_keptOf]
    exact (Value.favours_upper _).isExtreme (fun _ _ => Value.any_isGE_of_notAfter) records

end Plan

/-- How many amounts there are in each city, and the largest of them. -/
def Definition.amountsByCity : Definition :=
  { Definition.salesByCity with
    aggregations := [⟨"amount", .count, "sales"⟩, ⟨"amount", .countDistinct, "amounts"⟩,
      ⟨"amount", .max, "largest"⟩] }

/-- Two sales, one of a known amount, which is the largest and the only distinct one. -/
theorem Plan.aggregates_of_ofDefinition_sales : ∃ p sales amounts largest,
    ofDefinition .sales .amountsByCity = .ok p ∧ p.reductions = [sales, amounts, largest] ∧
    (Item.records Item.sales).length < 2 ^ (53 : Nat) ∧
    Value.IsNumber 2 (sales.value ((Item.records Item.sales).map p.read)) ∧
    (∃ n, Value.IsNumber n (amounts.value ((Item.records Item.sales).map p.read)) ∧
      Value.AreDistinct n ((Item.records Item.sales).filterMap amounts.slot.field.valueIn)) ∧
    largest.slot.field.IsExtreme Ordering.isGE (Item.records Item.sales)
      (largest.value ((Item.records Item.sales).map p.read)) := by
  obtain ⟨p, sales, amounts, largest, hplan, hreductions, hsales, hamounts, hlargest⟩ :
      ∃ p sales amounts largest, ofDefinition .sales .amountsByCity = .ok p ∧
        p.reductions = [sales, amounts, largest] ∧ sales.function = .count ∧
        amounts.function = .countDistinct ∧ largest.function = .max :=
    ⟨_, _, _, _, rfl, rfl, rfl, rfl, rfl⟩
  have hfew : (Item.records Item.sales).length < 2 ^ (53 : Nat) := by decide
  have hkeeps : ∀ a ∈ [sales, amounts, largest],
      a.Keeps (Item.records Item.sales) ((Item.records Item.sales).map p.read) := fun a ha =>
    aggregates_of_ofDefinition hplan (hreductions ▸ ha) hfew
  obtain ⟨n, hnumber, hdistinct, -⟩ := (hkeeps amounts (by simp)).countDistinct hamounts
  exact ⟨p, sales, amounts, largest, hplan, hreductions, hfew,
    (hkeeps sales (by simp)).count hsales, ⟨n, hnumber, hdistinct⟩,
    (hkeeps largest (by simp)).max hlargest⟩

end Reporting
