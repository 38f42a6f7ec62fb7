import Reporting.Proofs.Query.Conditions
import Reporting.Proofs.Query.Resolution

/-!
# Proofs/Query/Validation — what is accepted is well formed, and errors tell the truth

The rules of a well-formed definition come in no order; the checks stop at the first objection.  That
both come to the same takes three steps: a plan that stands for a definition keeps all rules
(`Plan.Resolution.wellFormed`), an objection is true of the definition
(`Plan.isTrueOf_of_ofDefinition`), and what is true of it breaks a rule
(`ReportError.not_wellFormed_of_isTrueOf`).
-/

namespace Reporting

variable {r : Registry} {d : Definition} {e : ReportError}

/-! ## What is accepted -/

namespace Plan

variable {p : Plan}

/-- The field under the id of a mention, once the definition has a plan. -/
theorem Resolution.eq_of_mem_find? (h : Resolution r d p) {slot : Slot} (hslot : slot ∈ p.slots)
    {f : Field} (hf : f ∈ r.find? slot.field.id) : f = slot.field :=
  Option.some.inj (hf.symm.trans (h.layout.found slot hslot))

/-- **A definition that has a plan keeps all rules.** -/
theorem Resolution.wellFormed (h : Resolution r d p) : d.WellFormed r where
  registered := by
    intro id hid
    obtain ⟨slot, -, -, hfind⟩ := h.exists_slot hid
    exact Option.isSome_iff_exists.2 ⟨_, hfind⟩
  filters := by
    intro c hc f hf
    obtain ⟨condition, -, hslot, hid, htest⟩ := h.exists_condition hc
    obtain rfl := h.eq_of_mem_find? hslot (hid ▸ hf)
    exact Condition.fits_of_testOf htest
  sort := by
    rw [← h.sort]
    intro key hkey f hf
    obtain ⟨k, hk, rfl⟩ := List.mem_map.1 hkey
    obtain ⟨hslot, hsortable⟩ := h.sort_mem k hk
    obtain rfl := h.eq_of_mem_find? hslot hf
    exact hsortable
  groupable := by
    rw [← h.groupBy]
    intro id hid f hf
    obtain ⟨slot, hmem, rfl⟩ := List.mem_map.1 hid
    obtain ⟨hslot, hgroupable⟩ := h.groupBy_mem slot hmem
    obtain rfl := h.eq_of_mem_find? hslot hf
    exact hgroupable
  distinct := (List.nodup_append.1 h.columns).1
  grouped := by
    intro haggregations
    rw [← h.groupBy, ne_eq, List.map_eq_nil_iff]
    exact (h.accounted haggregations).1
  accounted := by
    intro haggregations id hid
    have hmem : id ∈ p.selected.map (·.field.id) := h.selected ▸ mem_firstOccurrences.2 hid
    obtain ⟨slot, hslot, rfl⟩ := List.mem_map.1 hmem
    refine ((h.accounted haggregations).2 slot hslot).imp_left fun hgroup => ?_
    exact h.groupBy ▸ List.mem_map_of_mem hgroup
  columns := h.columns
  targets := by
    rw [← h.reductions]
    intro a ha hneeds f hf
    obtain ⟨b, hb, rfl⟩ := List.mem_map.1 ha
    obtain ⟨hslot, hnumeric⟩ := h.reductions_mem b hb
    obtain rfl := h.eq_of_mem_find? hslot hf
    exact hnumeric hneeds

/-! ## What is objected to -/

section Objections

variable {slots : List Slot} (hlayout : Slot.Layout r slots)
include hlayout

theorem isTrueOf_of_ofClause {c : Clause} (hc : c ∈ d.filters)
    (hid : c.fieldId ∈ slots.map (·.field.id)) (he : Condition.ofClause slots c = .error e) :
    e.IsTrueOf r d := by
  obtain ⟨slot, hslot, heq, he⟩ := Condition.ofClause_eq_error hlayout hid he
  have hfind : slot.field ∈ r.find? c.fieldId := heq ▸ hlayout.found slot hslot
  rcases Condition.eq_error_of_testOf he with
    ⟨hfilterable, rfl⟩ | ⟨hlegal, rfl⟩ | ⟨hnull, fault, rfl, hfault⟩
  · exact ⟨c, hc, heq.symm, slot.field, heq ▸ hfind, hfilterable⟩
  · exact ⟨hlegal, c, hc, heq.symm, rfl, slot.field, heq ▸ hfind, rfl⟩
  · exact ⟨c, hc, heq.symm, hnull, slot.field, heq ▸ hfind, hfault⟩

theorem isTrueOf_of_ofSortKey {key : SortKey} (hkey : key ∈ d.sort)
    (hid : key.fieldId ∈ slots.map (·.field.id)) (he : SlotKey.ofSortKey slots key = .error e) :
    e.IsTrueOf r d := by
  obtain ⟨slot, hslot, heq, hsortable, rfl⟩ := SlotKey.eq_notSortable_of_ofSortKey hlayout hid he
  exact ⟨key, hkey, rfl, slot.field, heq ▸ hlayout.found slot hslot, hsortable⟩

theorem isTrueOf_of_groupSlots (hids : d.groupBy ⊆ slots.map (·.field.id))
    (he : groupSlots slots [] d.groupBy = .error e) : e.IsTrueOf r d := by
  rcases groupSlots_eq_error hlayout hids he with
    ⟨slot, hslot, hmem, hgroupable, rfl⟩ | ⟨id, hcount, rfl⟩
  · exact ⟨hmem, slot.field, hlayout.found slot hslot, hgroupable⟩
  · exact hcount

theorem isTrueOf_of_reductionsOf {selected groupBy : List Slot}
    (hselected : each (Slot.locate slots) d.fields = .ok selected)
    (hgroupBy : groupSlots slots [] d.groupBy = .ok groupBy)
    (hids : d.aggregations.map (·.fieldId) ⊆ slots.map (·.field.id))
    (he : reductionsOf slots (firstOccurrences selected) groupBy d.aggregations = .error e) :
    e.IsTrueOf r d := by
  obtain ⟨_, rfl, hgroups, hmem, -⟩ := groupSlots_eq_ok hlayout hgroupBy
  rcases reductionsOf_eq_error he with
    ⟨hsome, hnone, rfl⟩ | ⟨hsome, s, hs, hgroup, haggregated, rfl⟩ | he
  · exact ⟨hsome, by rw [← hgroups, hnone, List.map_nil]⟩
  · obtain ⟨id, hid, hlocate⟩ := exists_of_mem_each hselected (mem_firstOccurrences.1 hs)
    obtain ⟨hslot, rfl⟩ := hlayout.locate_eq_ok_iff.1 hlocate
    refine ⟨hsome, hid, not_or.2 ⟨fun h => hgroup ?_, haggregated⟩⟩
    obtain ⟨t, ht, heq⟩ := List.mem_map.1 (hgroups ▸ h)
    exact hlayout.eq_of_id_eq (hmem t ht).1 hslot heq ▸ ht
  · rcases SlotReduction.compile_eq_error hlayout hids he with
      ⟨a, ha, slot, hslot, heq, hneeds, htype, rfl⟩ | ⟨name, hcount, rfl⟩
    · exact ⟨hneeds, htype, a, ha, rfl, slot.field, heq ▸ hlayout.found slot hslot, rfl⟩
    · rw [hgroups] at hcount
      exact hcount

end Objections

/-- **An error is true of the definition that it turns away.** -/
theorem isTrueOf_of_ofDefinition (h : ofDefinition r d = .error e) : e.IsTrueOf r d := by
  rcases ofDefinition_eq_error h with he | ⟨slots, hslots, he⟩
  · obtain ⟨id, hid, hnone, rfl⟩ := Slot.eq_unknownField_of_slotsOf he
    exact ⟨hid, by simp [Registry.contains, hnone]⟩
  obtain ⟨hlayout, hids⟩ := Slot.layout_of_slotsOf hslots
  have hmentions : d.mentions ⊆ slots.map (·.field.id) :=
    fun id hid => hids ▸ Definition.mem_referenced.2 hid
  simp only [Definition.mentions, List.append_subset] at hmentions
  obtain ⟨⟨⟨⟨hfields, hfilters⟩, hsort⟩, hgroupBy⟩, haggregations⟩ := hmentions
  rcases he with he | he | he | he | ⟨selected, groupBy, hselected, hgroups, he⟩
  · -- Every id that is mentioned has a slot.
    obtain ⟨id, hid, he⟩ := exists_of_each_eq_error he
    obtain ⟨slot, hslot⟩ := hlayout.exists_locate (hfields hid)
    rw [hslot] at he
    cases he
  · obtain ⟨c, hc, he⟩ := exists_of_each_eq_error he
    exact isTrueOf_of_ofClause hlayout hc (hfilters (List.mem_map_of_mem hc)) he
  · obtain ⟨key, hkey, he⟩ := exists_of_each_eq_error he
    exact isTrueOf_of_ofSortKey hlayout hkey (hsort (List.mem_map_of_mem hkey)) he
  · exact isTrueOf_of_groupSlots hlayout hgroupBy he
  · exact isTrueOf_of_reductionsOf hlayout hselected hgroups haggregations he

end Plan

/-! ## What is true breaks a rule -/

/-- What an operand that suits its operator is, for operators that need one. -/
theorem Clause.operand_of_suitsType {c : Clause} {type : FieldType} (hnull : !c.operator.isNullTest)
    (h : c.SuitsType type) :
    (c.operator.takesSet ∧ ∃ vs, c.value = some (.many vs) ∧ Value.allOf type vs) ∨
      (!c.operator.takesSet ∧ (∃ v, c.value = some (.one v) ∧ v.type = type) ∧
        (c.operator = .between → ∃ v, c.valueEnd = some v ∧ v.type = type)) := by
  obtain ⟨id, operator, operand, upper⟩ := c
  cases operator
  case isNull | isNotNull => cases hnull
  case isIn | notIn =>
    rcases operand with _ | v | vs
    · exact h.elim
    · exact h.elim
    · exact .inl ⟨rfl, vs, rfl, h⟩
  case between =>
    rcases operand with _ | v | vs
    · exact h.elim
    · cases upper with
      | none => exact h.elim
      | some high => exact .inr ⟨rfl, ⟨v, rfl, h.1⟩, fun _ => ⟨high, rfl, h.2⟩⟩
    · exact h.elim
  all_goals
    rcases operand with _ | v | vs
    · exact h.elim
    · exact .inr ⟨rfl, ⟨v, rfl, h⟩, nofun⟩
    · exact h.elim

/-- An operand with a fault does not suit its operator. -/
theorem OperandFault.not_suitsType_of_isTrueOf {fault : OperandFault} {c : Clause}
    {type : FieldType} (hnull : !c.operator.isNullTest) (h : fault.IsTrueOf c type) :
    ¬ c.SuitsType type := by
  intro hsuits
  rcases Clause.operand_of_suitsType hnull hsuits with
    ⟨hset, vs, hvs, hall⟩ | ⟨hset, ⟨v, hv, htype⟩, hbetween⟩
  · cases fault with
    | wrongType expected found =>
      obtain ⟨rfl, hne, w, rfl, hw | ⟨ws, hws, hw⟩ | ⟨ho, -⟩⟩ := h
      · simp [hvs] at hw
      · obtain rfl : vs = ws := by simpa [hvs] using hws
        exact hne (hall w hw)
      · simp [ho, Operator.takesSet] at hset
    | noEnd => simp [h.1, Operator.takesSet] at hset
    | described text => exact h
    | _ =>
      obtain ⟨rfl, hfault, hvalue⟩ := h
      simp_all
  · cases fault with
    | wrongType expected found =>
      obtain ⟨rfl, hne, w, rfl, hw | ⟨ws, hws, -⟩ | ⟨ho, hw⟩⟩ := h
      · obtain rfl : v = w := by simpa [hv] using hw
        exact hne htype
      · simp [hv] at hws
      · obtain ⟨u, hu, htype⟩ := hbetween ho
        obtain rfl : u = w := by simpa [hu] using hw
        exact hne htype
    | noEnd =>
      obtain ⟨u, hu, -⟩ := hbetween h.1
      cases hu.symm.trans h.2
    | described text => exact h
    | _ =>
      obtain ⟨rfl, hfault, hvalue⟩ := h
      simp_all

/-- **What an error says cannot be said of a definition that keeps all rules.** -/
theorem ReportError.not_wellFormed_of_isTrueOf (h : e.IsTrueOf r d) : ¬ d.WellFormed r := by
  intro hd
  cases e with
  | unknownField id => exact absurd (hd.registered id h.1) (by simpa using h.2)
  | notFilterable id =>
    obtain ⟨c, hc, rfl, f, hf, hfilterable⟩ := h
    simp [(hd.filters c hc f hf).1] at hfilterable
  | invalidOperator id type operator =>
    obtain ⟨hlegal, c, hc, rfl, rfl, f, hf, rfl⟩ := h
    simp [(hd.filters c hc f hf).2.1] at hlegal
  | invalidFilterValue id fault =>
    obtain ⟨c, hc, rfl, hnull, f, hf, hfault⟩ := h
    exact fault.not_suitsType_of_isTrueOf hnull hfault (hd.filters c hc f hf).2.2
  | notSortable id =>
    obtain ⟨key, hkey, rfl, f, hf, hsortable⟩ := h
    simp [hd.sort key hkey f hf] at hsortable
  | invalidGrouping fault =>
    cases fault with
    | notGroupable id =>
      obtain ⟨hid, f, hf, hgroupable⟩ := h
      simp [hd.groupable id hid f hf] at hgroupable
    | repeated id => exact absurd (List.nodup_iff_count_le_one.1 hd.distinct id) (Nat.not_le.2 h)
    | noGroups => exact hd.grouped h.1 h.2
    | unaccounted id => exact h.2.2 (hd.accounted h.1 id h.2.1)
    | described text => exact h
  | invalidTarget target id function type =>
    obtain ⟨hneeds, htype, _, ha, rfl, f, hf, rfl⟩ := h
    simp [hd.targets _ ha hneeds f hf] at htype
  | duplicateColumn name =>
    exact absurd (List.nodup_iff_count_le_one.1 hd.columns name) (Nat.not_le.2 h)
  | sourceUnavailable cause => exact h
  | workingSetExceeded bound => exact h
  | cancelled => exact h

/-! ## Validation -/

/-- A definition that keeps all rules has a plan. -/
theorem Plan.exists_of_wellFormed (h : d.WellFormed r) : ∃ p, Plan.ofDefinition r d = .ok p := by
  cases hplan : Plan.ofDefinition r d with
  | ok p => exact ⟨p, rfl⟩
  | error e =>
    exact absurd h (ReportError.not_wellFormed_of_isTrueOf (Plan.isTrueOf_of_ofDefinition hplan))

/-- **Checking accepts exactly the well-formed definitions, and its errors are true** — each names a
rule that the definition breaks, where it breaks it. -/
theorem Plan.ofDefinition_accepts_wellFormed (r : Registry) (d : Definition) :
    ((∃ p, Plan.ofDefinition r d = .ok p) ↔ d.WellFormed r) ∧
      ∀ e, Plan.ofDefinition r d = .error e → e.IsTrueOf r d := by
  refine ⟨⟨?_, fun hd => ?_⟩, fun e => Plan.isTrueOf_of_ofDefinition⟩
  · rintro ⟨p, h⟩
    exact (Plan.resolution_of_ofDefinition h).wellFormed
  · cases h : Plan.ofDefinition r d with
    | ok p => exact ⟨p, rfl⟩
    | error e =>
      exact absurd hd (ReportError.not_wellFormed_of_isTrueOf (Plan.isTrueOf_of_ofDefinition h))

/-- The report on sales is accepted; grouped by the city twice, it is turned away for that. -/
theorem Plan.ofDefinition_accepts_salesByCity :
    (∃ p, Plan.ofDefinition .sales .salesByCity = .ok p) ∧
      ReportError.IsTrueOf .sales (Definition.salesByCity.addGroupBy "city")
        (.invalidGrouping (.repeated "city")) :=
  ⟨(Plan.ofDefinition_accepts_wellFormed .sales .salesByCity).1.2 (by decide),
    (Plan.ofDefinition_accepts_wellFormed .sales (.addGroupBy .salesByCity "city")).2 _ rfl⟩

end Reporting
