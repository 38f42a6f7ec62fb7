import Reporting.Proofs.Query.Slots

/-!
# Proofs/Query/Checks — filters, sort keys, groups and aggregations

What the checks of a definition find and what they object to, check by check.  All of them begin with
locating an id.  Where the id is one that the definition mentions this goes through
(`locate_bind_eq_error_iff`), so that every objection is one to the field that was found.
-/

namespace Reporting

variable {r : Registry} {slots : List Slot} {e : ReportError}

namespace Slot.Layout

variable {β : Type} {k : Slot → Except ReportError β} {id : String}

theorem locate_bind_eq_ok_iff (h : Layout r slots) {b : β} :
    (locate slots id >>= k) = .ok b ↔ ∃ slot ∈ slots, slot.field.id = id ∧ k slot = .ok b := by
  simp only [bind_eq_ok_iff, h.locate_eq_ok_iff, and_assoc]

/-- Past an id that has a slot, only what follows can fail. -/
theorem locate_bind_eq_error_iff (h : Layout r slots) (hid : id ∈ slots.map (·.field.id)) :
    (locate slots id >>= k) = .error e ↔
      ∃ slot ∈ slots, slot.field.id = id ∧ k slot = .error e := by
  obtain ⟨slot, hslot⟩ := h.exists_locate hid
  have herror : locate slots id ≠ .error e := by simp [hslot]
  simp only [bind_eq_error_iff, herror, false_or, h.locate_eq_ok_iff, and_assoc]

end Slot.Layout

/-! ## Filters -/

namespace Condition

variable {c : Clause}

theorem ofClause_eq_ok_iff (h : Slot.Layout r slots) {condition : Condition} :
    ofClause slots c = .ok condition ↔
      condition.slot ∈ slots ∧ condition.slot.field.id = c.fieldId ∧
        testOf condition.slot.field c = .ok condition.test := by
  rw [ofClause, h.locate_bind_eq_ok_iff]
  constructor
  · rintro ⟨slot, hslot, hid, hok⟩
    obtain ⟨test, htest, hok⟩ := bind_eq_ok_iff.1 hok
    cases hok
    exact ⟨hslot, hid, htest⟩
  · rintro ⟨hslot, hid, htest⟩
    exact ⟨condition.slot, hslot, hid, bind_eq_ok_iff.2 ⟨condition.test, htest, rfl⟩⟩

theorem ofClause_eq_error (h : Slot.Layout r slots) (hid : c.fieldId ∈ slots.map (·.field.id))
    (he : ofClause slots c = .error e) :
    ∃ slot ∈ slots, slot.field.id = c.fieldId ∧ testOf slot.field c = .error e := by
  obtain ⟨slot, hslot, heq, he⟩ := (h.locate_bind_eq_error_iff hid).1 he
  rcases bind_eq_error_iff.1 he with he | ⟨test, -, he⟩
  · exact ⟨slot, hslot, heq, he⟩
  · cases he

end Condition

/-! ## Sort keys -/

namespace SlotKey

/-- A key on a slot as one on an id. -/
def toSortKey (k : SlotKey) : SortKey := ⟨k.slot.field.id, k.direction⟩

variable {key : SortKey}

theorem ofSortKey_eq_ok_iff (h : Slot.Layout r slots) {k : SlotKey} :
    ofSortKey slots key = .ok k ↔
      k.slot ∈ slots ∧ k.toSortKey = key ∧ k.slot.field.sortable := by
  rw [ofSortKey, h.locate_bind_eq_ok_iff]
  constructor
  · rintro ⟨slot, hslot, hid, hk⟩
    split at hk
    · cases hk
      exact ⟨hslot, by rw [toSortKey, hid], ‹_›⟩
    · cases hk
  · rintro ⟨hslot, rfl, hsortable⟩
    exact ⟨k.slot, hslot, rfl, if_pos hsortable⟩

theorem eq_notSortable_of_ofSortKey (h : Slot.Layout r slots)
    (hid : key.fieldId ∈ slots.map (·.field.id)) (he : ofSortKey slots key = .error e) :
    ∃ slot ∈ slots, slot.field.id = key.fieldId ∧ !slot.field.sortable ∧
      e = .notSortable key.fieldId := by
  obtain ⟨slot, hslot, heq, he⟩ := (h.locate_bind_eq_error_iff hid).1 he
  split at he
  · cases he
  · rename_i hsortable
    cases he
    exact ⟨slot, hslot, heq, by simpa using hsortable, by rw [heq]⟩

end SlotKey

/-! ## Groups -/

namespace Plan

/-- **The slots grouped by are those of the ids, none of them twice**, after the ones already
taken. -/
theorem groupSlots_eq_ok (h : Slot.Layout r slots) {ids : List String} {taken out : List Slot}
    (hok : groupSlots slots taken ids = .ok out) :
    ∃ new, out = taken ++ new ∧ new.map (·.field.id) = ids ∧
      (∀ slot ∈ new, slot ∈ slots ∧ slot.field.groupable) ∧ (taken.Nodup → out.Nodup) := by
  induction ids generalizing taken with
  | nil =>
    cases hok
    exact ⟨[], by simp⟩
  | cons id rest ih =>
    obtain ⟨slot, hslot, hid, hok⟩ := h.locate_bind_eq_ok_iff.1 hok
    split at hok
    · cases hok
    · rename_i hgroupable
      split at hok
      · cases hok
      · rename_i hnew
        obtain ⟨new, rfl, rfl, hmem, hnodup⟩ := ih hok
        refine ⟨slot :: new, by simp, by simp [hid], ?_, fun htaken => hnodup ?_⟩
        · rintro s (_ | ⟨_, hs⟩)
          · exact ⟨hslot, by simpa using hgroupable⟩
          · exact hmem s hs
        · refine List.nodup_append.2 ⟨htaken, List.nodup_singleton slot, ?_⟩
          rintro s hs t ht rfl
          exact hnew (List.mem_singleton.1 ht ▸ hs)

/-- What there is to object to in the fields grouped by. -/
theorem groupSlots_eq_error (h : Slot.Layout r slots) {ids : List String} {taken : List Slot}
    (hids : ids ⊆ slots.map (·.field.id)) (he : groupSlots slots taken ids = .error e) :
    (∃ slot ∈ slots, slot.field.id ∈ ids ∧ !slot.field.groupable ∧
        e = .invalidGrouping (.notGroupable slot.field.id)) ∨
      ∃ id, 2 ≤ (taken.map (·.field.id) ++ ids).count id ∧ e = .invalidGrouping (.repeated id) := by
  induction ids generalizing taken with
  | nil => cases he
  | cons id rest ih =>
    obtain ⟨hid, hrest⟩ := List.cons_subset.1 hids
    replace he := (h.locate_bind_eq_error_iff hid).1 he
    obtain ⟨slot, hslot, rfl, he⟩ := he
    split at he
    · cases he
      exact .inl ⟨slot, hslot, List.mem_cons_self, ‹_›, rfl⟩
    · split at he
      · rename_i hold
        cases he
        refine .inr ⟨slot.field.id, ?_, rfl⟩
        have hcount : 0 < (taken.map (·.field.id)).count slot.field.id :=
          List.count_pos_iff.2 (List.mem_map_of_mem hold)
        rw [List.count_append, List.count_cons_self]
        omega
      · rcases ih hrest he with ⟨s, hs, hid, hfault⟩ | ⟨id, hcount, rfl⟩
        · exact .inl ⟨s, hs, List.mem_cons_of_mem _ hid, hfault⟩
        · exact .inr ⟨id, by simpa using hcount, rfl⟩

end Plan

/-! ## Aggregations -/

namespace SlotReduction

/-- An aggregation on a slot as one on an id. -/
def toAggregation (a : SlotReduction) : Aggregation := ⟨a.slot.field.id, a.function, a.target⟩

variable {aggregations : List Aggregation} {taken : List String}

/-- **Aggregations keep their order**, go to columns of their own, and reckon with numbers and
dates. -/
theorem compile_eq_ok (h : Slot.Layout r slots) {out : List SlotReduction}
    (hok : compile slots taken aggregations = .ok out) :
    out.map toAggregation = aggregations ∧
      (∀ a ∈ out, a.slot ∈ slots ∧ (a.function.needsNumeric → a.slot.field.type.isNumeric)) ∧
      (taken.Nodup → (taken ++ aggregations.map (·.target)).Nodup) := by
  induction aggregations generalizing taken out with
  | nil =>
    cases hok
    simp
  | cons a rest ih =>
    obtain ⟨slot, hslot, hid, hok⟩ := h.locate_bind_eq_ok_iff.1 hok
    split at hok
    · cases hok
    · rename_i hnew
      split at hok
      · cases hok
      · rename_i hnumeric
        obtain ⟨more, hmore, hout⟩ := bind_eq_ok_iff.1 hok
        cases hout
        obtain ⟨rfl, hmem, hnodup⟩ := ih hmore
        refine ⟨by simp [toAggregation, hid], ?_, fun htaken => ?_⟩
        · rintro b (_ | ⟨_, hb⟩)
          · exact ⟨hslot, fun hneeds => by simpa [hneeds] using hnumeric⟩
          · exact hmem b hb
        · exact List.perm_middle.nodup_iff.2 (hnodup (List.nodup_cons.2 ⟨hnew, htaken⟩))

/-- What there is to object to in the aggregations. -/
theorem compile_eq_error (h : Slot.Layout r slots)
    (hids : aggregations.map (·.fieldId) ⊆ slots.map (·.field.id))
    (he : compile slots taken aggregations = .error e) :
    (∃ a ∈ aggregations, ∃ slot ∈ slots, slot.field.id = a.fieldId ∧ a.function.needsNumeric ∧
        !slot.field.type.isNumeric ∧
        e = .invalidTarget a.target a.fieldId a.function slot.field.type) ∨
      ∃ name, 2 ≤ (taken ++ aggregations.map (·.target)).count name ∧
        e = .duplicateColumn name := by
  induction aggregations generalizing taken with
  | nil => cases he
  | cons a rest ih =>
    obtain ⟨hid, hrest⟩ := List.cons_subset.1 hids
    obtain ⟨slot, hslot, hid, he⟩ := (h.locate_bind_eq_error_iff hid).1 he
    split at he
    · rename_i hold
      cases he
      refine .inr ⟨a.target, ?_, rfl⟩
      have hcount := List.count_pos_iff.2 hold
      rw [List.map_cons, List.count_append, List.count_cons_self]
      omega
    · split at he
      · rename_i hnumeric
        cases he
        obtain ⟨hneeds, htype⟩ := Bool.and_eq_true_iff.1 hnumeric
        exact .inl ⟨a, List.mem_cons_self, slot, hslot, hid, hneeds, htype, by rw [hid]⟩
      · simp only [bind_eq_error_iff, reduceCtorEq, and_false, exists_false, or_false] at he
        rcases ih hrest he with ⟨b, hb, hfault⟩ | ⟨name, hcount, rfl⟩
        · exact .inl ⟨b, List.mem_cons_of_mem a hb, hfault⟩
        · exact .inr ⟨name, List.perm_middle.count_eq name ▸ hcount, rfl⟩

end SlotReduction

namespace Plan

variable {selected groupBy : List Slot} {aggregations : List Aggregation}

/-- Aggregations that pass their checks have groups, account for every selected slot and compile. -/
theorem reductionsOf_eq_ok {out : List SlotReduction}
    (hok : reductionsOf slots selected groupBy aggregations = .ok out) :
    (aggregations ≠ [] → groupBy ≠ [] ∧
        ∀ s ∈ selected, s ∈ groupBy ∨ s.field.id ∈ aggregations.map (·.fieldId)) ∧
      SlotReduction.compile slots (groupBy.map (·.field.id)) aggregations = .ok out := by
  rw [reductionsOf] at hok
  split at hok
  · rename_i hempty
    obtain rfl := List.isEmpty_iff.1 hempty
    cases hok
    exact ⟨fun h => absurd rfl h, rfl⟩
  · split at hok
    · cases hok
    · rename_i hgroups
      dsimp only at hok
      split at hok
      · cases hok
      · rename_i hnone
        refine ⟨fun _ => ⟨fun h => hgroups (List.isEmpty_iff.2 h), fun s hs => ?_⟩, hok⟩
        simpa [Classical.or_iff_not_imp_left] using List.find?_eq_none.1 hnone s hs

/-- What there is to object to in aggregations, besides what there is in each. -/
theorem reductionsOf_eq_error
    (he : reductionsOf slots selected groupBy aggregations = .error e) :
    (aggregations ≠ [] ∧ groupBy = [] ∧ e = .invalidGrouping .noGroups) ∨
      (aggregations ≠ [] ∧ ∃ s ∈ selected, s ∉ groupBy ∧
        s.field.id ∉ aggregations.map (·.fieldId) ∧
        e = .invalidGrouping (.unaccounted s.field.id)) ∨
      SlotReduction.compile slots (groupBy.map (·.field.id)) aggregations = .error e := by
  rw [reductionsOf] at he
  split at he
  · cases he
  · rename_i hsome
    replace hsome : aggregations ≠ [] := fun h => hsome (List.isEmpty_iff.2 h)
    split at he
    · rename_i hgroups
      cases he
      exact .inl ⟨hsome, List.isEmpty_iff.1 hgroups, rfl⟩
    · dsimp only at he
      split at he
      · rename_i s hfind
        cases he
        refine .inr (.inl ⟨hsome, s, List.mem_of_find?_eq_some hfind, ?_⟩)
        simpa [not_or] using List.find?_some hfind
      · exact .inr (.inr he)

end Plan

end Reporting
