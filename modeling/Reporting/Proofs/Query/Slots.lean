import Mathlib.Data.List.Nodup
import Mathlib.Data.List.Perm.Subperm
import Reporting.Proofs.Query.Stages
import Reporting.Query.Meaning

/-!
# Proofs/Query/Slots — slots stand for ids

A plan speaks of slots where its definition speaks of ids.  `Slot.Layout r slots` says what makes the
two ways of speaking the same: every slot is where its index says, holds the field that the registry
has under its id, and shares that id with no other.  The slots of a definition are laid out like that
(`layout_of_slotsOf`), an id is then located exactly at its slot (`locate_eq_ok_iff`), and the cell of
a row at a slot is what the record says under the id (`at_readRow`).
-/

namespace Reporting

/-! ## First occurrences -/

section FirstOccurrences

variable {α β : Type} [BEq α] [LawfulBEq α] [BEq β] [LawfulBEq β]

/-- What comes of adding to a list what it does not have yet. -/
def addNew (seen : List α) (xs : List α) : List α :=
  xs.foldl (fun seen x => if seen.contains x then seen else seen ++ [x]) seen

theorem addNew_cons_of_mem {seen : List α} {x : α} (h : x ∈ seen) (xs : List α) :
    addNew seen (x :: xs) = addNew seen xs := by
  rw [addNew, List.foldl_cons, if_pos (List.contains_iff_mem.2 h)]
  rfl

theorem addNew_cons_of_not_mem {seen : List α} {x : α} (h : x ∉ seen) (xs : List α) :
    addNew seen (x :: xs) = addNew (seen ++ [x]) xs := by
  rw [addNew, List.foldl_cons, if_neg fun hc => h (List.contains_iff_mem.1 hc)]
  rfl

theorem mem_addNew {seen xs : List α} {y : α} : y ∈ addNew seen xs ↔ y ∈ seen ∨ y ∈ xs := by
  induction xs generalizing seen with
  | nil => simp [addNew]
  | cons x rest ih =>
    by_cases hx : x ∈ seen
    · rw [addNew_cons_of_mem hx, ih, List.mem_cons]
      constructor
      · exact fun h => h.imp_right .inr
      · rintro (h | rfl | h)
        · exact .inl h
        · exact .inl hx
        · exact .inr h
    · rw [addNew_cons_of_not_mem hx, ih]
      simp [or_assoc]

theorem nodup_addNew {seen xs : List α} (h : seen.Nodup) : (addNew seen xs).Nodup := by
  induction xs generalizing seen with
  | nil => exact h
  | cons x rest ih =>
    by_cases hx : x ∈ seen
    · rw [addNew_cons_of_mem hx]
      exact ih h
    · rw [addNew_cons_of_not_mem hx]
      refine ih (List.nodup_append.2 ⟨h, List.nodup_singleton x, ?_⟩)
      rintro y hy z hz rfl
      exact hx (List.mem_singleton.1 hz ▸ hy)

theorem map_addNew {f : α → β} (seen : List α) {xs : List α}
    (hf : ∀ x ∈ seen ++ xs, ∀ y ∈ seen ++ xs, f x = f y → x = y) :
    (addNew seen xs).map f = addNew (seen.map f) (xs.map f) := by
  induction xs generalizing seen with
  | nil => rfl
  | cons x rest ih =>
    have hmem : f x ∈ seen.map f ↔ x ∈ seen := by
      refine ⟨fun h => ?_, List.mem_map_of_mem⟩
      obtain ⟨y, hy, heq⟩ := List.mem_map.1 h
      rw [← hf y (by simp [hy]) x (by simp) heq]
      exact hy
    rw [List.map_cons]
    by_cases hx : x ∈ seen
    · rw [addNew_cons_of_mem hx, addNew_cons_of_mem (hmem.2 hx)]
      refine ih seen fun y hy z hz => hf y ?_ z ?_
      · exact List.append_subset.2 ⟨by simp, by simp⟩ hy
      · exact List.append_subset.2 ⟨by simp, by simp⟩ hz
    · rw [addNew_cons_of_not_mem hx, addNew_cons_of_not_mem (mt hmem.1 hx),
        ih _ (by simpa using hf), List.map_append, List.map_singleton]

theorem mem_firstOccurrences {xs : List α} {y : α} : y ∈ firstOccurrences xs ↔ y ∈ xs := by
  rw [firstOccurrences, ← addNew, mem_addNew]
  simp

theorem nodup_firstOccurrences (xs : List α) : (firstOccurrences xs).Nodup :=
  nodup_addNew List.nodup_nil

/-- What occurs first does not depend on the order, but for its own. -/
theorem firstOccurrences_perm {xs ys : List α} (h : xs.Perm ys) :
    (firstOccurrences xs).Perm (firstOccurrences ys) := by
  rw [List.perm_ext_iff_of_nodup (nodup_firstOccurrences xs) (nodup_firstOccurrences ys)]
  intro x
  rw [mem_firstOccurrences, mem_firstOccurrences, h.mem_iff]

/-- No more things occur first than occur. -/
theorem length_firstOccurrences_le (xs : List α) : (firstOccurrences xs).length ≤ xs.length :=
  (List.subperm_of_subset (nodup_firstOccurrences xs) fun _ => mem_firstOccurrences.1).length_le

/-- The same things without repetition are as many as occur first. -/
theorem length_firstOccurrences_eq {xs ys : List α} (hnodup : ys.Nodup)
    (hmem : ∀ x, x ∈ ys ↔ x ∈ xs) : (firstOccurrences xs).length = ys.length := by
  refine ((List.perm_ext_iff_of_nodup (nodup_firstOccurrences xs) hnodup).2 fun x => ?_).length_eq
  rw [mem_firstOccurrences, hmem]

/-- What is there already adds nothing to the first occurrences, and everything else adds one. -/
theorem length_firstOccurrences_cons [DecidableEq α] (x : α) (xs : List α) :
    (firstOccurrences (x :: xs)).length =
      (firstOccurrences xs).length + if x ∈ xs then 0 else 1 := by
  split
  · rename_i hx
    refine length_firstOccurrences_eq (nodup_firstOccurrences xs) fun y => ?_
    rw [mem_firstOccurrences, List.mem_cons, or_iff_right_of_imp]
    rintro rfl
    exact hx
  · rename_i hx
    have hnew : (x :: firstOccurrences xs).Nodup :=
      List.nodup_cons.2 ⟨mt mem_firstOccurrences.1 hx, nodup_firstOccurrences xs⟩
    refine length_firstOccurrences_eq hnew fun y => ?_
    rw [List.mem_cons, List.mem_cons, mem_firstOccurrences]

/-- First occurrences may be taken before or after a list is read in another form that tells its
items apart. -/
theorem map_firstOccurrences {f : α → β} {xs : List α}
    (hf : ∀ x ∈ xs, ∀ y ∈ xs, f x = f y → x = y) :
    (firstOccurrences xs).map f = firstOccurrences (xs.map f) :=
  map_addNew [] (by simpa using hf)

end FirstOccurrences

theorem Definition.mem_referenced {d : Definition} {id : String} :
    id ∈ d.referenced ↔ id ∈ d.mentions := mem_firstOccurrences

theorem Registry.id_of_find? {r : Registry} {id : String} {f : Field} (h : r.find? id = some f) :
    f.id = id := by
  simpa using List.find?_some h

theorem Registry.resolve_eq_ok_iff {r : Registry} {id : String} {f : Field} :
    r.resolve id = .ok f ↔ r.find? id = some f := by
  rw [resolve]
  cases r.find? id <;> simp

/-! ## Layouts -/

namespace Slot

/-- Whether slots hold fields of a registry, each in its place and no two under one id. -/
structure Layout (r : Registry) (slots : List Slot) : Prop where
  placed : ∀ slot ∈ slots, slots[slot.index]? = some slot
  found : ∀ slot ∈ slots, r.find? slot.field.id = some slot.field
  distinct : (slots.map (·.field.id)).Nodup

variable {r : Registry} {slots : List Slot} {slot : Slot} {id : String}

theorem mem_number {start : Nat} {fs : List Field} (h : slot ∈ number start fs) :
    slot.field ∈ fs ∧ (number start fs)[slot.index - start]? = some slot ∧ start ≤ slot.index := by
  obtain ⟨i, hi⟩ := List.mem_iff_getElem?.1 h
  obtain ⟨f, hf, rfl⟩ := Option.map_eq_some_iff.1 (getElem?_number start fs i ▸ hi)
  rw [Nat.add_sub_cancel_left]
  exact ⟨List.mem_of_getElem? hf, hi, Nat.le_add_right start i⟩

theorem map_field_number (start : Nat) (fs : List Field) :
    (number start fs).map (·.field) = fs := by
  induction fs generalizing start with
  | nil => rfl
  | cons f rest ih => rw [number, List.map_cons, ih]

/-- **The slots of a definition are laid out**, one for each id that is mentioned. -/
theorem layout_of_slotsOf {d : Definition} (h : Plan.slotsOf r d = .ok slots) :
    Layout r slots ∧ slots.map (·.field.id) = d.referenced := by
  obtain ⟨fs, hfs, rfl⟩ := map_eq_ok_iff.1 h
  have hids : (number 0 fs).map (·.field.id) = d.referenced := by
    have := Plan.map_eq_map_of_each (f := Field.id) (g := id) hfs fun id _ f hf =>
      Registry.id_of_find? (Registry.resolve_eq_ok_iff.1 hf)
    rwa [List.map_id, ← map_field_number 0 fs, List.map_map] at this
  refine ⟨⟨fun slot hslot => ?_, fun slot hslot => ?_, ?_⟩, hids⟩
  · exact (mem_number hslot).2.1
  · obtain ⟨id, -, hid⟩ := Plan.exists_of_mem_each hfs (mem_number hslot).1
    have hfind := Registry.resolve_eq_ok_iff.1 hid
    rwa [← Registry.id_of_find? hfind] at hfind
  · rw [hids]
    exact nodup_firstOccurrences _

/-- Only an id without a field keeps a definition from its slots. -/
theorem eq_unknownField_of_slotsOf {d : Definition} {e : ReportError}
    (h : Plan.slotsOf r d = .error e) :
    ∃ id ∈ d.mentions, r.find? id = none ∧ e = .unknownField id := by
  obtain ⟨id, hid, herr⟩ := Plan.exists_of_each_eq_error (map_eq_error_iff.1 h)
  refine ⟨id, Definition.mem_referenced.1 hid, ?_⟩
  rw [Registry.resolve] at herr
  split at herr
  · cases herr
  · rename_i hnone
    cases herr
    exact ⟨hnone, rfl⟩

namespace Layout

/-- A slot is known by its id. -/
theorem eq_of_id_eq (h : Layout r slots) {s t : Slot} (hs : s ∈ slots) (ht : t ∈ slots)
    (heq : s.field.id = t.field.id) : s = t := List.inj_on_of_nodup_map h.distinct hs ht heq

/-- A slot is known by its index. -/
theorem eq_of_index_eq (h : Layout r slots) {s t : Slot} (hs : s ∈ slots) (ht : t ∈ slots)
    (heq : s.index = t.index) : s = t :=
  Option.some.inj ((h.placed s hs).symm.trans (heq ▸ h.placed t ht))

/-- **An id is located at its slot**, and nowhere else. -/
theorem locate_eq_ok_iff (h : Layout r slots) :
    locate slots id = .ok slot ↔ slot ∈ slots ∧ slot.field.id = id := by
  rw [locate]
  cases hfind : slots.find? fun slot => slot.field.id == id with
  | some s =>
    have hs := List.mem_of_find?_eq_some hfind
    have hid : s.field.id = id := by simpa using List.find?_some hfind
    constructor
    · intro heq
      cases heq
      exact ⟨hs, hid⟩
    · rintro ⟨hslot, rfl⟩
      rw [h.eq_of_id_eq hs hslot hid]
  | none =>
    refine ⟨fun heq => (by cases heq), ?_⟩
    rintro ⟨hslot, rfl⟩
    exact absurd (List.find?_eq_none.1 hfind slot hslot) (by simp)

/-- **An id that has a slot is located.** -/
theorem exists_locate (h : Layout r slots) (hid : id ∈ slots.map (·.field.id)) :
    ∃ slot, locate slots id = .ok slot := by
  obtain ⟨slot, hslot, rfl⟩ := List.mem_map.1 hid
  exact ⟨slot, h.locate_eq_ok_iff.2 ⟨hslot, rfl⟩⟩

end Layout

/-! ## Rows -/

theorem read_eq (f : Field) (record : Record) :
    read record f = (f.valueIn record, f.isMalformedIn record) := by
  rw [read, Field.valueIn, Field.isMalformedIn]
  cases record.get? f.id with
  | none => rfl
  | some cell =>
    have hnull : Value.ofCell? f.type .null = none := by cases f.type <;> rfl
    cases cell with
    | null => simp [Value.ofCell, hnull]
    | _ =>
      dsimp only [Option.bind_some]
      rw [Value.ofCell]
      · cases Value.ofCell? f.type _ <;> rfl
      · simp

/-- **The cell of a row at a slot is what the record says about its field.** -/
theorem Layout.at_readRow (h : Layout r slots) (hslot : slot ∈ slots) (record : Record) :
    (readRow slots record).1.at slot = slot.field.valueIn record := by
  rw [TypedRow.at, readRow]
  simp [h.placed slot hslot, read_eq]

/-- The cell of a row at a slot is what the record says under its id. -/
theorem Layout.at_readRow_eq_valueIn (h : Layout r slots) (hslot : slot ∈ slots) (record : Record) :
    (readRow slots record).1.at slot = r.valueIn slot.field.id record := by
  rw [h.at_readRow hslot, Registry.valueIn, h.found slot hslot, Option.bind_some]

/-- The malformed cells of a row are those of the fields that have slots. -/
theorem snd_readRow (slots : List Slot) (record : Record) :
    (readRow slots record).2 = slots.countP fun slot => slot.field.isMalformedIn record := by
  rw [readRow, ← List.countP_eq_length_filter, List.countP_map]
  exact List.countP_congr fun slot _ => by simp [read_eq]

end Slot

end Reporting
