import Mathlib.Data.List.Forall2
import Reporting.Proofs.Run.Arrival

/-!
# Proofs/Run/Dependence — what a run looks at

A registry may have fields that a definition does not mention, and records may have cells under any
name.  None of that shows: a definition is checked against the fields that it mentions
(`Plan.ofDefinition_congr`), and a record is read under their ids (`Slot.readRow_congr`), where a cell
that is missing is a cell that is null.  So items that agree under these ids are taken in alike
(`Intake.acceptAll_congr`) and come to the same run (`Engine.same_run_of_agree`).
-/

namespace Reporting

variable {r r' : Registry} {d : Definition} {p : Plan} {bound : Option Nat} {s : Intake}
  {token : Token} {ids : List String} {items items' : List Item}

/-! ## Agreeing -/

/-- Whether two records have the same under some ids.  Nothing is the same as null. -/
def Record.AgreeOn (ids : List String) (a b : Record) : Prop :=
  ∀ id ∈ ids, (a.get? id).getD .null = (b.get? id).getD .null

/-- Whether two items are both unreadable, or both records that have the same under some ids. -/
inductive Item.AgreeOn (ids : List String) : Item → Item → Prop
  | malformed (m m' : MalformedRecord) : AgreeOn ids (.malformed m) (.malformed m')
  | record {a b : Record} (h : Record.AgreeOn ids a b) : AgreeOn ids (.record a) (.record b)

/-! ## Definitions -/

/-- **A definition is checked against the fields that it mentions**, and comes to the same plan or the
same error wherever these are the same. -/
theorem Plan.ofDefinition_congr (h : ∀ id ∈ d.referenced, r.resolve id = r'.resolve id) :
    ofDefinition r d = ofDefinition r' d := by
  have hslots : slotsOf r d = slotsOf r' d := by rw [slotsOf, slotsOf, each_congr h]
  rw [ofDefinition, ofDefinition, hslots]

/-! ## Records -/

namespace Slot

/-- A missing cell is read like one that is null. -/
theorem read_eq_ofCell (record : Record) (f : Field) : read record f =
    match Value.ofCell f.type ((record.get? f.id).getD .null) with
    | .ok value => (value, false)
    | .error _ => (none, true) := by
  rw [read]
  cases record.get? f.id <;> rfl

/-- **Records that agree under the ids of the slots are read as one row.** -/
theorem readRow_congr {slots : List Slot} {a b : Record}
    (h : Record.AgreeOn (slots.map (·.field.id)) a b) : readRow slots a = readRow slots b := by
  have hcells : (slots.map fun slot => read a slot.field) = slots.map fun slot => read b slot.field :=
    List.map_congr_left fun slot hslot => by
      rw [read_eq_ofCell, read_eq_ofCell, h slot.field.id (List.mem_map_of_mem hslot)]
  rw [readRow, readRow, hcells]

end Slot

/-! ## Taking in -/

namespace Intake

variable {item item' : Item}

/-- **Items that agree take a run to the same place**, or end it alike. -/
theorem accept_congr (h : Item.AgreeOn (p.slots.map (·.field.id)) item item') :
    s.accept p bound item = s.accept p bound item' := by
  cases h with
  | malformed m m' => rfl
  | record h => rw [accept, accept, Slot.readRow_congr h]

theorem acceptAll_congr (h : List.Forall₂ (Item.AgreeOn (p.slots.map (·.field.id))) items items') :
    s.acceptAll p bound items = s.acceptAll p bound items' := by
  induction h generalizing s with
  | nil => rfl
  | @cons item item' rest rest' hitem _ ih =>
    rw [acceptAll, acceptAll, accept_congr hitem]
    cases s.accept p bound item' with
    | error error => rfl
    | ok s => exact ih

end Intake

/-! ## Runs -/

namespace Engine

variable {e e' : Engine}

theorem execute_congr (hbound : e.maxWorkingSet = e'.maxWorkingSet)
    (hfields : ∀ id ∈ d.referenced, e.registry.resolve id = e'.registry.resolve id)
    (hitems : List.Forall₂ (Item.AgreeOn d.referenced) items items') :
    e.execute d (.ok items) token = e'.execute d (.ok items') token := by
  have hvalidate : e.validate d = e'.validate d := Plan.ofDefinition_congr hfields
  rw [execute, execute, ← hvalidate, ← hbound]
  cases hplan : e.validate d with
  | error error => rfl
  | ok p =>
    have hids : p.slots.map (·.field.id) = d.referenced := (Plan.resolution_of_ofDefinition hplan).ids
    have htaken : Intake.acceptAll p e.maxWorkingSet {} items =
        Intake.acceptAll p e.maxWorkingSet {} items' := Intake.acceptAll_congr (hids ▸ hitems)
    simp only [runPlan, htaken]

/-- **A run looks at nothing but what its definition mentions.**  Take two engines with the same bound
that have the same fields under the ids that a definition mentions, or none, and items that agree under
these ids, one by one.  The definition comes to the same plan or the same error, and its runs are the
same in every respect, whether the items are there, arrive one by one or come through a channel. -/
theorem same_run_of_agree (hbound : e.maxWorkingSet = e'.maxWorkingSet)
    (hfields : ∀ id ∈ d.referenced, e.registry.resolve id = e'.registry.resolve id)
    (hitems : List.Forall₂ (Item.AgreeOn d.referenced) items items') (token : Token) :
    e.validate d = e'.validate d ∧
      e.execute d (.ok items) token = e'.execute d (.ok items') token ∧
      e.executeStream d (.ok (.ofList items)) token = e'.executeStream d (.ok (.ofList items')) token ∧
      ((Channel.ofItems items).execute e d token).1 =
        ((Channel.ofItems items').execute e' d token).1 := by
  have hstream : e.executeStream d (.ok (.ofList items)) token =
      e'.executeStream d (.ok (.ofList items')) token := by
    rw [executeStream_ofList, executeStream_ofList]
    exact execute_congr hbound hfields hitems
  refine ⟨Plan.ofDefinition_congr hfields, execute_congr hbound hfields hitems, hstream, ?_⟩
  rw [Channel.fst_execute, Channel.fst_execute, Channel.stream_ofItems, Channel.stream_ofItems,
    hstream]

end Engine

/-! ## Sales with notes -/

/-- Sales that may have a note. -/
def Registry.salesWithNotes : Registry where
  fields := [.unrestricted "note" "Note" .text "sale",
    .unrestricted "amount" "Amount" .number "sale", .unrestricted "city" "City" .text "sale"]
  distinct := by decide
  declared := by simp [Field.declaresValues, Field.unrestricted]

/-- The sales, one with a note and one with an amount that is null. -/
def Item.salesWithNotes : List Item :=
  [.record [("amount", .ofNat 7), ("city", .string "Oslo"), ("note", .string "paid")],
    .malformed ⟨1, .notAnObject "string"⟩, .record [("amount", .null), ("city", .string "Rome")]]

/-- Notes make no difference to the report on sales. -/
theorem Engine.same_run_of_agree_notes :
    execute ⟨.sales, none⟩ .salesByCity (.ok Item.sales) .clear =
      execute ⟨.salesWithNotes, none⟩ .salesByCity (.ok Item.salesWithNotes) .clear := by
  have hmentioned : Definition.salesByCity.referenced = ["amount", "city"] := rfl
  have hids : ∀ {q : String → Prop}, q "amount" → q "city" →
      ∀ id ∈ Definition.salesByCity.referenced, q id := fun hamount hcity =>
    hmentioned ▸ List.forall_mem_cons.2 ⟨hamount, List.forall_mem_singleton.2 hcity⟩
  have hitems : List.Forall₂ (Item.AgreeOn Definition.salesByCity.referenced) Item.sales
      Item.salesWithNotes :=
    .cons (.record (hids rfl rfl)) (.cons (.malformed _ _) (.cons (.record (hids rfl rfl)) .nil))
  exact (@same_run_of_agree .salesByCity _ _ ⟨.sales, none⟩ ⟨.salesWithNotes, none⟩ rfl (hids rfl rfl)
    hitems .clear).2.1

end Reporting
