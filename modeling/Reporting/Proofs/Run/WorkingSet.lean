import Reporting.Proofs.Run.Refinement

/-!
# Proofs/Run/WorkingSet — what a bound on held records does to a run

An engine holds the records that pass the filters, at most as many as its bound allows.  A run under a
bound fails exactly if more of them pass (`Plan.Resolution.fst_acceptAll`), wherever among the items
they come; it fails for no other reason while it reads, and if it does not fail it holds what a run
without a bound holds.
-/

namespace Reporting

variable {r : Registry} {d : Definition} {p : Plan} {bound : Option Nat} {s : Intake}

/-- Whether a bound, if there is one, allows so many records to be held. -/
def HasRoom (bound : Option Nat) (count : Nat) : Prop := ∀ limit ∈ bound, count ≤ limit

instance (bound : Option Nat) (count : Nat) : Decidable (HasRoom bound count) :=
  inferInstanceAs (Decidable (∀ limit ∈ bound, _))

theorem HasRoom.mono {count more : Nat} (h : HasRoom bound more) (hle : count ≤ more) :
    HasRoom bound count := fun limit hlimit => Nat.le_trans hle (h limit hlimit)

/-- The error of a run that finds no room names its bound. -/
theorem exists_of_not_hasRoom {count : Nat} (h : ¬ HasRoom bound count) :
    ∃ limit, bound = some limit ∧ limit < count := by
  cases bound with
  | none => exact absurd (fun _ => nofun) h
  | some limit =>
    refine ⟨limit, rfl, Nat.not_le.1 fun hle => h ?_⟩
    rintro _ ⟨⟩
    exact hle

namespace Intake

/-- Another record can be held exactly if the intake is not full. -/
theorem isFull_iff : s.isFull bound ↔ ¬ HasRoom bound (s.reversed.length + 1) := by
  cases bound with
  | none => simp [isFull, HasRoom]
  | some limit =>
    simp only [isFull, HasRoom, Option.mem_def, Option.some.injEq, decide_eq_true_eq, forall_eq']
    omega

/-- A bound matters only to a record that passes the filters when no more may be held. -/
theorem accept_record (s : Intake) (record : Record) : s.accept p bound (.record record) =
    if p.accepts (p.read record) ∧ s.isFull bound then
      .error (.workingSetExceeded (bound.getD 0))
    else s.accept p none (.record record) := by
  have hnone : s.isFull none = false := rfl
  simp only [accept, Plan.read, hnone]
  cases p.accepts (Slot.readRow p.slots record).1 <;> simp

end Intake

namespace Plan

/-- Whatever is taken in, what is held stays. -/
theorem length_reversed_after (s : Intake) (items : List Item) :
    (p.after d r s items).reversed.length =
      s.reversed.length + ((Item.records items).filter (d.keeps r)).length := by
  simp only [after, List.length_append, List.length_reverse, List.length_map]
  omega

/-- What is held in the end is what the definition selects. -/
theorem length_reversed_after_all (items : List Item) :
    (p.after d r {} items).reversed.length = (d.selection r items).length := by
  rw [length_reversed_after, Definition.selection, (insertionSortBy_perm _).length_eq]
  exact Nat.zero_add _

/-- A record that the definition keeps is held with the others. -/
theorem length_reversed_after_record (s : Intake) (record : Record) :
    (p.after d r s [.record record]).reversed.length =
      if d.keeps r record then s.reversed.length + 1 else s.reversed.length := by
  rw [length_reversed_after, Item.records_record, Item.records_nil, List.filter_cons]
  split <;> rfl

namespace Resolution

variable (h : Resolution r d p)
include h

/-- **An item is taken in exactly if there is room for it.** -/
theorem accept_eq (hroom : HasRoom bound s.reversed.length) (item : Item) :
    s.accept p bound item =
      if HasRoom bound (p.after d r s [item]).reversed.length then .ok (p.after d r s [item])
      else .error (.workingSetExceeded (bound.getD 0)) := by
  cases item with
  | malformed m => exact (if_pos (c := HasRoom bound s.reversed.length) hroom).symm
  | record record =>
    rw [Intake.accept_record, h.accepts_read, h.accept_none, length_reversed_after_record]
    by_cases hkeeps : d.keeps r record
    · simp only [hkeeps, true_and, if_true, Intake.isFull_iff, ite_not]
    · simp only [hkeeps, false_and, if_false, hroom, if_true, Bool.false_eq_true]

/-- **Reading fails exactly if more records pass the filters than there is room for.** -/
theorem fst_acceptAll (items : List Item) (hroom : HasRoom bound s.reversed.length) :
    (s.acceptAll p bound items).1 =
      if HasRoom bound (p.after d r s items).reversed.length then .ok (p.after d r s items)
      else .error (.workingSetExceeded (bound.getD 0)) := by
  induction items generalizing s with
  | nil => exact (if_pos hroom).symm
  | cons item rest ih =>
    have hle : (p.after d r s [item]).reversed.length ≤
        (p.after d r s (item :: rest)).reversed.length := by
      rw [← after_cons s item rest, length_reversed_after (p.after d r s [item]) rest]
      exact Nat.le_add_right _ _
    rw [Intake.acceptAll, h.accept_eq hroom]
    by_cases hitem : HasRoom bound (p.after d r s [item]).reversed.length
    · rw [if_pos hitem]
      dsimp only
      rw [ih hitem, after_cons]
    · rw [if_neg hitem, if_neg fun hall => hitem (hall.mono hle)]

end Resolution

end Plan

/-- Nothing is held before anything is read. -/
theorem hasRoom_zero : HasRoom bound 0 := fun _ _ => Nat.zero_le _

namespace Engine

/-- What comes of a run that is not called off at its start is what comes of reading, and of
concluding where reading goes well. -/
theorem outcome_runPlan {σ : Type} {takeIn : σ → Except ReportError Intake × Nat} {token : Token}
    (hclear : token ⟨.filtering, 0, 0⟩ = false) (items : σ) :
    (runPlan p (.ok items) takeIn token).outcome = (takeIn items).1 >>= conclude p token := by
  simp only [runPlan, hclear, Bool.false_eq_true, if_false]
  generalize takeIn items = result
  obtain ⟨_ | _, _⟩ := result
  · rfl
  · rfl

/-- **A run under a bound gives the report of one without, or fails for want of room.**  Which of the
two depends on the number of records selected, and on nothing else. -/
theorem outcome_execute {e : Engine} (h : Plan.ofDefinition e.registry d = .ok p)
    (items : List Item) : (e.execute d (.ok items) .clear).outcome =
      if HasRoom e.maxWorkingSet (d.selection e.registry items).length then
        .ok (d.meaning e.registry items)
      else .error (.workingSetExceeded (e.maxWorkingSet.getD 0)) := by
  have hp := Plan.resolution_of_ofDefinition h
  rw [execute_of_validate (e := e) h, outcome_runPlan rfl, hp.fst_acceptAll items hasRoom_zero,
    Plan.length_reversed_after_all]
  split
  · exact conclude_after hp items
  · rfl

/-- **A run has a report exactly if nothing stands in its way**: it is not called off before it starts,
there is room for the records selected, and it is not called off afterwards. -/
theorem outcome_execute_eq_ok_iff {e : Engine} (h : e.validate d = .ok p) {items : List Item}
    {token : Token} {report : Report} : (e.execute d (.ok items) token).outcome = .ok report ↔
      token ⟨.filtering, 0, 0⟩ = false ∧
        HasRoom e.maxWorkingSet (d.selection e.registry items).length ∧
        (Stage.afterReading.any fun stage => token ⟨stage, 1, items.length⟩) = false ∧
        report = d.meaning e.registry items := by
  have hp := Plan.resolution_of_ofDefinition h
  rw [execute_of_validate h]
  cases hstart : token ⟨.filtering, 0, 0⟩ with
  | true =>
    have hoff : runPlan p (.ok items) (Intake.acceptAll p e.maxWorkingSet {}) token =
        ⟨.error .cancelled, 0, 0⟩ := if_pos hstart
    simp [hoff]
  | false =>
    have hpulled : (p.after d e.registry {} items).pulled = items.length := Nat.zero_add _
    rw [outcome_runPlan hstart, hp.fst_acceptAll items hasRoom_zero, Plan.length_reversed_after_all,
      ← hp.report_after items, ← hpulled, ← conclude_eq_ok_iff, eq_self_iff_true, true_and]
    split
    · exact (and_iff_right ‹_›).symm
    · exact ⟨nofun, fun hall => absurd hall.1 ‹_›⟩

end Engine

end Reporting
