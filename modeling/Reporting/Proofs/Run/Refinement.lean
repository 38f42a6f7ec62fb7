import Reporting.Proofs.Run.Assembly
import Reporting.Run.Engine

/-!
# Proofs/Run/Refinement — a run gives what its definition means

A run takes items in one by one.  `Plan.after` is what it holds after some of them, told of their
records: the rows of those that the definition keeps, and how many items and cells were no good.  One
item takes it a step further (`Resolution.accept_none`), all items take it to the end
(`Resolution.acceptAll_none`), and what is assembled from there is the meaning of the definition.  A
bound on what may be held can only end a run, never change what it holds (`acceptAll_none_of_ok`).
-/

namespace Reporting

variable {r : Registry} {d : Definition} {p : Plan} {bound : Option Nat} {s s' : Intake}

/-! ## Bounds -/

namespace Intake

/-- **An item that is taken in under a bound is taken in without one**, to the same effect. -/
theorem accept_none_of_ok {item : Item} (h : s.accept p bound item = .ok s') :
    s.accept p none item = .ok s' := by
  cases item with
  | malformed m => exact h
  | record record =>
    simp only [accept] at h ⊢
    split
    · rwa [if_pos ‹_›] at h
    · rw [if_neg ‹_›] at h
      split at h
      · cases h
      · exact h

theorem acceptAll_none_of_ok {items : List Item} {pulled : Nat}
    (h : acceptAll p bound s items = (.ok s', pulled)) :
    acceptAll p none s items = (.ok s', pulled) := by
  induction items generalizing s with
  | nil => exact h
  | cons item rest ih =>
    rw [acceptAll] at h
    split at h
    · cases h
    · rename_i hitem
      rw [acceptAll, accept_none_of_ok hitem]
      exact ih h

end Intake

/-! ## Taking in -/

namespace Item

variable {record : Record} {m : MalformedRecord} {rest : List Item}

@[simp] theorem records_nil : records [] = [] := rfl

@[simp] theorem records_record : records (.record record :: rest) = record :: records rest := rfl

@[simp] theorem records_malformed : records (.malformed m :: rest) = records rest := rfl

@[simp] theorem unreadable_nil : unreadable [] = 0 := rfl

@[simp] theorem unreadable_record : unreadable (.record record :: rest) = unreadable rest := rfl

@[simp] theorem unreadable_malformed : unreadable (.malformed m :: rest) = unreadable rest + 1 :=
  List.countP_cons_of_pos rfl

end Item

/-- What a run holds after some items. -/
def Plan.after (p : Plan) (d : Definition) (r : Registry) (s : Intake) (items : List Item) :
    Intake where
  reversed := (((Item.records items).filter (d.keeps r)).map p.read).reverse ++ s.reversed
  skipped := s.skipped + Item.unreadable items
  malformed :=
    (Item.records items).foldl (fun n record => n + d.malformedCells r record) s.malformed
  pulled := s.pulled + items.length

namespace Plan

theorem after_cons (s : Intake) (item : Item) (rest : List Item) :
    p.after d r (p.after d r s [item]) rest = p.after d r s (item :: rest) := by
  cases item with
  | malformed m =>
    simp only [after, Item.records_malformed, Item.unreadable_malformed, Item.records_nil,
      Item.unreadable_nil, List.filter_nil, List.map_nil, List.reverse_nil, List.nil_append,
      List.foldl_nil, List.length_cons, List.length_nil, Intake.mk.injEq, true_and]
    omega
  | record record =>
    simp only [after, Item.records_record, Item.unreadable_record, Item.records_nil,
      Item.unreadable_nil, List.foldl_cons, List.foldl_nil, List.length_cons, List.length_nil,
      Intake.mk.injEq, true_and]
    refine ⟨?_, by omega⟩
    cases hkeeps : d.keeps r record <;> simp [hkeeps]

namespace Resolution

variable (h : Resolution r d p)
include h

/-- **An item takes a run a step further.** -/
theorem accept_none (s : Intake) (item : Item) :
    s.accept p none item = .ok (p.after d r s [item]) := by
  cases item with
  | malformed m => rfl
  | record record =>
    have haccepts : p.accepts (Slot.readRow p.slots record).1 = d.keeps r record :=
      h.accepts_read record
    have hbad := h.snd_readRow record
    simp only [Intake.accept, haccepts, hbad]
    cases hkeeps : d.keeps r record
    · simp [after, hkeeps]
    · simp [after, hkeeps, Intake.isFull, read]

/-- **All items take a run to what they come to.** -/
theorem acceptAll_none (s : Intake) (items : List Item) :
    Intake.acceptAll p none s items = (.ok (p.after d r s items), s.pulled + items.length) := by
  induction items generalizing s with
  | nil => rfl
  | cons item rest ih =>
    have hpulled : (p.after d r s [item]).pulled + rest.length = s.pulled + (rest.length + 1) := by
      simp only [after, List.length_singleton]
      omega
    rw [Intake.acceptAll, h.accept_none]
    dsimp only
    rw [ih, after_cons, hpulled, List.length_cons]

/-- What a run holds in the end makes the report that the definition asks for. -/
theorem report_after (items : List Item) :
    p.report (p.after d r {} items).rows (p.after d r {} items).skipped
      (p.after d r {} items).malformed = d.meaning r items := by
  have hrows : (p.after d r {} items).rows =
      ((Item.records items).filter (d.keeps r)).map p.read := by
    simp [after, Intake.rows]
  rw [hrows]
  exact h.report_read (Nat.zero_add _) rfl

end Resolution

end Plan

/-! ## Runs -/

namespace Engine

/-- A run that has read its records and has not been called off since has a report. -/
theorem conclude_eq_ok_iff {token : Token} {report : Report} :
    conclude p token s = .ok report ↔
      (Stage.afterReading.any fun stage => token ⟨stage, 1, s.pulled⟩) = false ∧
        report = p.report s.rows s.skipped s.malformed := by
  rw [conclude]
  split
  · rename_i hoff
    simp [hoff]
  · rename_i hoff
    rw [Except.ok.injEq, eq_comm, Bool.eq_false_iff]
    exact (and_iff_right hoff).symm

/-- A run that is not called off concludes with the report that the definition asks for. -/
theorem conclude_after (h : Plan.Resolution r d p) (items : List Item) :
    conclude p .clear (p.after d r {} items) = .ok (d.meaning r items) :=
  conclude_eq_ok_iff.2 ⟨rfl, (h.report_after items).symm⟩

/-- A run with a report has opened its source, taken everything in and concluded. -/
theorem exists_of_runPlan_outcome {σ : Type} {source : Except SourceError σ}
    {takeIn : σ → Except ReportError Intake × Nat} {token : Token} {report : Report}
    (h : (runPlan p source takeIn token).outcome = .ok report) :
    ∃ items s pulled, source = .ok items ∧ takeIn items = (.ok s, pulled) ∧
      conclude p token s = .ok report := by
  unfold runPlan at h
  split at h
  · cases h
  · cases source with
    | error cause => cases h
    | ok items =>
      dsimp only at h
      split at h
      · cases h
      · exact ⟨items, _, _, rfl, ‹_›, h⟩

/-- **Whatever report comes of a run is the one that its definition asks for**, for any bound and
whenever the run may be called off. -/
theorem eq_meaning_of_outcome {e : Engine} {source : Except SourceError (List Item)} {token : Token}
    {report : Report} (h : (e.execute d source token).outcome = .ok report) :
    ∃ items, source = .ok items ∧ report = d.meaning e.registry items := by
  rw [execute] at h
  split at h
  · cases h
  rename_i p hp
  replace hp := Plan.resolution_of_ofDefinition hp
  obtain ⟨items, s, pulled, rfl, htaken, hconclude⟩ := exists_of_runPlan_outcome h
  obtain ⟨-, rfl⟩ := conclude_eq_ok_iff.1 hconclude
  have hall := Intake.acceptAll_none_of_ok htaken
  rw [hp.acceptAll_none, Prod.mk.injEq, Except.ok.injEq] at hall
  rw [← hall.1]
  exact ⟨items, rfl, hp.report_after items⟩

/-- A run that takes in its items concludes with what it holds. -/
theorem runPlan_of_taken {σ : Type} {items : σ} {takeIn : σ → Except ReportError Intake × Nat}
    {token : Token} {pulled : Nat} (hclear : token ⟨.filtering, 0, 0⟩ = false)
    (htaken : takeIn items = (.ok s, pulled)) :
    runPlan p (.ok items) takeIn token = ⟨conclude p token s, 1, pulled⟩ := by
  simp only [runPlan, hclear, htaken, Bool.false_eq_true, if_false]

/-- A definition that is accepted runs as its plan. -/
theorem execute_of_validate {e : Engine} (h : e.validate d = .ok p)
    (source : Except SourceError (List Item)) (token : Token) : e.execute d source token =
      runPlan p source (Intake.acceptAll p e.maxWorkingSet {}) token := by
  rw [execute, h]

/-- A plan that nothing bounds and nobody calls off takes in every item and gives the report that its
definition asks for. -/
theorem runPlan_of_resolution (h : Plan.Resolution r d p) (items : List Item) :
    runPlan p (.ok items) (Intake.acceptAll p none {}) Token.clear =
      ⟨.ok (d.meaning r items), 1, items.length⟩ := by
  rw [runPlan_of_taken rfl (h.acceptAll_none {} items), conclude_after h]
  congr 1
  exact Nat.zero_add items.length

/-- **A plan runs as its definition reads.**  Where nothing bounds a run and nobody calls it off, it
opens its source once, takes in every item, and gives the report that the definition asks for. -/
theorem execute_eq_meaning (h : Plan.ofDefinition r d = .ok p) (items : List Item) :
    execute ⟨r, none⟩ d (.ok items) Token.clear = ⟨.ok (d.meaning r items), 1, items.length⟩ := by
  rw [execute_of_validate (e := ⟨r, none⟩) h]
  exact runPlan_of_resolution (Plan.resolution_of_ofDefinition h) items

/-- The report on sales runs as it reads. -/
theorem execute_eq_meaning_sales : ∃ p, Plan.ofDefinition .sales .salesByCity = .ok p ∧
    execute ⟨.sales, none⟩ .salesByCity (.ok Item.sales) Token.clear =
      ⟨.ok (Definition.salesByCity.meaning .sales Item.sales), 1, 3⟩ :=
  ⟨_, rfl, execute_eq_meaning rfl Item.sales⟩

end Engine

end Reporting
