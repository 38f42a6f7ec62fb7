import Reporting.Proofs.Chain
import Reporting.Query.Plan

/-!
# Proofs/Query/Stages — what the checks of a definition come to

`Plan.ofDefinition` is a chain of checks, each of which may end it.  `Plan.Stages` lists the checks
that a plan has passed, with what each of them found, and `Plan.ofDefinition_eq_ok_iff` says that
these are all there are; `Plan.ofDefinition_eq_error` lists where a definition can be turned away.
Nothing else has to look into the chain.
-/

namespace Reporting

namespace Plan

section Each

variable {α β γ : Type} {check : α → Except ReportError β} {xs : List α} {ys : List β}

/-- Checks that come to the same for each of several things come to the same for all of them. -/
theorem each_congr {check' : α → Except ReportError β} (h : ∀ x ∈ xs, check x = check' x) :
    each check xs = each check' xs := by
  induction xs with
  | nil => rfl
  | cons x rest ih =>
    rw [each, each, h x List.mem_cons_self, ih fun y hy => h y (List.mem_cons_of_mem x hy)]

/-- A check of several things that fails has failed for one of them. -/
theorem exists_of_each_eq_error {e : ReportError} (h : each check xs = .error e) :
    ∃ x ∈ xs, check x = .error e := by
  induction xs with
  | nil => cases h
  | cons x rest ih =>
    rw [each, bind_eq_error_iff] at h
    rcases h with h | ⟨y, -, h⟩
    · exact ⟨x, List.mem_cons_self, h⟩
    · rw [bind_eq_error_iff] at h
      rcases h with h | ⟨ys, -, h⟩
      · obtain ⟨z, hz, h⟩ := ih h
        exact ⟨z, List.mem_cons_of_mem x hz, h⟩
      · cases h

/-- A check of several things goes through exactly if it does for each. -/
theorem each_cons_eq_ok_iff {x : α} : each check (x :: xs) = .ok ys ↔
    ∃ y more, check x = .ok y ∧ each check xs = .ok more ∧ ys = y :: more := by
  simp only [each, bind_eq_ok_iff, Except.ok.injEq, eq_comm (a := ys), exists_and_left]

/-- What is known of each thing checked is known of all of them, in order. -/
theorem map_eq_map_of_each {f : β → γ} {g : α → γ} (h : each check xs = .ok ys)
    (hfg : ∀ x ∈ xs, ∀ y, check x = .ok y → f y = g x) : ys.map f = xs.map g := by
  induction xs generalizing ys with
  | nil =>
    cases h
    rfl
  | cons x rest ih =>
    obtain ⟨y, more, hy, hmore, rfl⟩ := each_cons_eq_ok_iff.1 h
    rw [List.map_cons, List.map_cons, hfg x List.mem_cons_self y hy,
      ih hmore fun z hz => hfg z (List.mem_cons_of_mem x hz)]

theorem exists_of_mem_each {y : β} (h : each check xs = .ok ys) (hy : y ∈ ys) :
    ∃ x ∈ xs, check x = .ok y := by
  induction xs generalizing ys with
  | nil =>
    cases h
    cases hy
  | cons x rest ih =>
    obtain ⟨z, more, hz, hmore, rfl⟩ := each_cons_eq_ok_iff.1 h
    rcases List.mem_cons.1 hy with rfl | hy
    · exact ⟨x, List.mem_cons_self, hz⟩
    · obtain ⟨w, hw, h⟩ := ih hmore hy
      exact ⟨w, List.mem_cons_of_mem x hw, h⟩

theorem exists_of_each {x : α} (h : each check xs = .ok ys) (hx : x ∈ xs) :
    ∃ y ∈ ys, check x = .ok y := by
  induction xs generalizing ys with
  | nil => cases hx
  | cons z rest ih =>
    obtain ⟨y, more, hy, hmore, rfl⟩ := each_cons_eq_ok_iff.1 h
    rcases List.mem_cons.1 hx with rfl | hx
    · exact ⟨y, List.mem_cons_self, hy⟩
    · obtain ⟨w, hw, h⟩ := ih hmore hx
      exact ⟨w, List.mem_cons_of_mem y hw, h⟩

end Each

/-! ## The checks of a definition -/

/-- The checks that a definition has passed, and the plan that they found. -/
structure Stages (r : Registry) (d : Definition) (p : Plan) : Prop where
  slots : slotsOf r d = .ok p.slots
  selected : ∃ selected, each (Slot.locate p.slots) d.fields = .ok selected ∧
    p.selected = firstOccurrences selected
  filters : each (Condition.ofClause p.slots) d.filters = .ok p.filters
  sort : each (SlotKey.ofSortKey p.slots) d.sort = .ok p.sort
  groupBy : groupSlots p.slots [] d.groupBy = .ok p.groupBy
  groupOrder : p.groupOrder = GroupKey.ofSort p.groupBy p.sort
  reductions : reductionsOf p.slots p.selected p.groupBy d.aggregations = .ok p.reductions
  limit : p.limit = d.limit
  offset : p.offset = d.offset

variable {r : Registry} {d : Definition} {p : Plan}

/-- **A plan is what the checks of its definition found.** -/
theorem ofDefinition_eq_ok_iff : ofDefinition r d = .ok p ↔ Stages r d p := by
  simp only [ofDefinition, bind_eq_ok_iff]
  constructor
  · rintro ⟨slots, hslots, selected, hselected, filters, hfilters, sort, hsort, groupBy, hgroupBy,
      reductions, hreductions, h⟩
    cases h
    exact ⟨hslots, ⟨selected, hselected, rfl⟩, hfilters, hsort, hgroupBy, rfl, hreductions, rfl,
      rfl⟩
  · rintro ⟨hslots, ⟨selected, hselected, heq⟩, hfilters, hsort, hgroupBy, horder, hreductions,
      hlimit, hoffset⟩
    refine ⟨_, hslots, _, hselected, _, hfilters, _, hsort, _, hgroupBy, _, heq ▸ hreductions, ?_⟩
    rw [← heq, ← horder, ← hlimit, ← hoffset]

/-- **Where a definition can be turned away.** -/
theorem ofDefinition_eq_error {e : ReportError} (h : ofDefinition r d = .error e) :
    slotsOf r d = .error e ∨ ∃ slots, slotsOf r d = .ok slots ∧
      (each (Slot.locate slots) d.fields = .error e ∨
        each (Condition.ofClause slots) d.filters = .error e ∨
        each (SlotKey.ofSortKey slots) d.sort = .error e ∨
        groupSlots slots [] d.groupBy = .error e ∨
        ∃ selected groupBy, each (Slot.locate slots) d.fields = .ok selected ∧
          groupSlots slots [] d.groupBy = .ok groupBy ∧
          reductionsOf slots (firstOccurrences selected) groupBy d.aggregations = .error e) := by
  simp only [ofDefinition, bind_eq_error_iff, reduceCtorEq, and_false, exists_false, or_false] at h
  refine h.imp_right fun ⟨slots, hslots, h⟩ => ⟨slots, hslots, ?_⟩
  rcases h with h | ⟨selected, hselected, h⟩
  · exact .inl h
  refine .inr (h.imp_right fun ⟨_, _, h⟩ => h.imp_right fun ⟨_, _, h⟩ => h.imp_right ?_)
  rintro ⟨groupBy, hgroupBy, h⟩
  exact ⟨selected, groupBy, hselected, hgroupBy, h⟩

end Plan

end Reporting
