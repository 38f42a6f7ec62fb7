import Reporting.Proofs.Value.Cell

/-!
# Proofs/Value/Extremes — the least and the greatest of some values

What is kept of several values, one against the next, is one of them, and if they suit one type it has
all of them on one side (`bounds_of_mem_keptOf`).  Which of equal values is kept depends on their order:
the first if it is the least that is sought, the last if it is the greatest.  But equal values are
written alike, so what is written of an extreme is known from the values, in whatever order they come
(`Value.Favours.cellOrNull_keptOf_perm`).
-/

namespace Reporting

/-! ## Choices -/

section Choices

variable {α : Type} {choose : α → α → α} {xs : List α}

/-- What is kept of several things, one against the next. -/
def keptOf (choose : α → α → α) : List α → Option α
  | [] => none
  | x :: rest => some (rest.foldl choose x)

theorem keptOf_eq_none_iff : keptOf choose xs = none ↔ xs = [] := by cases xs <;> simp [keptOf]

/-- What is kept of several things is one of them. -/
theorem mem_of_mem_keptOf (hchoose : ∀ a b, choose a b = a ∨ choose a b = b) {best : α}
    (h : best ∈ keptOf choose xs) : best ∈ xs := by
  have hfold : ∀ (x : α) (rest : List α), rest.foldl choose x ∈ x :: rest := by
    intro x rest
    induction rest generalizing x with
    | nil => exact List.mem_singleton.2 rfl
    | cons y rest ih =>
      rw [List.foldl_cons]
      rcases hchoose x y with heq | heq
      · rw [heq]
        exact List.mem_cons.2 ((List.mem_cons.1 (ih x)).imp_right (List.mem_cons_of_mem y))
      · rw [heq]
        exact List.mem_cons_of_mem x (ih y)
  cases xs with
  | nil => cases h
  | cons x rest =>
    obtain rfl := Option.some.inj h
    exact hfold x rest

/-- **What is kept of several things bounds them all**, if it bounds the two that it is kept of. -/
theorem bounds_of_mem_keptOf {p : α → Prop} {bounds : α → α → Prop}
    (hchoose : ∀ a b, choose a b = a ∨ choose a b = b)
    (hbounds : ∀ a b, p a → p b → bounds (choose a b) a ∧ bounds (choose a b) b)
    (htrans : ∀ a b c, p a → p b → p c → bounds a b → bounds b c → bounds a c)
    (hp : ∀ y ∈ xs, p y) {best : α} (h : best ∈ keptOf choose xs) : ∀ y ∈ xs, bounds best y := by
  cases xs with
  | nil => cases h
  | cons x rest =>
    -- What is kept of the first two is the first item of the rest, and bounds both.
    induction rest generalizing x with
    | nil =>
      obtain rfl := Option.some.inj h
      intro y hy
      obtain rfl := List.mem_singleton.1 hy
      have hself := (hbounds y y (hp y hy) (hp y hy)).1
      rwa [(hchoose y y).elim id id] at hself
    | cons z rest ih =>
      have hx : p x := hp x List.mem_cons_self
      have hz : p z := hp z (List.mem_cons_of_mem x List.mem_cons_self)
      have hkept : p (choose x z) := by rcases hchoose x z with heq | heq <;> rwa [heq]
      have hrest : ∀ y ∈ choose x z :: rest, p y := by
        intro y hy
        rcases List.mem_cons.1 hy with rfl | hy
        · exact hkept
        · exact hp y (List.mem_cons_of_mem x (List.mem_cons_of_mem z hy))
      have hbest : p best := hrest best (mem_of_mem_keptOf hchoose h)
      have hkeptBounded := ih (choose x z) hrest h (choose x z) List.mem_cons_self
      intro y hy
      rcases List.mem_cons.1 hy with rfl | hy
      · exact htrans _ _ _ hbest hkept hx hkeptBounded (hbounds _ z hx hz).1
      rcases List.mem_cons.1 hy with rfl | hy
      · exact htrans _ _ _ hbest hkept hz hkeptBounded (hbounds x _ hx hz).2
      · exact ih (choose x z) hrest h y (List.mem_cons_of_mem _ hy)

end Choices

/-! ## What does not come after -/

namespace Value

variable {type : FieldType} {a b c : Value}

/-- Whether a value does not come after another. -/
def NotAfter (a b : Value) : Prop := a.compare? b ≠ some .gt

theorem notAfter_iff (a b : Value) : a.NotAfter b ↔ (a.compare? b).getD .eq ≠ .gt := by
  rw [NotAfter]
  cases a.compare? b <;> simp

/-- Values of a type compared the other way round give the answer reversed. -/
theorem Suits.compare?_swap (ha : a.Suits type) (hb : b.Suits type) {o : Ordering}
    (h : a.compare? b = some o) : b.compare? a = some o.swap := by
  have hswap : (b.compare? a).getD .eq = ((a.compare? b).getD .eq).swap :=
    (ordersOn_compare? type).swap ha hb
  obtain ⟨o', ho'⟩ := Option.isSome_iff_exists.1 (isSome_compare? hb ha)
  rw [h, ho'] at hswap
  rw [ho']
  exact congrArg some hswap

theorem Suits.notAfter_refl (ha : a.Suits type) : a.NotAfter a := by
  have hrefl : (a.compare? a).getD .eq = .eq := (ordersOn_compare? type).refl ha
  rw [notAfter_iff, hrefl]
  decide

theorem Suits.notAfter_trans (ha : a.Suits type) (hb : b.Suits type) (hc : c.Suits type)
    (hab : a.NotAfter b) (hbc : b.NotAfter c) : a.NotAfter c := by
  rw [notAfter_iff] at hab hbc ⊢
  exact (ordersOn_compare? type).ne_gt_trans ha hb hc hab hbc

theorem Suits.notAfter_of_gt (ha : a.Suits type) (hb : b.Suits type)
    (h : a.compare? b = some .gt) : b.NotAfter a := by
  rw [NotAfter, ha.compare?_swap hb h]
  decide

/-- **Values of a type neither of which comes after the other are equal.** -/
theorem Suits.same_of_notAfter (ha : a.Suits type) (hb : b.Suits type) (hab : a.NotAfter b)
    (hba : b.NotAfter a) : a.same b := by
  obtain ⟨o, ho⟩ := Option.isSome_iff_exists.1 (isSome_compare? ha hb)
  rw [same_iff_compare?, ho]
  cases o with
  | eq => rfl
  | gt => exact absurd ho hab
  | lt => exact absurd (ha.compare?_swap hb ho) hba

end Value

/-! ## Extremes -/

/-- Whether a choice between values of a type keeps the one that bounds the other, where values that
bound each other are equal. -/
structure Value.Favours (type : FieldType) (choose : Value → Value → Value)
    (bounds : Value → Value → Prop) : Prop where
  chooses : ∀ a b, choose a b = a ∨ choose a b = b
  bounded : ∀ a b : Value, a.Suits type → b.Suits type →
    bounds (choose a b) a ∧ bounds (choose a b) b
  trans : ∀ a b c : Value, a.Suits type → b.Suits type → c.Suits type → bounds a b → bounds b c →
    bounds a c
  same : ∀ a b : Value, a.Suits type → b.Suits type → bounds a b → bounds b a → a.same b

/-- The smaller of two values, the first of equal ones. -/
def Value.lower (best x : Value) : Value := if best.compare? x = some .gt then x else best

/-- The larger of two values, the second of equal ones. -/
def Value.upper (best x : Value) : Value := if best.compare? x = some .gt then best else x

theorem least?_eq_keptOf (vs : List Value) : least? vs = keptOf Value.lower vs := by
  cases vs <;> rfl

theorem greatest?_eq_keptOf (vs : List Value) : greatest? vs = keptOf Value.upper vs := by
  cases vs <;> rfl

variable {type : FieldType} {vs vs' : List Value} {best : Value}

/-- **The least value comes after no other.** -/
theorem Value.favours_lower (type : FieldType) : Favours type lower NotAfter where
  chooses a b := by
    rw [lower]
    split
    · exact .inr rfl
    · exact .inl rfl
  bounded a b ha hb := by
    rw [lower]
    split
    · exact ⟨ha.notAfter_of_gt hb ‹_›, hb.notAfter_refl⟩
    · exact ⟨ha.notAfter_refl, ‹_›⟩
  trans _ _ _ := Suits.notAfter_trans
  same _ _ := Suits.same_of_notAfter

/-- **No other value comes after the greatest.** -/
theorem Value.favours_upper (type : FieldType) : Favours type upper fun a b => b.NotAfter a where
  chooses a b := by
    rw [upper]
    split
    · exact .inl rfl
    · exact .inr rfl
  bounded a b ha hb := by
    rw [upper]
    split
    · exact ⟨ha.notAfter_refl, ha.notAfter_of_gt hb ‹_›⟩
    · exact ⟨‹_›, hb.notAfter_refl⟩
  trans _ _ _ ha hb hc hab hbc := hc.notAfter_trans hb ha hbc hab
  same _ _ ha hb hab hba := ha.same_of_notAfter hb hba hab

theorem mem_of_mem_least? (h : best ∈ least? vs) : best ∈ vs :=
  mem_of_mem_keptOf (Value.favours_lower .text).chooses (least?_eq_keptOf vs ▸ h)

theorem mem_of_mem_greatest? (h : best ∈ greatest? vs) : best ∈ vs :=
  mem_of_mem_keptOf (Value.favours_upper .text).chooses (greatest?_eq_keptOf vs ▸ h)

/-- **What is written of an extreme does not depend on the order of the values.**  Whichever of equal
values is kept, it is written like the others. -/
theorem Value.Favours.cellOrNull_keptOf_perm {choose : Value → Value → Value}
    {bounds : Value → Value → Prop} (hchoose : Favours type choose bounds) (h : vs.Perm vs')
    (hvs : ∀ v ∈ vs, v.Suits type) :
    cellOrNull (keptOf choose vs) = cellOrNull (keptOf choose vs') := by
  have hvs' : ∀ v ∈ vs', v.Suits type := fun v hv => hvs v (h.mem_iff.2 hv)
  cases hkept : keptOf choose vs with
  | none =>
    rw [keptOf_eq_none_iff] at hkept
    rw [hkept, List.nil_perm] at h
    rw [h, keptOf]
  | some a =>
    cases hkept' : keptOf choose vs' with
    | none =>
      rw [keptOf_eq_none_iff] at hkept'
      rw [hkept', List.perm_nil] at h
      rw [h] at hkept
      cases hkept
    | some b =>
      have ha : a ∈ vs := mem_of_mem_keptOf hchoose.chooses hkept
      have hb : b ∈ vs' := mem_of_mem_keptOf hchoose.chooses hkept'
      have hab : bounds a b := bounds_of_mem_keptOf hchoose.chooses hchoose.bounded hchoose.trans
        hvs hkept b (h.mem_iff.2 hb)
      have hba : bounds b a := bounds_of_mem_keptOf hchoose.chooses hchoose.bounded hchoose.trans
        hvs' hkept' a (h.mem_iff.1 ha)
      exact cell_eq_of_same (hchoose.same a b (hvs a ha) (hvs' b hb) hab hba)

end Reporting
