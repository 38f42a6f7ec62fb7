import Reporting.Query.Order

/-!
# Proofs/Order/Comparison — comparisons that order what has a property

Values of different types are not compared, so the comparisons of this library order only what is of
one kind.  `OrdersOn p order` says that `order` ranks the things with the property `p`: turning the
sides round reverses the answer, and what comes no later than something comes no later than all that
follows it.  The lemmas build such comparisons from others, as sort keys are built from the order of
values: read through a function, reversed, with absent values last, one after another.
-/

namespace Reporting

variable {α β : Type} {p : α → Prop} {order : α → α → Ordering}

/-- Whether a comparison ranks the things that have a property. -/
def OrdersOn (p : α → Prop) (order : α → α → Ordering) : Prop :=
  Std.TransCmp fun a b : {x // p x} => order a.1 b.1

/-- A comparison that puts what is absent last. -/
def absentLast (order : α → α → Ordering) : Option α → Option α → Ordering
  | none, none => .eq
  | none, some _ => .gt
  | some _, none => .lt
  | some a, some b => order a b

namespace OrdersOn

theorem swap (h : OrdersOn p order) {a b : α} (ha : p a) (hb : p b) :
    order b a = (order a b).swap :=
  h.eq_swap (a := ⟨b, hb⟩) (b := ⟨a, ha⟩)

theorem trans (h : OrdersOn p order) {a b c : α} (ha : p a) (hb : p b) (hc : p c)
    (hab : (order a b).isLE) (hbc : (order b c).isLE) : (order a c).isLE :=
  h.isLE_trans (a := ⟨a, ha⟩) (b := ⟨b, hb⟩) (c := ⟨c, hc⟩) hab hbc

/-- What does not come after something comes after nothing that follows it. -/
theorem ne_gt_trans (h : OrdersOn p order) {a b c : α} (ha : p a) (hb : p b) (hc : p c)
    (hab : order a b ≠ .gt) (hbc : order b c ≠ .gt) : order a c ≠ .gt :=
  Ordering.isLE_iff_ne_gt.1
    (h.trans ha hb hc (Ordering.isLE_iff_ne_gt.2 hab) (Ordering.isLE_iff_ne_gt.2 hbc))

theorem refl (h : OrdersOn p order) {a : α} (ha : p a) : order a a = .eq := by
  have hswap := h.swap ha ha
  cases hcase : order a a <;> simp_all

/-- Either side may be taken for what is not told apart from it. -/
theorem congr (h : OrdersOn p order) {a a' b b' : α} (ha : p a) (ha' : p a') (hb : p b) (hb' : p b')
    (haa' : order a a' = .eq) (hbb' : order b b' = .eq) : order a b = order a' b' := by
  have : Std.TransCmp fun a b : {x // p x} => order a.1 b.1 := h
  calc order a b = order a' b := this.congr_left (a := ⟨a, ha⟩) (b := ⟨a', ha'⟩) (c := ⟨b, hb⟩) haa'
    _ = order a' b' := this.congr_right (a := ⟨a', ha'⟩) (b := ⟨b, hb⟩) (c := ⟨b', hb'⟩) hbb'

/-- Reading both sides through a function keeps a comparison in order. -/
theorem comap {q : β → Prop} {cmp : β → β → Ordering} (h : OrdersOn q cmp) (f : α → β)
    (hf : ∀ a, p a → q (f a)) (heq : ∀ a b, p a → p b → order a b = cmp (f a) (f b)) :
    OrdersOn p order where
  eq_swap {a b} := by
    rw [heq _ _ a.2 b.2, heq _ _ b.2 a.2]
    exact h.swap (hf _ b.2) (hf _ a.2)
  isLE_trans {a b c} := by
    rw [heq _ _ a.2 b.2, heq _ _ b.2 c.2, heq _ _ a.2 c.2]
    exact h.trans (hf _ a.2) (hf _ b.2) (hf _ c.2)

/-- A comparison that ranks all things ranks those with a property. -/
theorem of_transCmp [h : Std.TransCmp order] : OrdersOn p order where
  eq_swap := h.eq_swap
  isLE_trans := h.isLE_trans

/-- A comparison of keys that are ordered themselves. -/
theorem of_key (cmp : β → β → Ordering) [Std.TransCmp cmp] (key : α → β)
    (heq : ∀ a b, p a → p b → order a b = cmp (key a) (key b)) : OrdersOn p order :=
  (of_transCmp (p := fun _ => True)).comap key (fun _ _ => trivial) heq

theorem reverse (h : OrdersOn p order) : OrdersOn p fun a b => (order a b).swap := by
  have heq : (fun a b : {x // p x} => (order a.1 b.1).swap) = fun a b => order b.1 a.1 := by
    ext a b : 2
    exact (h.swap a.2 b.2).symm
  rw [OrdersOn, heq]
  have : Std.TransCmp fun a b : {x // p x} => order a.1 b.1 := h
  exact inferInstanceAs (Std.TransCmp fun a b : {x // p x} => order b.1 a.1)

theorem andThen {other : α → α → Ordering} (h : OrdersOn p order) (h' : OrdersOn p other) :
    OrdersOn p fun a b => (order a b).then (other a b) :=
  have : Std.TransCmp fun a b : {x // p x} => order a.1 b.1 := h
  have : Std.TransCmp fun a b : {x // p x} => other a.1 b.1 := h'
  inferInstanceAs (Std.TransCmp (compareLex (fun a b : {x // p x} => order a.1 b.1)
    fun a b : {x // p x} => other a.1 b.1))

/-- Comparisons that rank what has a property still do so one after another. -/
theorem firstDecision {κ : Type} {cmp : κ → α → α → Ordering} {keys : List κ}
    (h : ∀ key ∈ keys, OrdersOn p (cmp key)) :
    OrdersOn p fun a b => firstDecision (keys.map fun key => cmp key a b) := by
  induction keys with
  | nil => exact .of_key (compare : Nat → Nat → Ordering) (fun _ => 0) fun _ _ _ _ => rfl
  | cons key rest ih =>
    exact (h key List.mem_cons_self).andThen (ih fun k hk => h k (List.mem_cons_of_mem key hk))

/-- What may be absent is ordered like what is there. -/
theorem absentLast (h : OrdersOn p order) :
    OrdersOn (fun x : Option α => ∀ a ∈ x, p a) (absentLast order) where
  eq_swap {a b} := by
    obtain ⟨_ | a, ha⟩ := a <;> obtain ⟨_ | b, hb⟩ := b
    case some.some => exact h.swap (hb b rfl) (ha a rfl)
    all_goals rfl
  isLE_trans {a b c} := by
    obtain ⟨_ | a, ha⟩ := a <;> obtain ⟨_ | b, hb⟩ := b <;> obtain ⟨_ | c, hc⟩ := c
    case some.some.some => exact h.trans (ha a rfl) (hb b rfl) (hc c rfl)
    all_goals simp [Reporting.absentLast]

end OrdersOn

end Reporting
