import Reporting.Proofs.Order.Sorting

/-!
# Proofs/Order/Stability — there is one stable way to sort

Sorting by insertion keeps items that the comparison does not tell apart in their order
(`OrdersOn.stablySorted_insertionSortBy`).  Where a comparison orders the items, no other list that is
in order and has these items does so (`OrdersOn.stablySorted_iff`): of two such lists the first items
are not told apart, so each of them is the first of its kind in what was sorted.
-/

namespace Reporting

variable {α : Type} {p : α → Prop} {order : α → α → Ordering} {x : α} {xs ys zs : List α}

/-- The items that a comparison does not tell apart from one. -/
def tied (order : α → α → Ordering) (x : α) (xs : List α) : List α :=
  xs.filter fun y => order x y == .eq

/-- Whether a list is another one sorted stably: it has the items of that in order, and those that are
not told apart are in the order in which they were. -/
structure StablySorted (order : α → α → Ordering) (xs ys : List α) : Prop where
  perm : ys.Perm xs
  inOrder : InOrder order ys
  stable : ∀ x ∈ xs, tied order x ys = tied order x xs

/-- **Stable sorting leaves an order of the items to decide between those that are tied**: if what is
sorted has every two items in some relation, what comes of it has every two of them in order, and in
that relation unless the comparison tells them apart. -/
theorem StablySorted.pairwise {relation : α → α → Prop} (h : StablySorted order xs ys)
    (hrefl : ∀ x ∈ xs, order x x = .eq) (hxs : xs.Pairwise relation) :
    ys.Pairwise fun x y => order x y = .lt ∨ order x y = .eq ∧ relation x y := by
  refine List.pairwise_iff_forall_sublist.2 fun {x y} hxy => ?_
  have hle : order x y ≠ .gt := List.pairwise_iff_forall_sublist.1 h.inOrder hxy
  have hx : x ∈ xs := h.perm.mem_iff.1 (hxy.subset List.mem_cons_self)
  cases hcase : order x y with
  | lt => exact .inl rfl
  | eq =>
    -- The two are tied with the first of them, and what is tied with that is as it was.
    have htied : [x, y].Sublist (tied order x ys) := by
      have hkept : [x, y].filter (fun z => order x z == .eq) = [x, y] := by simp [hrefl x hx, hcase]
      exact hkept ▸ hxy.filter _
    rw [h.stable x hx] at htied
    exact .inr ⟨rfl, List.pairwise_iff_forall_sublist.1 hxs (htied.trans List.filter_sublist)⟩
  | gt => exact absurd hcase hle

/-! ## Insertion is stable -/

/-- What is in order is left as it is. -/
theorem InOrder.insertionSortBy_eq (h : InOrder order xs) : insertionSortBy order xs = xs := by
  induction xs with
  | nil => rfl
  | cons x rest ih =>
    obtain ⟨hhead, hrest⟩ := List.pairwise_cons.1 h
    have hback : ∀ y ∈ rest.head?, order x y ≠ .gt := fun y hy => hhead y (List.mem_of_mem_head? hy)
    have hfront : ∀ y ∈ ([] : List α), order x y = .gt := nofun
    change insertBy order x (insertionSortBy order rest) = x :: rest
    rw [ih hrest]
    exact insertBy_append x hfront hback

namespace OrdersOn

variable (h : OrdersOn p order)
include h

/-- Items that are not told apart from one are in order as they are. -/
theorem inOrder_tied (hx : p x) (hxs : ∀ y ∈ xs, p y) : InOrder order (tied order x xs) := by
  refine List.pairwise_of_forall_mem_list fun a ha b hb => ?_
  obtain ⟨haxs, hxa⟩ := List.mem_filter.1 ha
  obtain ⟨hbxs, hxb⟩ := List.mem_filter.1 hb
  refine h.ne_gt_trans (hxs a haxs) hx (hxs b hbxs) ?_ ?_
  · rw [h.swap hx (hxs a haxs), eq_of_beq hxa]
    decide
  · rw [eq_of_beq hxb]
    decide

/-- **Sorting by insertion is stable.** -/
theorem stablySorted_insertionSortBy (hxs : ∀ x ∈ xs, p x) :
    StablySorted order xs (insertionSortBy order xs) where
  perm := insertionSortBy_perm xs
  inOrder := h.inOrder_insertionSortBy hxs
  stable x hx := by
    rw [tied, h.filter_insertionSortBy _ hxs]
    exact (h.inOrder_tied (hxs x hx) hxs).insertionSortBy_eq

/-! ## Nothing else is -/

/-- Lists in order with the same items begin with items that are not told apart. -/
theorem eq_of_inOrder_of_perm {y z : α} (hys : ∀ x ∈ y :: ys, p x)
    (hperm : (y :: ys).Perm (z :: zs)) (hy : InOrder order (y :: ys))
    (hz : InOrder order (z :: zs)) : order y z = .eq := by
  have hfirst : ∀ {a b : α} {as : List α}, p a → InOrder order (a :: as) → b ∈ a :: as →
      order a b ≠ .gt := by
    intro a b as ha has hb
    rcases List.mem_cons.1 hb with rfl | hb
    · rw [h.refl ha]
      decide
    · exact (List.pairwise_cons.1 has).1 b hb
  have hpy : p y := hys y List.mem_cons_self
  have hpz : p z := hys z (hperm.mem_iff.2 List.mem_cons_self)
  have hyz : order y z ≠ .gt := hfirst hpy hy (hperm.mem_iff.2 List.mem_cons_self)
  have hzy : order z y ≠ .gt := hfirst hpz hz (hperm.mem_iff.1 List.mem_cons_self)
  rw [h.swap hpy hpz] at hzy
  cases hcase : order y z with
  | lt =>
    rw [hcase] at hzy
    exact absurd rfl hzy
  | eq => rfl
  | gt => exact absurd hcase hyz

/-- **Lists in order are equal** if they have the same items, and those that are not told apart in the
same order. -/
theorem eq_of_tied_eq (hys : ∀ x ∈ ys, p x) (hperm : ys.Perm zs) (hy : InOrder order ys)
    (hz : InOrder order zs) (htied : ∀ x ∈ ys, tied order x ys = tied order x zs) : ys = zs := by
  induction ys generalizing zs with
  | nil => exact hperm.nil_eq
  | cons y ys ih =>
    cases zs with
    | nil => exact absurd hperm.eq_nil (List.cons_ne_nil y ys)
    | cons z zs =>
      -- Both heads are tied with the first, so they are the heads of what is tied with it.
      have hyy : order y y = .eq := h.refl (hys y List.mem_cons_self)
      have hyz : order y z = .eq := h.eq_of_inOrder_of_perm hys hperm hy hz
      have hfirst := htied y List.mem_cons_self
      rw [tied, tied, List.filter_cons_of_pos (by simp [hyy]),
        List.filter_cons_of_pos (by simp [hyz])] at hfirst
      obtain rfl : y = z := (List.cons.inj hfirst).1
      congr 1
      refine ih (fun x hx => hys x (List.mem_cons_of_mem y hx)) hperm.cons_inv
        (List.pairwise_cons.1 hy).2 (List.pairwise_cons.1 hz).2 fun x hx => ?_
      have hx := htied x (List.mem_cons_of_mem y hx)
      rw [tied, tied, List.filter_cons, List.filter_cons] at hx
      split at hx
      · exact (List.cons.inj hx).2
      · exact hx

/-- **There is one stable way to sort**, by insertion. -/
theorem stablySorted_iff (hxs : ∀ x ∈ xs, p x) :
    StablySorted order xs ys ↔ ys = insertionSortBy order xs := by
  have hsorted := h.stablySorted_insertionSortBy hxs
  constructor
  · intro hys
    have hmem : ∀ {x}, x ∈ ys → x ∈ xs := fun hx => hys.perm.mem_iff.1 hx
    exact h.eq_of_tied_eq (fun x hx => hxs x (hmem hx)) (hys.perm.trans hsorted.perm.symm)
      hys.inOrder hsorted.inOrder fun x hx => (hys.stable x (hmem hx)).trans
        (hsorted.stable x (hmem hx)).symm
  · rintro rfl
    exact hsorted

end OrdersOn

end Reporting
