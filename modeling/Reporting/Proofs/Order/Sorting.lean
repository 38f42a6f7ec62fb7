import Reporting.Proofs.Order.Comparison
import Reporting.Query.Meaning

/-!
# Proofs/Order/Sorting — sorting by merging is sorting by insertion

Runs sort by merging, the meaning of a definition by insertion.  Where a comparison orders what it is
given both come out alike (`sortBy_eq_insertionSortBy`): merging puts the first item behind those
that it comes after and leaves the others as they were, which is what insertion does.  Insertion is
easy to reason about; in particular it commutes with reading the items in another form
(`map_insertionSortBy`) and with leaving some of them out (`OrdersOn.filter_insertionSortBy`).
-/

namespace Reporting

variable {α β : Type} {order : α → α → Ordering}

/-! ## Insertion -/

theorem insertBy_perm (x : α) (xs : List α) : (insertBy order x xs).Perm (x :: xs) := by
  induction xs with
  | nil => exact .refl _
  | cons y rest ih =>
    rw [insertBy]
    split
    · exact (ih.cons y).trans (.swap x y rest)
    · exact .refl _

/-- **Sorting loses nothing.** -/
theorem insertionSortBy_perm (xs : List α) : (insertionSortBy order xs).Perm xs := by
  induction xs with
  | nil => exact .refl _
  | cons x rest ih => exact (insertBy_perm x _).trans (ih.cons x)

/-- An item goes behind those that it comes after. -/
theorem insertBy_append (x : α) {front back : List α} (hfront : ∀ y ∈ front, order x y = .gt)
    (hback : ∀ y ∈ back.head?, order x y ≠ .gt) :
    insertBy order x (front ++ back) = front ++ x :: back := by
  induction front with
  | nil =>
    cases back with
    | nil => rfl
    | cons y rest => rw [List.nil_append, insertBy, if_neg (hback y rfl), List.nil_append]
  | cons y rest ih =>
    rw [List.cons_append, insertBy, if_pos (hfront y List.mem_cons_self),
      ih fun z hz => hfront z (List.mem_cons_of_mem y hz), List.cons_append]

/-- **Sorting may be done before or after items are read in another form.** -/
theorem map_insertionSortBy {order' : β → β → Ordering} {f : α → β}
    (h : ∀ a b, order a b = order' (f a) (f b)) (xs : List α) :
    (insertionSortBy order xs).map f = insertionSortBy order' (xs.map f) := by
  have hinsert : ∀ (x : α) (ys : List α),
      (insertBy order x ys).map f = insertBy order' (f x) (ys.map f) := by
    intro x ys
    induction ys with
    | nil => rfl
    | cons y rest ih =>
      simp only [insertBy, List.map_cons, h x y]
      split
      · rw [List.map_cons, ih]
      · rfl
  induction xs with
  | nil => rfl
  | cons x rest ih =>
    change (insertBy order x (insertionSortBy order rest)).map f = _
    rw [hinsert, ih]
    rfl

/-- Items that an order does not tell apart stay as they are. -/
theorem insertionSortBy_of_forall_eq (h : ∀ a b, order a b = .eq) (xs : List α) :
    insertionSortBy order xs = xs := by
  induction xs with
  | nil => rfl
  | cons x rest ih =>
    change insertBy order x (insertionSortBy order rest) = _
    rw [ih]
    cases rest with
    | nil => rfl
    | cons y rest => rw [insertBy, if_neg (by simp [h x y])]

/-! ## Leaving items out -/

/-- Whether no item comes after one that follows it. -/
def InOrder (order : α → α → Ordering) (xs : List α) : Prop :=
  xs.Pairwise fun a b => order a b ≠ .gt

instance (order : α → α → Ordering) (xs : List α) : Decidable (InOrder order xs) :=
  inferInstanceAs (Decidable (xs.Pairwise fun a b => order a b ≠ .gt))

variable {p : α → Prop}

/-- **Insertion keeps items in order.** -/
theorem OrdersOn.inOrder_insertBy (h : OrdersOn p order) {x : α} {xs : List α} (hx : p x)
    (hxs : ∀ y ∈ xs, p y) (hsorted : InOrder order xs) : InOrder order (insertBy order x xs) := by
  induction xs with
  | nil => exact List.pairwise_singleton _ x
  | cons y rest ih =>
    have hy : p y := hxs y List.mem_cons_self
    have hrest : ∀ z ∈ rest, p z := fun z hz => hxs z (List.mem_cons_of_mem y hz)
    obtain ⟨hhead, htail⟩ := List.pairwise_cons.1 hsorted
    rw [insertBy]
    split
    · rename_i hgt
      refine List.pairwise_cons.2 ⟨fun z hz => ?_, ih hrest htail⟩
      rcases List.mem_cons.1 ((insertBy_perm x rest).mem_iff.1 hz) with rfl | hz
      · rw [h.swap hx hy, hgt]
        decide
      · exact hhead z hz
    · rename_i hle
      refine List.pairwise_cons.2 ⟨fun z hz => ?_, hsorted⟩
      rcases List.mem_cons.1 hz with rfl | hz
      · exact hle
      · exact h.ne_gt_trans hx hy (hrest z hz) hle (hhead z hz)

/-- **What is sorted is in order.** -/
theorem OrdersOn.inOrder_insertionSortBy (h : OrdersOn p order) {xs : List α}
    (hxs : ∀ x ∈ xs, p x) : InOrder order (insertionSortBy order xs) := by
  induction xs with
  | nil => exact .nil
  | cons x rest ih =>
    have hrest : ∀ y ∈ rest, p y := fun y hy => hxs y (List.mem_cons_of_mem x hy)
    refine h.inOrder_insertBy (hxs x List.mem_cons_self) (fun y hy => hrest y ?_) (ih hrest)
    exact (insertionSortBy_perm rest).mem_iff.1 hy

/-- An item that is left out need not be put in. -/
theorem filter_insertBy_of_neg {keep : α → Bool} {x : α} (hx : ¬ keep x) (xs : List α) :
    (insertBy order x xs).filter keep = xs.filter keep := by
  induction xs with
  | nil => rw [insertBy, List.filter_cons_of_neg hx]
  | cons y rest ih =>
    rw [insertBy]
    split
    · rw [List.filter_cons, List.filter_cons, ih]
    · rw [List.filter_cons_of_neg hx]

/-- An item that is kept goes to the same place among those that are kept. -/
theorem OrdersOn.filter_insertBy_of_pos (h : OrdersOn p order) {keep : α → Bool} {x : α}
    {xs : List α} (hkeep : keep x) (hx : p x) (hxs : ∀ y ∈ xs, p y) (hsorted : InOrder order xs) :
    (insertBy order x xs).filter keep = insertBy order x (xs.filter keep) := by
  induction xs with
  | nil => rw [insertBy, List.filter_cons_of_pos hkeep, List.filter_nil, insertBy]
  | cons y rest ih =>
    have hy : p y := hxs y List.mem_cons_self
    have hrest : ∀ z ∈ rest, p z := fun z hz => hxs z (List.mem_cons_of_mem y hz)
    obtain ⟨hhead, htail⟩ := List.pairwise_cons.1 hsorted
    by_cases hgt : order x y = .gt
    · rw [insertBy, if_pos hgt, List.filter_cons, List.filter_cons, ih hrest htail]
      split
      · rw [insertBy, if_pos hgt]
      · rfl
    · -- Whatever is kept of the items from `y` on, `x` comes after none of it.
      have hnone : ∀ z ∈ (y :: rest).filter keep, order x z ≠ .gt := by
        intro z hz
        rcases List.mem_cons.1 (List.mem_filter.1 hz).1 with rfl | hz
        · exact hgt
        · exact h.ne_gt_trans hx hy (hrest z hz) hgt (hhead z hz)
      rw [insertBy, if_neg hgt, List.filter_cons_of_pos hkeep]
      have hfront : ∀ y ∈ ([] : List α), order x y = .gt := nofun
      exact (insertBy_append x hfront fun z hz => hnone z (List.mem_of_mem_head? hz)).symm

/-- **Items may be left out before or after sorting.** -/
theorem OrdersOn.filter_insertionSortBy (h : OrdersOn p order) (keep : α → Bool) {xs : List α}
    (hxs : ∀ x ∈ xs, p x) :
    (insertionSortBy order xs).filter keep = insertionSortBy order (xs.filter keep) := by
  induction xs with
  | nil => rfl
  | cons x rest ih =>
    have hrest : ∀ y ∈ rest, p y := fun y hy => hxs y (List.mem_cons_of_mem x hy)
    change (insertBy order x (insertionSortBy order rest)).filter keep = _
    by_cases hkeep : keep x
    · rw [List.filter_cons_of_pos hkeep, h.filter_insertBy_of_pos hkeep (hxs x List.mem_cons_self)
        (fun y hy => hrest y ((insertionSortBy_perm rest).mem_iff.1 hy))
        (h.inOrder_insertionSortBy hrest), ih hrest]
      rfl
    · rw [List.filter_cons_of_neg hkeep, filter_insertBy_of_neg hkeep, ih hrest]

/-! ## Merging -/

/-- Merging and insertion under a comparison that orders everything. -/
theorem mergeSort_eq_insertionSortBy [h : Std.TransCmp order] (xs : List α) :
    xs.mergeSort (fun a b => order a b != .gt) = insertionSortBy order xs := by
  have htrans : ∀ a b c : α, (order a b != .gt) = true → (order b c != .gt) = true →
      (order a c != .gt) = true := by
    simp only [bne_iff_ne, ← Ordering.isLE_iff_ne_gt]
    exact fun a b c => h.isLE_trans
  have htotal : ∀ a b : α, (order a b != .gt || order b a != .gt) = true := by
    intro a b
    rw [h.eq_swap (a := b) (b := a)]
    cases order a b <;> rfl
  induction xs with
  | nil => simp [insertionSortBy]
  | cons x rest ih =>
    obtain ⟨front, back, hcons, hrest, hfront⟩ := List.mergeSort_cons htrans htotal x rest
    have hsorted := List.pairwise_mergeSort htrans htotal (x :: rest)
    rw [hcons, List.pairwise_append, List.pairwise_cons] at hsorted
    change _ = insertBy order x (insertionSortBy order rest)
    rw [hcons, ← ih, hrest]
    refine (insertBy_append x (fun y hy => ?_) fun y hy => ?_).symm
    · simpa using hfront y hy
    · exact bne_iff_ne.1 (hsorted.2.1.1 y (List.mem_of_mem_head? hy))

/-- **Sorting by merging is sorting by insertion**, where the comparison orders what is sorted. -/
theorem sortBy_eq_insertionSortBy (h : OrdersOn p order) {xs : List α}
    (hp : ∀ x ∈ xs, p x) : sortBy order xs = insertionSortBy order xs := by
  have : Std.TransCmp fun a b : {x // p x} => order a.1 b.1 := h
  obtain ⟨ys, rfl⟩ : ∃ ys : List {x // p x}, ys.map Subtype.val = xs :=
    ⟨xs.attachWith p hp, List.attachWith_map_subtype_val hp⟩
  calc sortBy order (ys.map Subtype.val)
      = (ys.mergeSort fun a b => order a.1 b.1 != .gt).map Subtype.val :=
        (List.map_mergeSort (f := Subtype.val) fun _ _ _ _ => rfl).symm
    _ = (insertionSortBy (fun a b => order a.1 b.1) ys).map Subtype.val := by
        rw [mergeSort_eq_insertionSortBy]
    _ = insertionSortBy order (ys.map Subtype.val) :=
        map_insertionSortBy (f := Subtype.val) (fun _ _ => rfl) ys

/-- **Sorting by several keys is sorting by insertion**; without a key there is nothing to do. -/
theorem sortBy_firstDecision {κ : Type} {cmp : κ → α → α → Ordering} {keys : List κ}
    {p : α → Prop} (h : ∀ key ∈ keys, OrdersOn p (cmp key)) {xs : List α} (hp : ∀ x ∈ xs, p x) :
    (if keys.isEmpty then xs
      else sortBy (fun a b => firstDecision (keys.map fun key => cmp key a b)) xs) =
      insertionSortBy (fun a b => firstDecision (keys.map fun key => cmp key a b)) xs := by
  split
  · rename_i hempty
    rw [List.isEmpty_iff.1 hempty]
    exact (insertionSortBy_of_forall_eq (fun _ _ => rfl) xs).symm
  · exact sortBy_eq_insertionSortBy (.firstDecision h) hp

end Reporting
