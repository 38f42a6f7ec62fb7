import Reporting.Query.Meaning

/-!
# Proofs/Query/Grouping — groups are found where they were put

Rows are grouped with an index from keys to places in a list of groups that grows.  `Grouping.Sound`
ties the three together: after some rows, the groups are those of the leaders among them, each with
the rows like it, and the index has for every key the place of its leader.  A row keeps that up
(`Sound.insert`), whether its group is there (`Sound.modify`) or not (`Sound.append`), so
`RowGroup.collect` is what is said without an index (`RowGroup.collect_eq`), and no place is ever
beyond the groups (`Sound.place_lt`).
-/

namespace Reporting

/-! ## Leaders -/

section Leaders

variable {α β κ : Type} {alike : α → α → Bool}

/-- The leaders are some of the items, in their order. -/
theorem leaders_sublist (xs : List α) : (leaders alike xs).Sublist xs := by
  induction xs with
  | nil => exact .slnil
  | cons x rest ih => exact (List.filter_sublist.trans ih).cons_cons x

theorem mem_of_mem_leaders {xs : List α} {x : α} (h : x ∈ leaders alike xs) : x ∈ xs :=
  (leaders_sublist xs).subset h

/-- An item at the end leads if it is not like any before. -/
theorem leaders_concat (xs : List α) (x : α) :
    leaders alike (xs ++ [x]) =
      leaders alike xs ++ if xs.any (alike · x) then [] else [x] := by
  induction xs with
  | nil => rfl
  | cons y rest ih =>
    rw [List.cons_append, leaders, ih, leaders, List.filter_append, List.any_cons]
    cases halike : alike y x <;> cases rest.any (alike · x) <;> simp [halike]

/-- No leader is like one before it. -/
theorem pairwise_leaders (xs : List α) :
    (leaders alike xs).Pairwise fun a b => alike a b = false := by
  induction xs with
  | nil => exact .nil
  | cons x rest ih =>
    refine List.pairwise_cons.2 ⟨fun y hy => ?_, ih.filter _⟩
    simpa using (List.mem_filter.1 hy).2

/-- **Every item is like a leader**, where being alike is having one key. -/
theorem exists_leader {key : α → κ} (hkey : ∀ a b, alike a b ↔ key a = key b) {xs : List α} {x : α}
    (hx : x ∈ xs) : ∃ leader ∈ leaders alike xs, key leader = key x := by
  induction xs with
  | nil => cases hx
  | cons y rest ih =>
    by_cases hy : key y = key x
    · exact ⟨y, List.mem_cons_self, hy⟩
    · rcases List.mem_cons.1 hx with rfl | hx
      · exact absurd rfl hy
      · obtain ⟨leader, hleader, heq⟩ := ih hx
        refine ⟨leader, List.mem_cons_of_mem y (List.mem_filter.2 ⟨hleader, ?_⟩), heq⟩
        rw [Bool.not_eq_true', ← Bool.not_eq_true, hkey, heq]
        exact hy

/-- **Leaders come in the order of the places at which the first item like them is**, where being alike
is having one key. -/
theorem pairwise_findIdx_leaders {key : α → κ} (hkey : ∀ a b, alike a b ↔ key a = key b)
    (xs : List α) :
    (leaders alike xs).Pairwise fun a b => xs.findIdx (alike a) < xs.findIdx (alike b) := by
  induction xs with
  | nil => exact .nil
  | cons x rest ih =>
    have hself : (x :: rest).findIdx (alike x) = 0 := by
      rw [List.findIdx_cons, (hkey x x).2 rfl, cond_true]
    have hother : ∀ y ∈ (leaders alike rest).filter (!alike x ·),
        (x :: rest).findIdx (alike y) = rest.findIdx (alike y) + 1 := by
      intro y hy
      have hxy : ¬ alike y x := fun hyx => by
        have hnot := (List.mem_filter.1 hy).2
        rw [(hkey x y).2 ((hkey y x).1 hyx).symm] at hnot
        cases hnot
      rw [List.findIdx_cons, Bool.eq_false_iff.2 hxy, cond_false]
    refine List.pairwise_cons.2 ⟨fun y hy => ?_, (ih.filter _).imp_of_mem fun {a b} ha hb hab => ?_⟩
    · rw [hself, hother y hy]
      exact Nat.succ_pos _
    · rw [hother a ha, hother b hb]
      exact Nat.succ_lt_succ hab

/-- Leaders may be taken before or after items are read in another form. -/
theorem map_leaders {alike' : β → β → Bool} {f : α → β} {xs : List α}
    (h : ∀ a ∈ xs, ∀ b ∈ xs, alike a b = alike' (f a) (f b)) :
    (leaders alike xs).map f = leaders alike' (xs.map f) := by
  induction xs with
  | nil => rfl
  | cons x rest ih =>
    rw [leaders, List.map_cons, List.map_cons, leaders,
      ← ih fun a ha b hb => h a (List.mem_cons_of_mem x ha) b (List.mem_cons_of_mem x hb),
      List.filter_map]
    congr 2
    refine List.filter_congr fun y hy => ?_
    rw [Function.comp_apply,
      h x List.mem_cons_self y (List.mem_cons_of_mem x (mem_of_mem_leaders hy))]

end Leaders

/-! ## Groups with an index -/

/-- Changing what the only item with a property became is changing it for all items with it. -/
theorem modify_map_of_findIdx? {α β : Type} {p : α → Bool} {g : α → β} {f : β → β} {xs : List α}
    {i : Nat} (hi : xs.findIdx? p = some i) (hone : xs.Pairwise fun a b => p a → p b = false) :
    (xs.map g).modify i f = xs.map fun x => if p x then f (g x) else g x := by
  induction xs generalizing i with
  | nil => cases hi
  | cons x rest ih =>
    obtain ⟨hx, hrest⟩ := List.pairwise_cons.1 hone
    rw [List.findIdx?_cons] at hi
    split at hi
    · rename_i hp
      obtain rfl := Option.some.inj hi
      rw [List.map_cons, List.modify_zero_cons, List.map_cons, if_pos hp]
      congr 1
      refine List.map_congr_left fun y hy => ?_
      rw [if_neg (by simp [hx y hy hp])]
    · rename_i hp
      obtain ⟨j, hj, rfl⟩ := Option.map_eq_some_iff.1 hi
      rw [List.map_cons, List.modify_succ_cons, List.map_cons, if_neg hp, ih hj hrest]

namespace RowGroup

/-- Whether two rows are in one group. -/
def together (slots : List Slot) (a b : TypedRow) : Bool := partsOf slots a = partsOf slots b

/-- The group of a row among others. -/
def around (slots : List Slot) (rows : List TypedRow) (row : TypedRow) : RowGroup :=
  ⟨keyOf slots row, rows.filter (together slots row)⟩

theorem together_iff {slots : List Slot} (a b : TypedRow) :
    together slots a b ↔ partsOf slots a = partsOf slots b := decide_eq_true_iff

end RowGroup

namespace Grouping

open RowGroup (together around partsOf)

variable {slots : List Slot} {rows : List TypedRow} {s : Grouping}

/-- Whether groups under way are those of the rows so far, and the index has their places. -/
structure Sound (slots : List Slot) (rows : List TypedRow) (s : Grouping) : Prop where
  groups : s.groups = (leaders (together slots) rows).map (around slots rows)
  places : ∀ parts, s.places.lookup parts =
    (leaders (together slots) rows).findIdx? fun leader => partsOf slots leader = parts

theorem sound_empty : Sound slots [] {} := ⟨rfl, fun _ => rfl⟩

theorem Sound.length_groups (h : Sound slots rows s) :
    s.groups.length = (leaders (together slots) rows).length := by
  rw [h.groups, List.length_map]

/-- A key without a place is not that of any row so far. -/
theorem Sound.lookup_eq_none_iff (h : Sound slots rows s) (row : TypedRow) :
    s.places.lookup (partsOf slots row) = none ↔ rows.any (together slots · row) = false := by
  rw [h.places, List.findIdx?_eq_none_iff, List.any_eq_false]
  constructor
  · intro hnone x hx htogether
    obtain ⟨leader, hleader, heq⟩ := exists_leader RowGroup.together_iff hx
    have := hnone leader hleader
    rw [decide_eq_false_iff_not] at this
    exact this (heq.trans ((RowGroup.together_iff x row).1 htogether))
  · intro hnone leader hleader
    rw [decide_eq_false_iff_not, ← RowGroup.together_iff]
    exact hnone leader (mem_of_mem_leaders hleader)

/-- **The place of a group is never beyond the groups.** -/
theorem Sound.place_lt (h : Sound slots rows s) (row : TypedRow) :
    (s.place slots row).1 < (s.place slots row).2.groups.length := by
  simp only [place]
  split
  · rename_i i hi
    rw [h.places] at hi
    rw [h.length_groups]
    exact (List.findIdx?_eq_some_iff_findIdx_eq.1 hi).1
  · simp

/-- What a row adds to the group of another. -/
theorem around_concat (row leader : TypedRow) : around slots (rows ++ [row]) leader =
    if together slots leader row then (around slots rows leader).add row
    else around slots rows leader := by
  rw [around, List.filter_append]
  split
  · rename_i htogether
    rw [List.filter_cons_of_pos htogether]
    rfl
  · rename_i htogether
    rw [List.filter_cons_of_neg htogether, List.filter_nil, List.append_nil]
    rfl

/-- No two leaders have one key. -/
theorem pairwise_partsOf (rows : List TypedRow) (parts : List KeyPart) :
    (leaders (together slots) rows).Pairwise fun a b =>
      decide (partsOf slots a = parts) → decide (partsOf slots b = parts) = false := by
  refine (pairwise_leaders rows).imp fun {a b} hab ha => ?_
  rw [decide_eq_true_eq] at ha
  rw [together, ha, decide_eq_false_iff_not] at hab
  exact decide_eq_false fun hb => hab hb.symm

/-- A row of a kind that is there goes to its group. -/
theorem Sound.modify (h : Sound slots rows s) {row : TypedRow} {i : Nat}
    (hi : s.places.lookup (partsOf slots row) = some i) :
    Sound slots (rows ++ [row]) { s with groups := s.groups.modify i (RowGroup.add row) } := by
  have hany : rows.any (together slots · row) = true := by
    rw [← Bool.not_eq_false, ← h.lookup_eq_none_iff, hi]
    exact Option.some_ne_none i
  have hleaders : leaders (together slots) (rows ++ [row]) = leaders (together slots) rows := by
    rw [leaders_concat, if_pos hany, List.append_nil]
  rw [h.places] at hi
  refine ⟨?_, by rw [hleaders]; exact h.places⟩
  rw [h.groups, modify_map_of_findIdx? hi (pairwise_partsOf rows _), hleaders]
  exact List.map_congr_left fun leader _ => (around_concat row leader).symm

/-- The group of a row of a new kind has that row alone. -/
theorem around_concat_self {row : TypedRow} (hnew : ∀ x ∈ rows, ¬ together slots x row) :
    around slots (rows ++ [row]) row = ⟨RowGroup.keyOf slots row, [row]⟩ := by
  have halone : rows.filter (together slots row) = [] := by
    refine List.filter_eq_nil_iff.2 fun x hx htogether => hnew x hx ?_
    rwa [RowGroup.together_iff, eq_comm, ← RowGroup.together_iff]
  rw [around_concat, if_pos ((RowGroup.together_iff row row).2 rfl), around, halone]
  rfl

/-- A row of a new kind makes a group of its own, at the end. -/
theorem Sound.append (h : Sound slots rows s) {row : TypedRow}
    (hnone : s.places.lookup (partsOf slots row) = none) :
    Sound slots (rows ++ [row])
      ⟨(partsOf slots row, s.groups.length) :: s.places,
        s.groups ++ [⟨RowGroup.keyOf slots row, [row]⟩]⟩ := by
  have hany := (h.lookup_eq_none_iff row).1 hnone
  have hnew : ∀ x ∈ rows, ¬ together slots x row := List.any_eq_false.1 hany
  have hleaders :
      leaders (together slots) (rows ++ [row]) = leaders (together slots) rows ++ [row] := by
    rw [leaders_concat, if_neg (by simp [hany])]
  refine ⟨?_, fun parts => ?_⟩
  · have hold :
        (leaders (together slots) rows).map (around slots (rows ++ [row])) = s.groups := by
      rw [h.groups]
      refine List.map_congr_left fun leader hleader => ?_
      rw [around_concat, if_neg (hnew leader (mem_of_mem_leaders hleader))]
    rw [hleaders, List.map_append, hold, List.map_singleton, around_concat_self hnew]
  · rw [hleaders, List.findIdx?_append, ← h.places, ← h.length_groups, List.lookup_cons,
      List.findIdx?_singleton]
    by_cases hparts : parts = partsOf slots row
    · rw [hparts, hnone]
      simp
    · rw [beq_false_of_ne hparts, decide_eq_false (Ne.symm hparts)]
      cases s.places.lookup parts <;> rfl

/-- **A row goes to the group of its key**, which is put at the end if it is not there. -/
theorem Sound.insert (h : Sound slots rows s) (row : TypedRow) :
    Sound slots (rows ++ [row]) (s.insert slots row) := by
  simp only [Grouping.insert, place]
  split
  · rename_i i hi
    exact h.modify hi
  · rename_i hnone
    have hlast (g : RowGroup) : (s.groups ++ [g]).modify s.groups.length (RowGroup.add row) =
        s.groups ++ [g.add row] := List.modifyTailIdx_add _ 0 s.groups [g]
    rw [hlast]
    exact h.append hnone

/-- **Rows keep groups and index in step.** -/
theorem Sound.foldl (h : Sound slots rows s) (more : List TypedRow) :
    Sound slots (rows ++ more) (more.foldl (Grouping.insert slots) s) := by
  induction more generalizing rows s with
  | nil => rwa [List.append_nil]
  | cons row rest ih =>
    rw [List.append_cons, List.foldl_cons]
    exact ih (h.insert row)

end Grouping

/-- **Grouping with an index is grouping by looking.** -/
theorem RowGroup.collect_eq (slots : List Slot) (rows : List TypedRow) :
    RowGroup.collect slots rows =
      (leaders (RowGroup.together slots) rows).map (RowGroup.around slots rows) :=
  (Grouping.sound_empty.foldl rows).groups

/-- Groups that are ordered are the same groups. -/
theorem groupRows_perm (slots : List Slot) (order : List GroupKey) (rows : List TypedRow) :
    (groupRows slots order rows).Perm (RowGroup.collect slots rows) := by
  rw [groupRows]
  split
  · exact .refl _
  · exact List.mergeSort_perm _ _

end Reporting
