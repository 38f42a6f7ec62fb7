import Reporting.Json.Basic

/-!
# Proofs/Json/Members — members are what is found under their names

Members are put in by rising name (`Members.ordered_ofList`), and members in that order are equal as
soon as the same is found in them under every name (`Members.Ordered.ext`).  So it does not matter in
what order a row's cells are written, nor how often (`Members.get?_ofList_map`), and a row has just the
names under which cells were put into it (`Members.hasNames_ofList`).
-/

namespace Reporting.Json.Members

variable {m m' : Members} {name other : String} {value : Json}

/-- Whether members come by rising name. -/
def Ordered (m : Members) : Prop := m.Pairwise fun a b => a.1 < b.1

instance (m : Members) : Decidable m.Ordered :=
  inferInstanceAs (Decidable (m.Pairwise fun a b => a.1 < b.1))

/-! ## Keeping the order -/

theorem mem_insert {member : String × Json} (h : member ∈ m.insert name value) :
    member = (name, value) ∨ member ∈ m := by
  induction m with
  | nil => exact .inl (List.mem_singleton.1 h)
  | cons head rest ih =>
    rw [insert] at h
    split at h
    · exact List.mem_cons.1 h
    · split at h
      · exact (List.mem_cons.1 h).imp_right fun h => List.mem_cons_of_mem head h
      · rcases List.mem_cons.1 h with rfl | h
        · exact .inr List.mem_cons_self
        · exact (ih h).imp_right fun h => List.mem_cons_of_mem head h

/-- **A member goes to its place.** -/
theorem Ordered.insert (h : Ordered m) (name : String) (value : Json) :
    Ordered (m.insert name value) := by
  induction m with
  | nil => exact List.pairwise_singleton _ _
  | cons head rest ih =>
    obtain ⟨hhead, hrest⟩ := List.pairwise_cons.1 h
    rw [Members.insert]
    split
    · rename_i hlt
      refine List.pairwise_cons.2 ⟨?_, h⟩
      rintro member (_ | ⟨_, hmem⟩)
      · exact hlt
      · exact String.lt_trans hlt (hhead member hmem)
    · rename_i hle
      split
      · rename_i heq
        subst heq
        exact List.pairwise_cons.2 ⟨hhead, hrest⟩
      · rename_i hne
        refine List.pairwise_cons.2 ⟨fun member hmem => ?_, ih hrest⟩
        rcases mem_insert hmem with rfl | hmem
        · refine Std.lt_of_le_of_ne (String.not_lt.1 hle) (Ne.symm hne)
        · exact hhead member hmem

theorem ordered_foldl {pairs : List (String × Json)} (h : Ordered m) :
    Ordered (pairs.foldl (fun members (name, value) => members.insert name value) m) := by
  induction pairs generalizing m with
  | nil => exact h
  | cons pair rest ih => exact ih (h.insert pair.1 pair.2)

theorem ordered_ofList (pairs : List (String × Json)) : Ordered (ofList pairs) :=
  ordered_foldl List.Pairwise.nil

theorem mem_of_mem_foldl {pairs : List (String × Json)} {member : String × Json}
    (h : member ∈ pairs.foldl (fun members (name, value) => members.insert name value) m) :
    member ∈ m ∨ member ∈ pairs := by
  induction pairs generalizing m with
  | nil => exact .inl h
  | cons pair rest ih =>
    rcases ih h with hmem | hrest
    · exact (mem_insert hmem).elim (fun heq => .inr (heq ▸ List.mem_cons_self)) .inl
    · exact .inr (List.mem_cons_of_mem pair hrest)

/-- Every member is one that was put in. -/
theorem mem_of_mem_ofList {pairs : List (String × Json)} {member : String × Json}
    (h : member ∈ ofList pairs) : member ∈ pairs :=
  (mem_of_mem_foldl h).resolve_left List.not_mem_nil

/-! ## What is found -/

theorem get?_cons_self (rest : Members) : get? ((name, value) :: rest) name = some value := by
  simp [get?]

theorem get?_cons_of_ne (h : other ≠ name) (rest : Members) :
    get? ((name, value) :: rest) other = get? rest other := by
  simp [get?, List.lookup_cons, beq_eq_false_iff_ne.2 h]

/-- Nothing is found under a name that comes before all others. -/
theorem get?_eq_none_of_lt (h : ∀ member ∈ m, name < member.1) : get? m name = none := by
  induction m with
  | nil => rfl
  | cons head rest ih =>
    rw [get?_cons_of_ne (String.ne_of_lt (h head List.mem_cons_self))]
    exact ih fun member hmem => h member (List.mem_cons_of_mem head hmem)

/-- Nothing that is found has a name before the first. -/
theorem Ordered.not_lt_of_get? {rest : Members} {found : Json}
    (h : Ordered ((name, value) :: rest)) (hfound : get? ((name, value) :: rest) other = some found) :
    ¬ other < name := by
  intro hlt
  have hhead := (List.pairwise_cons.1 h).1
  rw [get?_cons_of_ne (String.ne_of_lt hlt),
    get?_eq_none_of_lt fun member hmem => String.lt_trans hlt (hhead member hmem)] at hfound
  cases hfound

/-- **Members in order are what is found in them.** -/
theorem Ordered.ext (h : Ordered m) (h' : Ordered m') (heq : ∀ name, m.get? name = m'.get? name) :
    m = m' := by
  induction m generalizing m' with
  | nil =>
    rcases m' with _ | ⟨⟨name, value⟩, rest⟩
    · rfl
    · cases (heq name).trans (get?_cons_self rest)
  | cons head rest ih =>
    obtain ⟨name, value⟩ := head
    obtain ⟨hhead, hrest⟩ := List.pairwise_cons.1 h
    rcases m' with _ | ⟨⟨name', value'⟩, rest'⟩
    · cases (heq name).symm.trans (get?_cons_self rest)
    obtain ⟨hhead', hrest'⟩ := List.pairwise_cons.1 h'
    -- The first names agree: the smaller one would be missing on the other side.
    obtain rfl : name = name' := Std.le_antisymm
      (String.not_lt.1 (h.not_lt_of_get? ((heq name').trans (get?_cons_self rest'))))
      (String.not_lt.1 (h'.not_lt_of_get? ((heq name).symm.trans (get?_cons_self rest))))
    have hvalue := heq name
    rw [get?_cons_self, get?_cons_self] at hvalue
    cases hvalue
    congr 1
    refine ih hrest hrest' fun other => ?_
    by_cases hother : other = name
    · subst hother
      rw [get?_eq_none_of_lt hhead, get?_eq_none_of_lt hhead']
    · rw [← get?_cons_of_ne hother rest, heq, get?_cons_of_ne hother]

theorem get?_foldl_of_not_mem {pairs : List (String × Json)} (h : name ∉ pairs.map (·.1)) :
    get? (pairs.foldl (fun members (name, value) => members.insert name value) m) name =
      m.get? name := by
  induction pairs generalizing m with
  | nil => rfl
  | cons pair rest ih =>
    rw [List.map_cons, List.mem_cons, not_or] at h
    rw [List.foldl_cons, ih h.2, get?_insert_of_ne h.1]

/-- **What is found in members that names were mapped to**: the value of the name, if it was one of
them. -/
theorem get?_ofList_map (names : List String) (f : String → Json) :
    get? (ofList (names.map fun name => (name, f name))) name =
      if name ∈ names then some (f name) else none := by
  have hfold : ∀ (names : List String) (m : Members), name ∈ names →
      get? ((names.map fun name => (name, f name)).foldl
        (fun members (name, value) => members.insert name value) m) name = some (f name) := by
    intro names
    induction names with
    | nil => exact fun _ hmem => by cases hmem
    | cons head rest ih =>
      intro m hmem
      rw [List.map_cons, List.foldl_cons]
      by_cases hrest : name ∈ rest
      · exact ih _ hrest
      · obtain rfl : name = head := (List.mem_cons.1 hmem).resolve_right hrest
        rw [get?_foldl_of_not_mem (by simpa using hrest), get?_insert_self]
  split
  · rename_i hmem
    exact hfold names [] hmem
  · rename_i hmem
    exact get?_foldl_of_not_mem (by simpa using hmem)

/-- Members that names are mapped to depend on which names there are, and on nothing else. -/
theorem ofList_map_congr {names names' : List String} (f : String → Json)
    (h : ∀ name, name ∈ names ↔ name ∈ names') :
    ofList (names.map fun name => (name, f name)) =
      ofList (names'.map fun name => (name, f name)) := by
  refine (ordered_ofList _).ext (ordered_ofList _) fun name => ?_
  simp only [get?_ofList_map, h]

/-- **What is found in members put in under distinct names** is the value that came with the name. -/
theorem get?_ofList_of_mem {pairs : List (String × Json)} (h : (pairs.map (·.1)).Nodup)
    (hmem : (name, value) ∈ pairs) : get? (ofList pairs) name = some value := by
  have hfold : ∀ (m : Members), get? (pairs.foldl
      (fun members (name, value) => members.insert name value) m) name = some value := by
    induction pairs with
    | nil => cases hmem
    | cons pair rest ih =>
      intro m
      obtain ⟨hpair, hrest⟩ := List.nodup_cons.1 h
      rw [List.foldl_cons]
      rcases List.mem_cons.1 hmem with rfl | hmem
      · rw [get?_foldl_of_not_mem hpair, get?_insert_self]
      · exact ih hrest hmem _
  exact hfold []

/-! ## Names -/

/-- The names of members. -/
def names (m : Members) : List String := m.map (·.1)

/-- Whether members have some names, each once, and no others. -/
def HasNames (ids : List String) (m : Members) : Prop :=
  m.names.Nodup ∧ ∀ name, name ∈ m.names ↔ name ∈ ids

/-- No two members in order have one name. -/
theorem Ordered.nodup_names (h : Ordered m) : m.names.Nodup :=
  List.pairwise_map.2 (h.imp String.ne_of_lt)

/-- Putting in a member adds its name and loses none. -/
theorem mem_names_insert : other ∈ (m.insert name value).names ↔ other = name ∨ other ∈ m.names := by
  induction m with
  | nil => exact List.mem_cons
  | cons head rest ih =>
    obtain ⟨key, old⟩ := head
    rw [insert]
    split
    · exact List.mem_cons
    · split
      · rename_i heq
        subst heq
        simp only [names, List.map_cons, List.mem_cons, or_self_left]
      · simp only [names, List.map_cons, List.mem_cons] at ih ⊢
        rw [ih, or_left_comm]

/-- **Members have the names under which they were put in**, however often. -/
theorem mem_names_ofList {pairs : List (String × Json)} :
    name ∈ (ofList pairs).names ↔ name ∈ pairs.map (·.1) := by
  have hfold : ∀ m : Members, name ∈ (pairs.foldl
      (fun members (name, value) => members.insert name value) m).names ↔
        name ∈ m.names ∨ name ∈ pairs.map (·.1) := by
    induction pairs with
    | nil => exact fun m => (or_iff_left List.not_mem_nil).symm
    | cons pair rest ih =>
      intro m
      rw [List.foldl_cons, ih, mem_names_insert, List.map_cons, List.mem_cons, or_assoc, or_left_comm]
  exact (hfold []).trans (or_iff_right List.not_mem_nil)

/-- Members put in under some names have these names. -/
theorem hasNames_ofList {pairs : List (String × Json)} {ids : List String}
    (h : ∀ name, name ∈ pairs.map (·.1) ↔ name ∈ ids) : (ofList pairs).HasNames ids :=
  ⟨(ordered_ofList pairs).nodup_names, fun name => mem_names_ofList.trans (h name)⟩

end Reporting.Json.Members
