import Reporting.Proofs.Order.Stability
import Reporting.Proofs.Query.Correspondence
import Reporting.Proofs.Text.Bytes

/-!
# Proofs/Query/Ranking — in what order rows are sorted

What comes before what is told here without comparing: of two values of a field (`Field.Before`), of two
cells under a sort key (`SlotKey.Before`), and of two rows under several keys (`RowBefore`).  The
comparisons of `Query/Order` say just that about the cells that records are read as
(`compareBy_eq_lt_iff`), so rows are sorted in this order, and in no other stable way
(`stablySorted_iff_eq_sortRows`).
-/

namespace Reporting

variable {r : Registry} {slots : List Slot} {f : Field} {key : SlotKey} {keys : List SlotKey}

/-! ## Declared values -/

/-- Whether a string is in a list at a place, and nowhere behind it. -/
structure LastAt (s : String) (xs : List String) (i : Nat) : Prop where
  here : xs[i]? = some s
  last : ∀ j, i < j → xs[j]? ≠ some s

theorem LastAt.unique {s : String} {xs : List String} {i j : Nat} (hi : LastAt s xs i)
    (hj : LastAt s xs j) : i = j := by
  rcases Nat.lt_trichotomy i j with hlt | heq | hgt
  · exact absurd hj.here (hi.last j hlt)
  · exact heq
  · exact absurd hi.here (hj.last i hgt)

theorem lastIndex?_eq_none_iff {s : String} {xs : List String} :
    lastIndex? s xs = none ↔ s ∉ xs := by
  induction xs with
  | nil => simp [lastIndex?]
  | cons x rest ih =>
    rw [lastIndex?, List.mem_cons, not_or, ← ih]
    cases lastIndex? s rest with
    | some i => simp
    | none => simp [eq_comm]

theorem lastAt_of_lastIndex? {s : String} {xs : List String} {i : Nat}
    (h : lastIndex? s xs = some i) : LastAt s xs i := by
  induction xs generalizing i with
  | nil => cases h
  | cons x rest ih =>
    rw [lastIndex?] at h
    cases hrest : lastIndex? s rest with
    | some k =>
      rw [hrest] at h
      obtain rfl := Option.some.inj h
      refine ⟨(ih hrest).here, fun j hj => ?_⟩
      obtain ⟨j, rfl⟩ := Nat.exists_eq_add_of_lt hj
      exact (ih hrest).last _ (by omega)
    | none =>
      rw [hrest] at h
      dsimp only at h
      split at h
      · rename_i heq
        obtain rfl := Option.some.inj h
        refine ⟨congrArg some heq, fun j hj hsome => ?_⟩
        obtain ⟨j, rfl⟩ := Nat.exists_eq_succ_of_ne_zero (Nat.ne_of_gt hj)
        exact lastIndex?_eq_none_iff.1 hrest (List.mem_of_getElem? hsome)
      · cases h

/-- **The last index of a string is the place where it is last.** -/
theorem lastIndex?_eq_some_iff {s : String} {xs : List String} {i : Nat} :
    lastIndex? s xs = some i ↔ LastAt s xs i := by
  refine ⟨lastAt_of_lastIndex?, fun h => ?_⟩
  cases hlast : lastIndex? s xs with
  | none => exact absurd (List.mem_of_getElem? h.here) (lastIndex?_eq_none_iff.1 hlast)
  | some j => rw [h.unique (lastAt_of_lastIndex? hlast)]

/-- Whether a value of an enum field comes before another.  Declared values come in the order of their
places, the last ones if they are declared twice, and before all others, which go by their bytes. -/
inductive DeclaredBefore (declared : List String) : String → String → Prop
  | declared {s t : String} {i j : Nat} (hs : LastAt s declared i) (ht : LastAt t declared j)
    (h : i < j) : DeclaredBefore declared s t
  | undeclared {s t : String} (hs : s ∈ declared) (ht : t ∉ declared) : DeclaredBefore declared s t
  | others {s t : String} (hs : s ∉ declared) (ht : t ∉ declared)
    (h : Text.bytes s < Text.bytes t) : DeclaredBefore declared s t

theorem SlotKey.compareDeclared_eq_lt_iff {declared : List String} {s t : String} :
    compareDeclared declared s t = .lt ↔ DeclaredBefore declared s t := by
  have hsome : ∀ {s i}, lastIndex? s declared = some i → s ∈ declared := fun h =>
    List.mem_of_getElem? (lastIndex?_eq_some_iff.1 h).here
  rw [compareDeclared]
  cases hs : lastIndex? s declared with
  | some i =>
    cases ht : lastIndex? t declared with
    | some j =>
      refine Nat.compare_eq_lt.trans
        ⟨.declared (lastIndex?_eq_some_iff.1 hs) (lastIndex?_eq_some_iff.1 ht), fun h => ?_⟩
      cases h with
      | declared hs' ht' h =>
        cases hs.symm.trans (lastIndex?_eq_some_iff.2 hs')
        cases ht.symm.trans (lastIndex?_eq_some_iff.2 ht')
        exact h
      | undeclared _ ht' => exact absurd (hsome ht) ht'
      | others hs' _ _ => exact absurd (hsome hs) hs'
    | none => exact iff_of_true rfl (.undeclared (hsome hs) (lastIndex?_eq_none_iff.1 ht))
  | none =>
    have hnot : s ∉ declared := lastIndex?_eq_none_iff.1 hs
    cases ht : lastIndex? t declared with
    | some j =>
      refine iff_of_false (fun h => by cases h) fun h => ?_
      cases h with
      | declared hs' _ _ => exact hnot (List.mem_of_getElem? hs'.here)
      | undeclared hs' _ => exact hnot hs'
      | others _ ht' _ => exact ht' (hsome ht)
    | none =>
      refine Text.compare_eq_lt_iff.trans ⟨.others hnot (lastIndex?_eq_none_iff.1 ht), fun h => ?_⟩
      cases h with
      | declared hs' _ _ => exact absurd (List.mem_of_getElem? hs'.here) hnot
      | undeclared hs' _ => exact absurd hs' hnot
      | others _ _ h => exact h

/-! ## Values -/

/-- Whether a value of a field comes before another: texts by their bytes, numbers by size, false before
true, instants by second and the nanosecond after it, and values of enum fields by their declaration. -/
inductive Field.Before (f : Field) : Value → Value → Prop
  | text {s t : String} (h : Text.bytes s < Text.bytes t) : Before f (.text s) (.text t)
  | number {x y : Float} (h : Double.compare? x y = some .lt) : Before f (.number x) (.number y)
  | bool : Before f (.bool false) (.bool true)
  | date {s t : Time.Instant} (h : s.second < t.second ∨ s.second = t.second ∧ s.nano < t.nano) :
    Before f (.date s) (.date t)
  | enum {s t : String} (h : DeclaredBefore f.enumValues s t) : Before f (.enum s) (.enum t)

namespace SlotKey

/-- **Values of a field are compared as they come.** -/
theorem compareValues_eq_lt_iff {v w : Value} (hv : v.Suits f.type) (hw : w.Suits f.type) :
    compareValues f v w = .lt ↔ f.Before v w := by
  by_cases henum : f.type = .enum
  · rw [henum] at hv hw
    obtain ⟨s, rfl⟩ := hv.exists_enum
    obtain ⟨t, rfl⟩ := hw.exists_enum
    rw [compareValues_enum henum]
    exact compareDeclared_eq_lt_iff.trans ⟨.enum, fun h => by cases h; assumption⟩
  rw [compareValues_of_ne henum]
  cases htype : f.type with
  | text =>
    rw [htype] at hv hw
    obtain ⟨s, rfl⟩ := hv.exists_text
    obtain ⟨t, rfl⟩ := hw.exists_text
    exact Text.compare_eq_lt_iff.trans ⟨.text, fun h => by cases h; assumption⟩
  | number =>
    rw [htype] at hv hw
    obtain ⟨x, rfl, hx⟩ := hv.exists_number
    obtain ⟨y, rfl, hy⟩ := hw.exists_number
    have hcompare := Double.compare?_of_isFinite hx hy
    rw [Value.compare?, hcompare, Option.getD_some]
    refine ⟨fun h => .number (hcompare.trans (congrArg some h)), fun h => ?_⟩
    cases h with
    | number h => exact Option.some.inj (hcompare.symm.trans h)
  | date =>
    rw [htype] at hv hw
    obtain ⟨s, rfl⟩ := hv.exists_date
    obtain ⟨t, rfl⟩ := hw.exists_date
    exact Time.Instant.compare_eq_lt_iff.trans ⟨.date, fun h => by cases h; assumption⟩
  | boolean =>
    rw [htype] at hv hw
    obtain ⟨a, rfl⟩ := hv.exists_bool
    obtain ⟨b, rfl⟩ := hw.exists_bool
    cases a <;> cases b
    case false.true => exact iff_of_true rfl .bool
    all_goals exact iff_of_false (fun h => by cases h) fun h => by cases h
  | enum => exact absurd htype henum

end SlotKey

/-! ## Cells -/

/-- Whether a cell comes before another under a sort key.  Nothing comes last in either direction, and a
descending key turns round the order of what there is. -/
inductive SlotKey.Before (key : SlotKey) : Option Value → Option Value → Prop
  | nothing (v : Value) : Before key (some v) none
  | asc {v w : Value} (hkey : key.direction = .asc) (h : key.slot.field.Before v w) :
    Before key (some v) (some w)
  | desc {v w : Value} (hkey : key.direction = .desc) (h : key.slot.field.Before w v) :
    Before key (some v) (some w)

namespace SlotKey

/-- **Cells are compared as they come under a key.** -/
theorem compareCells_eq_lt_iff {a b : Option Value} (ha : Cell.Suits key.slot.field.type a)
    (hb : Cell.Suits key.slot.field.type b) :
    compareCells key.slot.field key.direction a b = .lt ↔ key.Before a b := by
  cases a with
  | none => cases b <;> exact iff_of_false (fun h => by cases h) fun h => by cases h
  | some v =>
    cases b with
    | none => exact iff_of_true rfl (.nothing v)
    | some w =>
      have hv := ha v rfl
      have hw := hb w rfl
      cases hkey : key.direction with
      | asc =>
        refine (compareValues_eq_lt_iff hv hw).trans ⟨.asc hkey, fun h => ?_⟩
        cases h with
        | asc _ h => exact h
        | desc hdesc _ => cases hkey.symm.trans hdesc
      | desc =>
        -- Only values are turned round here: that nothing comes last was decided above.
        change (compareValues key.slot.field v w).swap = .lt ↔ _
        rw [← (ordersOn_compareValues key.slot.field).swap hv hw]
        refine (compareValues_eq_lt_iff hw hv).trans ⟨.desc hkey, fun h => ?_⟩
        cases h with
        | asc hasc _ => cases hkey.symm.trans hasc
        | desc _ h => exact h

/-- Whether a row comes before another under a sort key. -/
def BeforeRow (key : SlotKey) (a b : TypedRow) : Prop := key.Before (a.at key.slot) (b.at key.slot)

theorem compareRows_eq_lt_iff {a b : TypedRow} (hkey : key.slot ∈ slots)
    (ha : TypedRow.Suits slots a) (hb : TypedRow.Suits slots b) :
    key.compareRows a b = .lt ↔ key.BeforeRow a b :=
  compareCells_eq_lt_iff (ha key.slot hkey) (hb key.slot hkey)

end SlotKey

/-! ## Rows -/

/-- Whether a row comes before another under several sort keys: it does under the first of them that
tells the two apart. -/
inductive RowBefore (a b : TypedRow) : List SlotKey → Prop
  | decided {key : SlotKey} {keys : List SlotKey} (h : key.BeforeRow a b) : RowBefore a b (key :: keys)
  | tied {key : SlotKey} {keys : List SlotKey} (hab : ¬ key.BeforeRow a b) (hba : ¬ key.BeforeRow b a)
    (rest : RowBefore a b keys) : RowBefore a b (key :: keys)

/-- **Rows are compared as they come under the keys.** -/
theorem compareBy_eq_lt_iff {a b : TypedRow} (hkeys : ∀ key ∈ keys, key.slot ∈ slots)
    (ha : TypedRow.Suits slots a) (hb : TypedRow.Suits slots b) :
    compareBy keys a b = .lt ↔ RowBefore a b keys := by
  induction keys with
  | nil => exact iff_of_false (fun h => by cases h) fun h => by cases h
  | cons key rest ih =>
    obtain ⟨hkey, hrest⟩ := List.forall_mem_cons.1 hkeys
    have hlt := SlotKey.compareRows_eq_lt_iff hkey ha hb
    have hgt : key.compareRows a b = .gt ↔ key.BeforeRow b a := by
      rw [← SlotKey.compareRows_eq_lt_iff hkey hb ha, (SlotKey.ordersOn_compareRows hkey).swap ha hb,
        Ordering.swap_eq_lt]
    have hcons : compareBy (key :: rest) a b = (key.compareRows a b).then (compareBy rest a b) := rfl
    rw [hcons]
    constructor
    · intro h
      cases hcase : key.compareRows a b with
      | lt => exact .decided (hlt.1 hcase)
      | eq =>
        rw [hcase] at h
        refine .tied (fun hab => ?_) (fun hba => ?_) ((ih hrest).1 h)
        · cases hcase.symm.trans (hlt.2 hab)
        · cases hcase.symm.trans (hgt.2 hba)
      | gt =>
        rw [hcase] at h
        cases h
    · intro h
      cases h with
      | decided h => rw [hlt.2 h]; rfl
      | tied hab hba h =>
        have hcase : key.compareRows a b = .eq := by
          cases hcase : key.compareRows a b with
          | lt => exact absurd (hlt.1 hcase) hab
          | eq => rfl
          | gt => exact absurd (hgt.1 hcase) hba
        rw [hcase, (ih hrest).2 h]
        rfl

/-- Whether several sort keys rank the rows that have a property, as they come under the keys. -/
structure RanksRows (keys : List SlotKey) (p : TypedRow → Prop) : Prop where
  lt_iff : ∀ {a b}, p a → p b → (compareBy keys a b = .lt ↔ RowBefore a b keys)
  refl : ∀ {a}, p a → compareBy keys a a = .eq
  swap : ∀ {a b}, p a → p b → compareBy keys b a = (compareBy keys a b).swap
  total : ∀ {a b}, p a → p b → (compareBy keys a b).isLE ∨ (compareBy keys b a).isLE
  trans : ∀ {a b c}, p a → p b → p c → (compareBy keys a b).isLE → (compareBy keys b c).isLE →
    (compareBy keys a c).isLE

/-- Whether a row is what some record is read as. -/
def Slot.IsRow (slots : List Slot) (row : TypedRow) : Prop :=
  ∃ record, (readRow slots record).1 = row

theorem Slot.Layout.suits_of_isRow (h : Layout r slots) {row : TypedRow} (hrow : IsRow slots row) :
    TypedRow.Suits slots row := by
  obtain ⟨record, rfl⟩ := hrow
  exact h.suits_readRow record

/-- **Sort keys on the slots of a definition rank the rows that records are read as.** -/
theorem Slot.Layout.ranksRows (h : Layout r slots) (hkeys : ∀ key ∈ keys, key.slot ∈ slots) :
    RanksRows keys (IsRow slots) := by
  have horders : OrdersOn (TypedRow.Suits slots) (compareBy keys) :=
    .firstDecision fun key hkey => SlotKey.ordersOn_compareRows (hkeys key hkey)
  have hsuits : ∀ {row}, IsRow slots row → TypedRow.Suits slots row := h.suits_of_isRow
  refine ⟨fun ha hb => compareBy_eq_lt_iff hkeys (hsuits ha) (hsuits hb), fun ha =>
    horders.refl (hsuits ha), fun ha hb => horders.swap (hsuits ha) (hsuits hb), fun {a b} ha hb => ?_,
    fun ha hb hc => horders.trans (hsuits ha) (hsuits hb) (hsuits hc)⟩
  rw [horders.swap (hsuits ha) (hsuits hb)]
  cases compareBy keys a b
  case gt => exact .inr rfl
  all_goals exact .inl rfl

/-- **Rows are sorted in the one stable order of their keys.**  Take the slots of a definition, any sort
keys that pass their checks, and the rows that records are read as under these slots.  The comparison
under the keys is a total preorder of such rows; the first key that tells two of them apart decides
(`RowBefore`), where nothing comes last in either direction and values come in the order of their type,
turned round by a descending key (`SlotKey.Before`, `Field.Before`).  The sorted rows, and they alone,
are these rows in order, with those that no key tells apart as they were. -/
theorem stablySorted_iff_eq_sortRows {d : Definition} {sort : List SortKey}
    (hslots : Plan.slotsOf r d = .ok slots)
    (hkeys : Plan.each (SlotKey.ofSortKey slots) sort = .ok keys) :
    RanksRows keys (Slot.IsRow slots) ∧
      ∀ rows, (∀ row ∈ rows, Slot.IsRow slots row) → ∀ sorted,
        StablySorted (compareBy keys) rows sorted ↔ sorted = sortRows keys rows := by
  have hlayout : Slot.Layout r slots := (Slot.layout_of_slotsOf hslots).1
  have hmem : ∀ key ∈ keys, key.slot ∈ slots := by
    intro key hkey
    obtain ⟨_, -, hok⟩ := Plan.exists_of_mem_each hkeys hkey
    exact ((SlotKey.ofSortKey_eq_ok_iff hlayout).1 hok).1
  have horders : ∀ key ∈ keys, OrdersOn (TypedRow.Suits slots) key.compareRows := fun key hkey =>
    SlotKey.ordersOn_compareRows (hmem key hkey)
  refine ⟨hlayout.ranksRows hmem, fun rows hrows sorted => ?_⟩
  have hsuits : ∀ row ∈ rows, TypedRow.Suits slots row := fun row hrow =>
    hlayout.suits_of_isRow (hrows row hrow)
  have hsort : sortRows keys rows = insertionSortBy (compareBy keys) rows :=
    sortBy_firstDecision horders hsuits
  rw [hsort]
  exact (OrdersOn.firstDecision horders).stablySorted_iff hsuits

/-! ### Sales by city -/

/-- The slots for the report on sales. -/
def Slot.sales : List Slot :=
  [⟨0, .unrestricted "amount" "Amount" .number "sale"⟩, ⟨1, .unrestricted "city" "City" .text "sale"⟩]

/-- The row of a sale of no known amount in a city. -/
def TypedRow.saleIn (city : Option String) : TypedRow := [none, city.map Value.text]

theorem Slot.isRow_saleIn (city : Option String) : IsRow sales (.saleIn city) := by
  cases city with
  | none => exact ⟨[], rfl⟩
  | some name => exact ⟨[("city", .string name)], rfl⟩

/-- The last city comes first, and no city last. -/
theorem stablySorted_iff_eq_sortRows_sales :
    Plan.slotsOf .sales .salesByCity = .ok Slot.sales ∧ ∃ keys,
      Plan.each (SlotKey.ofSortKey Slot.sales) [⟨"city", .desc⟩] = .ok keys ∧
      (∀ city, Slot.IsRow Slot.sales (.saleIn city)) ∧ RanksRows keys (Slot.IsRow Slot.sales) ∧
      sortRows keys [.saleIn (some "Oslo"), .saleIn none, .saleIn (some "Rome")] =
        [.saleIn (some "Rome"), .saleIn (some "Oslo"), .saleIn none] := by
  have hslots : Plan.slotsOf .sales .salesByCity = .ok Slot.sales := rfl
  obtain ⟨keys, hkeys⟩ : ∃ keys,
      Plan.each (SlotKey.ofSortKey Slot.sales) [⟨"city", .desc⟩] = .ok keys := ⟨_, rfl⟩
  obtain ⟨hranks, hsorted⟩ := stablySorted_iff_eq_sortRows hslots hkeys
  refine ⟨hslots, keys, hkeys, Slot.isRow_saleIn, hranks, ?_⟩
  have hrows : ∀ row ∈ [TypedRow.saleIn (some "Oslo"), .saleIn none, .saleIn (some "Rome")],
      Slot.IsRow Slot.sales row := by
    simp only [List.forall_mem_cons]
    exact ⟨Slot.isRow_saleIn _, Slot.isRow_saleIn _, Slot.isRow_saleIn _, List.forall_mem_nil _⟩
  refine ((hsorted _ hrows _).1 ?_).symm
  cases hkeys
  refine ⟨?_, by decide, ?_⟩
  · exact (List.Perm.swap ..).trans (.cons _ (.swap ..))
  · simp only [List.forall_mem_cons]
    exact ⟨rfl, rfl, rfl, List.forall_mem_nil _⟩

end Reporting
