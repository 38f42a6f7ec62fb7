import Reporting.Proofs.Double.Rank
import Reporting.Proofs.Order.Comparison
import Reporting.Query.Group
import Reporting.Query.Meaning

/-!
# Proofs/Value/Order — values of one type

A value suits a field if it is of the field's type and, should it be a number, a real one; what is
read from a record does (`suits_of_ofCell?`).  Among values that suit one field everything is well
behaved: any two are compared (`isSome_compare?`), sort keys order their cells in either direction
(`ordersOn_compareCells`), and being grouped together means being equal for filters
(`keyPart_eq_iff_alike`).
-/

namespace Reporting

/-! ## Values that suit a type -/

/-- Whether a value is no number beyond the real ones. -/
def Value.IsReal : Value → Prop
  | number x => Double.isFinite x
  | _ => True

/-- Whether a value can be what a record says about a field of a type. -/
structure Value.Suits (type : FieldType) (v : Value) : Prop where
  type_eq : v.type = type
  isReal : v.IsReal

/-- Whether a cell is empty or holds a value that suits a type. -/
def Cell.Suits (type : FieldType) (cell : Option Value) : Prop := ∀ v ∈ cell, v.Suits type

namespace Value

theorem isFinite_doubleOf (n : Json.Number) : Double.isFinite (doubleOf n) := by
  cases n with
  | int n fits =>
    refine Double.isFinite_ofInt ?_
    simp only [Json.Number.Fits, UInt64.size] at fits
    omega
  | float x finite => exact finite

/-- **What is read from a record suits its field.** -/
theorem suits_of_ofCell? {type : FieldType} {cell : Json} {v : Value}
    (h : ofCell? type cell = some v) : v.Suits type := by
  refine ⟨type_ofCell? h, ?_⟩
  cases v with
  | number x =>
    obtain rfl : type = .number := (type_ofCell? h).symm
    cases cell with
    | number n =>
      obtain rfl : doubleOf n = x := by simpa [ofCell?] using h
      exact isFinite_doubleOf n
    | _ => simp [ofCell?] at h
  | _ => trivial

end Value

/-- An instant is before another one by its second, or by its nanosecond in the same second. -/
theorem Time.Instant.compare_eq_lt_iff {s t : Time.Instant} : s.compare t = .lt ↔
    s.second < t.second ∨ s.second = t.second ∧ s.nano < t.nano := by
  rw [compare, Ordering.then_eq_lt, Int.compare_eq_lt, Std.LawfulEqOrd.compare_eq_iff_eq,
    Nat.compare_eq_lt]

theorem Field.suits_valueIn (f : Field) (record : Record) :
    Cell.Suits f.type (f.valueIn record) := by
  intro v hv
  obtain ⟨cell, -, h⟩ := Option.bind_eq_some_iff.1 hv
  exact Value.suits_of_ofCell? h

namespace Value

variable {type : FieldType} {a b v : Value}

theorem Suits.exists_text (h : v.Suits .text) : ∃ s, v = text s := by
  cases v <;> first | exact ⟨_, rfl⟩ | cases h.type_eq

theorem Suits.exists_number (h : v.Suits .number) : ∃ x, v = number x ∧ Double.isFinite x := by
  cases v <;> first | exact ⟨_, rfl, h.isReal⟩ | cases h.type_eq

theorem Suits.exists_date (h : v.Suits .date) : ∃ t, v = date t := by
  cases v <;> first | exact ⟨_, rfl⟩ | cases h.type_eq

theorem Suits.exists_bool (h : v.Suits .boolean) : ∃ b, v = bool b := by
  cases v <;> first | exact ⟨_, rfl⟩ | cases h.type_eq

theorem Suits.exists_enum (h : v.Suits .enum) : ∃ s, v = enum s := by
  cases v <;> first | exact ⟨_, rfl⟩ | cases h.type_eq

/-! ## Comparing -/

/-- **Any two values that suit a type are compared.** -/
theorem isSome_compare? (ha : a.Suits type) (hb : b.Suits type) : (a.compare? b).isSome := by
  have htype := ha.type_eq.trans hb.type_eq.symm
  cases a <;> cases b <;> simp only [Value.type, reduceCtorEq] at htype
  case number.number =>
    rw [compare?, Double.compare?_of_isFinite ha.isReal hb.isReal, Option.isSome_some]
  all_goals rfl

/-- Values are equal exactly if they are compared and share their place. -/
theorem same_iff_compare? : a.same b ↔ a.compare? b = some .eq := by
  cases a <;> cases b <;>
    simp [same, compare?, Double.same, Time.Instant.compare_eq_iff]

/-- The text of a text or an enum. -/
def letters : Value → String
  | text s | enum s => s
  | _ => ""

/-- The rank of a number. -/
def rank : Value → Int
  | number x => Double.rank x
  | _ => 0

/-- The second of a date, and the nanoseconds after it. -/
def moment : Value → Int × Nat
  | date t => (t.second, t.nano)
  | _ => (0, 0)

/-- Whether a value is true. -/
def truth : Value → Bool
  | bool b => b
  | _ => false

/-- **The values of a type are ordered.** -/
theorem ordersOn_compare? (type : FieldType) :
    OrdersOn (Suits type) fun a b => (a.compare? b).getD .eq := by
  cases type with
  | text =>
    refine .of_key compare letters fun a b ha hb => ?_
    obtain ⟨s, rfl⟩ := ha.exists_text
    obtain ⟨t, rfl⟩ := hb.exists_text
    rfl
  | number =>
    refine .of_key compare rank fun a b ha hb => ?_
    obtain ⟨x, rfl, hx⟩ := ha.exists_number
    obtain ⟨y, rfl, hy⟩ := hb.exists_number
    rw [compare?, Double.compare?_of_isFinite hx hy]
    rfl
  | date =>
    refine .of_key (compareLex (compareOn (·.1)) (compareOn (·.2))) moment fun a b ha hb => ?_
    obtain ⟨s, rfl⟩ := ha.exists_date
    obtain ⟨t, rfl⟩ := hb.exists_date
    rfl
  | boolean =>
    refine .of_key compare truth fun a b ha hb => ?_
    obtain ⟨s, rfl⟩ := ha.exists_bool
    obtain ⟨t, rfl⟩ := hb.exists_bool
    rfl
  | enum =>
    refine .of_key compare letters fun a b ha hb => ?_
    obtain ⟨s, rfl⟩ := ha.exists_enum
    obtain ⟨t, rfl⟩ := hb.exists_enum
    rfl

/-- The place of a declared value, or the one behind all declared values. -/
def declaredRank (declared : List String) (s : String) : Nat :=
  (lastIndex? s declared).getD declared.length

/-- What tells undeclared values apart. -/
def undeclaredName (declared : List String) (s : String) : String :=
  if (lastIndex? s declared).isSome then "" else s

end Value

theorem lastIndex?_lt {s : String} {xs : List String} {i : Nat} (h : lastIndex? s xs = some i) :
    i < xs.length := by
  induction xs generalizing i with
  | nil => cases h
  | cons x rest ih =>
    rw [lastIndex?] at h
    cases hrest : lastIndex? s rest with
    | some j =>
      rw [hrest] at h
      obtain rfl := Option.some.inj h
      exact Nat.succ_lt_succ (ih hrest)
    | none =>
      rw [hrest] at h
      dsimp only at h
      split at h
      · obtain rfl := Option.some.inj h
        exact Nat.succ_pos _
      · cases h

namespace SlotKey

open Value (declaredRank undeclaredName)

/-- The order of enum values as one by place and then by name. -/
theorem compareDeclared_eq (declared : List String) (s t : String) :
    compareDeclared declared s t =
      (compare (declaredRank declared s) (declaredRank declared t)).then
        (compare (undeclaredName declared s) (undeclaredName declared t)) := by
  rw [compareDeclared, declaredRank, declaredRank, undeclaredName, undeclaredName]
  cases hs : lastIndex? s declared with
  | some i =>
    cases ht : lastIndex? t declared with
    | some j => simp
    | none => simp [Nat.compare_eq_lt.2 (lastIndex?_lt hs)]
  | none =>
    cases ht : lastIndex? t declared with
    | some j => simp [Nat.compare_eq_gt.2 (lastIndex?_lt ht)]
    | none => simp [Std.ReflOrd.compare_self]

/-- Values of enum fields are compared by their declaration. -/
theorem compareValues_enum {f : Field} (h : f.type = .enum) (s t : String) :
    compareValues f (.enum s) (.enum t) = compareDeclared f.enumValues s t := by
  simp only [compareValues, h]

/-- Values of other fields are compared as they are. -/
theorem compareValues_of_ne {f : Field} (h : f.type ≠ .enum) (a b : Value) :
    compareValues f a b = (a.compare? b).getD .eq := by
  rw [compareValues]
  exact fun _ _ hf _ _ => h hf

/-- **The values of a field are ordered**, whatever its type. -/
theorem ordersOn_compareValues (f : Field) : OrdersOn (Value.Suits f.type) (compareValues f) := by
  by_cases htype : f.type = .enum
  · refine .of_key (compareLex (compareOn (declaredRank f.enumValues))
      (compareOn (undeclaredName f.enumValues))) Value.letters fun a b ha hb => ?_
    rw [htype] at ha hb
    obtain ⟨s, rfl⟩ := ha.exists_enum
    obtain ⟨t, rfl⟩ := hb.exists_enum
    rw [compareValues_enum htype, compareDeclared_eq]
    rfl
  · exact (Value.ordersOn_compare? f.type).comap id (fun _ h => h) fun a b _ _ =>
      compareValues_of_ne htype a b

/-- **The cells of a field are ordered in either direction**, those without a value last. -/
theorem ordersOn_compareCells (f : Field) (direction : Direction) :
    OrdersOn (Cell.Suits f.type) (compareCells f direction) := by
  cases direction with
  | asc =>
    refine (ordersOn_compareValues f).absentLast.comap id (fun _ h => h) fun a b _ _ => ?_
    cases a <;> cases b <;> rfl
  | desc =>
    refine (ordersOn_compareValues f).reverse.absentLast.comap id (fun _ h => h) fun a b _ _ => ?_
    cases a <;> cases b <;> rfl

end SlotKey

namespace SortKey

/-- **A sort key orders records**, also where there is no such field. -/
theorem ordersOn_compare (r : Registry) (key : SortKey) :
    OrdersOn (fun _ => True) (key.compare r) := by
  cases hfind : r.find? key.fieldId with
  | none =>
    refine .of_key (Ord.compare : Nat → Nat → Ordering) (fun _ => 0) fun a b _ _ => ?_
    rw [SortKey.compare, hfind]
    rfl
  | some f =>
    refine (SlotKey.ordersOn_compareCells f key.direction).comap f.valueIn
      (fun record _ => f.suits_valueIn record) fun a b _ _ => ?_
    rw [SortKey.compare, hfind]

theorem ordersOn_compareBy (r : Registry) (keys : List SortKey) :
    OrdersOn (fun _ => True) (compareBy r keys) :=
  .firstDecision fun key _ => ordersOn_compare r key

end SortKey

/-! ## Being alike -/

namespace Value

/-- Being equal goes both ways. -/
theorem same_comm (a b : Value) : a.same b = b.same a := by
  cases a <;> cases b
  case number.number x y =>
    rw [same, same, Double.same, Double.same, Double.compare?_swap x y]
    cases Double.compare? x y with
    | none => rfl
    | some o => cases o <;> rfl
  all_goals first | rfl | exact BEq.comm

end Value

/-- Values of one type are grouped together exactly if they are equal for filters. -/
theorem KeyPart.of_some_eq_iff {type : FieldType} {a b : Value} (ha : a.Suits type)
    (hb : b.Suits type) : KeyPart.of (some a) = KeyPart.of (some b) ↔ a.same b := by
  have htype := ha.type_eq.trans hb.type_eq.symm
  cases a <;> cases b <;> simp only [Value.type, reduceCtorEq] at htype
  case number.number =>
    rw [KeyPart.of, KeyPart.of, KeyPart.number.injEq]
    exact (Double.same_iff_toBits ha.isReal hb.isReal).symm
  all_goals simp [KeyPart.of, Value.same]

/-- **Cells are grouped together exactly if they are alike**: both empty, or with values that are
equal for filters. -/
theorem keyPart_eq_iff_alike {type : FieldType} {a b : Option Value} (ha : Cell.Suits type a)
    (hb : Cell.Suits type b) : KeyPart.of a = KeyPart.of b ↔ cellsAlike a b := by
  cases a with
  | none =>
    cases b with
    | none => simp [cellsAlike]
    | some b => cases b <;> simp [KeyPart.of, cellsAlike]
  | some a =>
    cases b with
    | none => cases a <;> simp [KeyPart.of, cellsAlike]
    | some b => exact KeyPart.of_some_eq_iff (ha a rfl) (hb b rfl)

/-- **Cells that are alike are not told apart by sorting**, in either direction. -/
theorem SlotKey.compareCells_eq_of_alike {f : Field} (direction : Direction) {a b : Option Value}
    (ha : Cell.Suits f.type a) (hb : Cell.Suits f.type b) (h : cellsAlike a b) :
    compareCells f direction a b = .eq := by
  cases a with
  | none =>
    cases b with
    | none => rfl
    | some w => cases h
  | some v =>
    cases b with
    | none => cases h
    | some w =>
      have hsame : v.same w := h
      have hvalues : compareValues f v w = .eq := by
        by_cases htype : f.type = .enum
        · have hv := ha v rfl
          have hw := hb w rfl
          rw [htype] at hv hw
          obtain ⟨s, rfl⟩ := hv.exists_enum
          obtain ⟨t, rfl⟩ := hw.exists_enum
          obtain rfl : s = t := eq_of_beq hsame
          exact (ordersOn_compareValues f).refl (ha _ rfl)
        · rw [compareValues_of_ne htype, Value.same_iff_compare?.1 hsame, Option.getD_some]
      cases direction with
      | asc => exact hvalues
      | desc => exact congrArg Ordering.swap hvalues

end Reporting
